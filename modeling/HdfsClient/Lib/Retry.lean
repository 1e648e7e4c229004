/-!
# Bounded retry loops

A loop `for (int i = 0; i < retry; ++i)` whose body either ends the loop with its result, or fails
in a way the loop retries: with rounds left, the next round runs; after the last, that failure is
thrown. `Retry.loop round dflt n s` runs at most `n` rounds of `round` from `s`; `dflt` is what a
loop that runs no round ends with.

* `loop_inv` — what every round keeps holds after the loop.
* `loop_calls_le`, `loop_exhausted` — with a counter that each round raises by one, the loop runs
  at most `n` rounds, and all `n` when it throws a failure that only a retried round ends with.
* `loop_cases` — the loop's result is that of the last round it ran, from a state every round
  reached: a result the round ended with, or the failure it asked to retry.
-/

namespace Retry

/-- How a round ends: with the loop's result, or with a failure that another round may retry. -/
inductive Round (ε α : Type) where
  | done (r : Except ε α)
  | again (e : ε)

variable {σ ε α : Type} (round : σ → Round ε α × σ) (dflt : Except ε α)

/-- At most `n` rounds from `s`. A failure to retry runs the next round when one is left, and is
the result after the last. -/
def loop : Nat → σ → Except ε α × σ
  | 0, s => (dflt, s)
  | n + 1, s =>
    match round s with
    | (.done r, s') => (r, s')
    | (.again e, s') =>
      match n with
      | 0 => (.error e, s')
      | n + 1 => loop (n + 1) s'

variable {round dflt}

theorem loop_done {s s' : σ} {r : Except ε α} (h : round s = (.done r, s')) (n : Nat) :
    loop round dflt (n + 1) s = (r, s') := by
  rw [loop, h]

theorem loop_again_last {s s' : σ} {e : ε} (h : round s = (.again e, s')) :
    loop round dflt 1 s = (.error e, s') := by
  rw [loop, h]

theorem loop_again {s s' : σ} {e : ε} (h : round s = (.again e, s')) (n : Nat) :
    loop round dflt (n + 2) s = loop round dflt (n + 1) s' := by
  rw [loop, h]

/-! ## Invariants and counts -/

/-- **What every round keeps holds after the loop.** -/
theorem loop_inv (P : σ → Prop) (hround : ∀ s, P s → P (round s).2) :
    ∀ n s, P s → P (loop round dflt n s).2
  | 0, _, hs => hs
  | n + 1, s, hs => by
    have hs' := hround s hs
    rcases hr : round s with ⟨r | e, s'⟩
    all_goals rw [hr] at hs'
    · rw [loop_done hr]
      exact hs'
    · cases n with
      | zero =>
        rw [loop_again_last hr]
        exact hs'
      | succ n =>
        rw [loop_again hr]
        exact loop_inv P hround (n + 1) s' hs'

/-- With a counter that each round raises by one, the loop runs at most `n` rounds. -/
theorem loop_calls_le (calls : σ → Nat) (hround : ∀ s, calls (round s).2 = calls s + 1) :
    ∀ n s, calls (loop round dflt n s).2 ≤ calls s + n
  | 0, _ => Nat.le_refl _
  | n + 1, s => by
    rcases hr : round s with ⟨r | e, s'⟩
    all_goals have hc : calls s' = calls s + 1 := by rw [← hround s, hr]
    · rw [loop_done hr, hc]
      omega
    · cases n with
      | zero =>
        rw [loop_again_last hr]
        exact Nat.le_of_eq hc
      | succ n =>
        have ih := loop_calls_le calls hround (n + 1) s'
        rw [loop_again hr]
        omega

/-- **A loop gives up only after its last round.** When no round ends the loop with a failure
that `Q` holds of, a loop of one round or more that throws such a failure ran all its rounds. -/
theorem loop_exhausted (calls : σ → Nat) (hround : ∀ s, calls (round s).2 = calls s + 1)
    (Q : ε → Prop) (hdone : ∀ s e, (round s).1 = .done (.error e) → ¬ Q e) :
    ∀ n s e, (loop round dflt (n + 1) s).1 = .error e → Q e →
      calls (loop round dflt (n + 1) s).2 = calls s + (n + 1)
  | n, s, e, h, hq => by
    rcases hr : round s with ⟨r | e', s'⟩
    all_goals have hc : calls s' = calls s + 1 := by rw [← hround s, hr]
    · rw [loop_done hr] at h
      subst h
      exact absurd hq (hdone s e (by rw [hr]))
    · cases n with
      | zero => rw [loop_again_last hr, hc]
      | succ n =>
        rw [loop_again hr] at h ⊢
        rw [loop_exhausted calls hround Q hdone n s' e h hq, hc]
        omega

/-- **The loop's result is its last round's.** From a state the invariant `P` holds of, a loop
of one round or more ends with the result of a round run from a state `P` holds of, in the state
that round left: what the round ended with, or the failure it asked to retry. -/
theorem loop_cases (P : σ → Prop) (hround : ∀ s, P s → P (round s).2) :
    ∀ n s, P s → ∃ s₀, P s₀ ∧ (round s₀).2 = (loop round dflt (n + 1) s).2 ∧
      ((round s₀).1 = .done (loop round dflt (n + 1) s).1 ∨
        ∃ e, (round s₀).1 = .again e ∧ (loop round dflt (n + 1) s).1 = .error e)
  | n, s, hs => by
    rcases hr : round s with ⟨r | e, s'⟩
    · rw [loop_done hr]
      exact ⟨s, hs, by rw [hr], .inl (by rw [hr])⟩
    · cases n with
      | zero =>
        rw [loop_again_last hr]
        exact ⟨s, hs, by rw [hr], .inr ⟨e, by rw [hr], rfl⟩⟩
      | succ n =>
        have hs' := hround s hs
        rw [hr] at hs'
        rw [loop_again hr]
        exact loop_cases P hround n s' hs'

end Retry
