import Mathlib.Data.List.Basic
import Mathlib.Algebra.GroupWithZero.Nat

/-!
# Runs of a partial step function

A machine with states `σ` and events `ε` takes a step `step s e : Option σ`, where `none` says that
the event cannot happen in `s`. `run` takes a list of events in turn and fails as soon as one
cannot happen.

* `run_inv_of` — an invariant kept by the steps of the events a predicate allows holds after
  every run of such events.
* `run_inv` — the same for an invariant kept by every step.
* `run_rel` — a preorder that every step from an invariant state moves along relates the start
  and the end of every run.
* `run_cost_le`, `run_countP_le` — when every step pays for its cost out of a potential, a run
  costs at most the potential it starts with; so a run takes at most that many events of a kind
  whose steps each lower the potential.
* `Outcome` — for a computation that fails with an error: a state of one property or an error of
  another; `Outcome.map` carries it through a computation that follows.

Every prefix of a run is itself a run, so a statement over all runs holds after each step.
-/

namespace Machine

variable {σ ε : Type*} (step : σ → ε → Option σ)

/-- Take the events in turn, from `s`. -/
def run (s : σ) : List ε → Option σ
  | [] => some s
  | e :: es => (step s e).bind fun s' => run s' es

@[simp] theorem run_nil (s : σ) : run step s [] = some s := rfl

@[simp] theorem run_cons (s : σ) (e : ε) (es : List ε) :
    run step s (e :: es) = (step s e).bind fun s' => run step s' es := rfl

/-- A run of `es ++ fs` is a run of `es`, then one of `fs`. -/
theorem run_append (s : σ) (es fs : List ε) :
    run step s (es ++ fs) = (run step s es).bind fun s' => run step s' fs := by
  induction es generalizing s with
  | nil => rfl
  | cons e es ih =>
    simp only [List.cons_append, run_cons, ih]
    cases step s e <;> rfl

variable {step}

/-- **Invariant rule.** A property kept by the steps of the events `allowed` admits holds after
every run of such events. -/
theorem run_inv_of (P : σ → Prop) (allowed : ε → Prop)
    (hstep : ∀ s e s', P s → allowed e → step s e = some s' → P s') :
    ∀ {s s' : σ} {es : List ε}, P s → (∀ e ∈ es, allowed e) → run step s es = some s' → P s'
  | s, s', [], hs, _, h => by
    simp only [run_nil, Option.some.injEq] at h
    exact h ▸ hs
  | s, s', e :: es, hs, hes, h => by
    simp only [run_cons, Option.bind_eq_some_iff] at h
    obtain ⟨s₁, h₁, hrest⟩ := h
    have hs₁ : P s₁ := hstep s e s₁ hs (hes e List.mem_cons_self) h₁
    exact run_inv_of P allowed hstep hs₁ (fun e' he' => hes e' (List.mem_cons_of_mem e he')) hrest

/-- An invariant kept by every step holds after every run. -/
theorem run_inv (P : σ → Prop) (hstep : ∀ s e s', P s → step s e = some s' → P s')
    {s s' : σ} {es : List ε} (hs : P s) (h : run step s es = some s') : P s' :=
  run_inv_of P (fun _ => True) (fun s e s' hs _ h => hstep s e s' hs h) hs (fun _ _ => trivial) h

/-- **Relation rule.** If every step from a state of the invariant `P` moves along the preorder
`R`, the end of a run from such a state is `R`-related to its start. -/
theorem run_rel (P : σ → Prop) (R : σ → σ → Prop) (hrefl : ∀ s, R s s)
    (htrans : ∀ a b c, R a b → R b c → R a c)
    (hinv : ∀ s e s', P s → step s e = some s' → P s')
    (hstep : ∀ s e s', P s → step s e = some s' → R s s') :
    ∀ {s s' : σ} {es : List ε}, P s → run step s es = some s' → R s s'
  | s, s', [], _, h => by
    simp only [run_nil, Option.some.injEq] at h
    exact h ▸ hrefl s
  | s, s', e :: es, hs, h => by
    simp only [run_cons, Option.bind_eq_some_iff] at h
    obtain ⟨s₁, h₁, hrest⟩ := h
    exact htrans s s₁ s' (hstep s e s₁ hs h₁)
      (run_rel P R hrefl htrans hinv hstep (hinv s e s₁ hs h₁) hrest)

/-- **Potential rule.** If every allowed step from an invariant state pays for its cost out of the
potential `V`, a run of allowed events from such a state costs at most the potential it starts
with, less the one it ends with. -/
theorem run_cost_le (P : σ → Prop) (allowed : ε → Prop) (V : σ → Nat) (cost : ε → Nat)
    (hinv : ∀ s e s', P s → allowed e → step s e = some s' → P s')
    (hstep : ∀ s e s', P s → allowed e → step s e = some s' → cost e + V s' ≤ V s) :
    ∀ {s s' : σ} {es : List ε}, P s → (∀ e ∈ es, allowed e) → run step s es = some s' →
      (es.map cost).sum + V s' ≤ V s
  | s, s', [], _, _, h => by
    simp only [run_nil, Option.some.injEq] at h
    simp [h]
  | s, s', e :: es, hs, hes, h => by
    simp only [run_cons, Option.bind_eq_some_iff] at h
    obtain ⟨s₁, h₁, hrest⟩ := h
    have he : allowed e := hes e List.mem_cons_self
    have hfirst := hstep s e s₁ hs he h₁
    have hrun := run_cost_le P allowed V cost hinv hstep (hinv s e s₁ hs he h₁)
      (fun e' he' => hes e' (List.mem_cons_of_mem e he')) hrest
    simp only [List.map_cons, List.sum_cons]
    omega

theorem sum_map_ite_eq_countP (counted : ε → Bool) (es : List ε) :
    (es.map fun e => if counted e then 1 else 0).sum = es.countP counted := by
  induction es with
  | nil => rfl
  | cons e es ih =>
    cases hc : counted e
    · simp [hc, ih]
    · simp [hc, ih, Nat.add_comm]

/-- A run of allowed events takes at most `V s` events that `counted` picks out, when each such
step lowers the potential `V` and no other raises it. -/
theorem run_countP_le (P : σ → Prop) (allowed : ε → Prop) (V : σ → Nat) (counted : ε → Bool)
    (hinv : ∀ s e s', P s → allowed e → step s e = some s' → P s')
    (hstep : ∀ s e s', P s → allowed e → step s e = some s' →
      (if counted e then 1 else 0) + V s' ≤ V s)
    {s s' : σ} {es : List ε} (hs : P s) (hes : ∀ e ∈ es, allowed e)
    (h : run step s es = some s') : es.countP counted ≤ V s := by
  have hcost := run_cost_le P allowed V (fun e => if counted e then 1 else 0) hinv hstep hs hes h
  rw [sum_map_ite_eq_countP] at hcost
  omega

/-! ## Steps that fail with an error -/

section Outcome

variable {δ τ : Type*}

/-- The outcome of a computation that may fail: a state of `P`, or an error of `Q`. -/
def Outcome (P : σ → Prop) (Q : δ → Prop) : Except δ σ → Prop
  | .ok s => P s
  | .error e => Q e

variable {P : σ → Prop} {P' : τ → Prop} {Q : δ → Prop}

@[simp] theorem outcome_ok (s : σ) : Outcome P Q (.ok s) ↔ P s := Iff.rfl

@[simp] theorem outcome_error (e : δ) : Outcome P Q (.error e : Except δ σ) ↔ Q e := Iff.rfl

theorem Outcome.map {r : Except δ σ} (h : Outcome P Q r) {f : σ → τ} (hf : ∀ s, P s → P' (f s)) :
    Outcome P' Q (r.map f) := by
  cases r with
  | error e => exact h
  | ok s => exact hf s h

end Outcome

end Machine
