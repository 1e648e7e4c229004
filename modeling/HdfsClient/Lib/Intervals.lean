import Mathlib.Data.List.Chain
import Mathlib.Order.Lattice

/-!
# Contiguous intervals, and the lower bound of a position

Intervals given by a start and a length tile a range when each one starts where the one before it
ends (`Contiguous`); they are in increasing order when each one starts after the one before it, and
not before that one ends (`Increasing`), which leaves gaps and empty intervals possible.
`lowerBound` is `std::lower_bound` over keys: the index of the first element whose key is at or
after a position, and `binarySearch` is `std::binary_search`. In increasing intervals, those before the one that holds a position all start
before it, and those after it all start after it, so that the lower bound lands on it or just after
it.

* `Increasing.pairwise`, `Contiguous.increasing` — increasing intervals are sorted, and a tiling of
  nonempty intervals is increasing.
* `Increasing.split` — the intervals around one of them.
* `lowerBound_append_cons`, `lowerBound_of_forall_not_le` — where the lower bound lands.
* `binarySearch_iff` — `std::binary_search` on a list sorted by its keys finds exactly the keys
  it holds.
-/

namespace Intervals

variable {α : Type*} (start len : α → Nat)

/-- Each interval starts where the one before it ends. -/
def Contiguous (xs : List α) : Prop :=
  xs.IsChain fun a b => start a + len a = start b

/-- Each interval starts after the one before it, and not before that one ends. -/
def Increasing (xs : List α) : Prop :=
  xs.IsChain fun a b => start a < start b ∧ start a + len a ≤ start b

/-- `std::lower_bound` over the keys: the index of the first element whose key is at `p` or after
it, or the length of the list. -/
def lowerBound {β : Type*} [LE β] [DecidableLE β] (key : α → β) (xs : List α) (p : β) : Nat :=
  xs.findIdx fun a => decide (p ≤ key a)

/-- `std::binary_search` over the keys: whether the element at the lower bound of `p` has a key
not after `p`. -/
def binarySearch {β : Type*} [LT β] [LE β] [DecidableLT β] [DecidableLE β] (key : α → β)
    (xs : List α) (p : β) : Bool :=
  match xs.drop (lowerBound key xs p) with
  | [] => false
  | a :: _ => !decide (p < key a)

variable {start len}

/-- **Increasing intervals are sorted.** Each one starts before the later ones, and ends before
they start. -/
theorem Increasing.pairwise : ∀ {xs : List α}, Increasing start len xs →
    xs.Pairwise fun a b => start a < start b ∧ start a + len a ≤ start b
  | [], _ => List.Pairwise.nil
  | [a], _ => List.pairwise_singleton _ a
  | a :: b :: xs, h => by
    rw [Increasing, List.isChain_cons_cons] at h
    obtain ⟨hab, hrest⟩ := h
    have ih := Increasing.pairwise hrest
    refine List.Pairwise.cons (fun c hc => ?_) ih
    -- `c` is `b`, or comes after `b`
    rcases List.mem_cons.mp hc with rfl | hc
    · exact hab
    · have hbc := List.rel_of_pairwise_cons ih hc
      have hb : len b + start b ≥ start b := Nat.le_add_left _ _
      omega

/-- A tiling of nonempty intervals is increasing. -/
theorem Contiguous.increasing {xs : List α} (h : Contiguous start len xs)
    (hpos : ∀ a ∈ xs, 0 < len a) : Increasing start len xs :=
  h.imp_of_mem_imp fun a _ ha _ hab => ⟨by have := hpos a ha; omega, Nat.le_of_eq hab⟩

/-- **A tiling is sorted.** With nonempty intervals, each one ends before the later ones start. -/
theorem Contiguous.pairwise {xs : List α} (h : Contiguous start len xs)
    (hpos : ∀ a ∈ xs, 0 < len a) : xs.Pairwise fun a b => start a + len a ≤ start b :=
  (h.increasing hpos).pairwise.imp And.right

/-- **Around an interval.** The increasing intervals before `x` start before it and end before it
starts, and those after it start after it ends. -/
theorem Increasing.split {xs : List α} (h : Increasing start len xs) {x : α} (hx : x ∈ xs) :
    ∃ pre post, xs = pre ++ x :: post ∧ (∀ a ∈ pre, start a < start x ∧ start a + len a ≤ start x) ∧
      ∀ c ∈ post, start x < start c ∧ start x + len x ≤ start c := by
  obtain ⟨pre, post, rfl⟩ := List.append_of_mem hx
  have hp := h.pairwise
  rw [List.pairwise_append, List.pairwise_cons] at hp
  exact ⟨pre, post, rfl, fun a ha => hp.2.2 a ha x List.mem_cons_self, hp.2.1.1⟩

section LowerBound

variable {β : Type*} [LE β] [DecidableLE β] {key : α → β}

/-- The lower bound lands on the first element whose key is at `p` or after it. -/
theorem lowerBound_append_cons {pre post : List α} {x : α} {p : β}
    (hpre : ∀ a ∈ pre, ¬ p ≤ key a) (hx : p ≤ key x) :
    lowerBound key (pre ++ x :: post) p = pre.length := by
  have hfront : pre.findIdx (fun a => decide (p ≤ key a)) = pre.length :=
    List.findIdx_eq_length.mpr fun a ha => by simp [hpre a ha]
  rw [lowerBound, List.findIdx_append, hfront, if_neg (Nat.lt_irrefl _), List.findIdx_cons]
  simp [hx]

/-- With every key before `p`, the lower bound is past the end. -/
theorem lowerBound_of_forall_not_le {xs : List α} {p : β} (h : ∀ a ∈ xs, ¬ p ≤ key a) :
    lowerBound key xs p = xs.length :=
  List.findIdx_eq_length.mpr fun a ha => by simp [h a ha]

/-- **`binary_search` finds a key.** On a list sorted by its keys, `binarySearch` tells whether
some element has the key `p`. -/
theorem binarySearch_iff {β : Type*} [LinearOrder β] {key : α → β} :
    ∀ {xs : List α}, xs.Pairwise (fun a b => key a ≤ key b) → ∀ p : β,
      binarySearch key xs p = true ↔ ∃ a ∈ xs, key a = p
  | [], _, p => by simp [binarySearch]
  | a :: xs, h, p => by
    rw [List.pairwise_cons] at h
    by_cases hp : p ≤ key a
    · -- the lower bound is the head, and a later key equal to `p` would make the head's `p` too
      have hlb : lowerBound key (a :: xs) p = 0 := by simp [lowerBound, List.findIdx_cons, hp]
      rw [binarySearch, hlb, List.drop_zero]
      simp only [Bool.not_eq_eq_eq_not, Bool.not_true, decide_eq_false_iff_not, not_lt,
        List.mem_cons, exists_eq_or_imp]
      constructor
      · intro hle
        exact .inl (le_antisymm hle hp)
      · rintro (heq | ⟨b, hb, rfl⟩)
        · exact heq.le
        · exact h.1 b hb
    · -- the head is before `p`: the lower bound is one further on the rest
      have hlb : lowerBound key (a :: xs) p = lowerBound key xs p + 1 := by
        simp [lowerBound, List.findIdx_cons, hp]
      have hne : key a ≠ p := fun he => hp he.ge
      rw [binarySearch, hlb, List.drop_succ_cons, ← binarySearch, binarySearch_iff h.2 p]
      simp [hne]

end LowerBound

end Intervals
