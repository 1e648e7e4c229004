import Mathlib.Data.List.Basic

/-!
# Pops cancelled against pushes

A word acts on a stack letter by letter: a letter is dropped, pops the top, or is pushed. Read left
to right on a stack (`stack`), a pop of the empty stack does nothing. Read right to left with the
count of pops still pending (`scanRight`), a letter to push is dropped while a pop is pending, and
uses that pop up. Both keep the same letters: each pop cancels the nearest push before it that no
pop after it has cancelled.

* `stack_eq` — from any stack, the word pops `(scanRight w).1` letters off it and pushes the
  letters `(scanRight w).2`.
* `resolve_eq_scanRight` — from the empty stack, both readings keep the same letters.
* `resolve_filter` — leaving out letters that are dropped anyway changes nothing.
* `resolve_of_forall_push` — a word of letters to push is kept whole.
* `mem_resolve` — what is kept is a letter of the word, to push.
-/

namespace Resolve

/-- What a letter does to the stack. -/
inductive Kind
  | drop
  | pop
  | push
  deriving DecidableEq, Repr

variable {α : Type*} (kind : α → Kind)

/-- The word read left to right on the stack `st`, its top first. -/
def stack : List α → List α → List α
  | st, [] => st
  | st, a :: w =>
    match kind a with
    | .drop => stack st w
    | .pop => stack st.tail w
    | .push => stack (a :: st) w

/-- The letters the word keeps, in order. -/
def resolve (w : List α) : List α := (stack kind [] w).reverse

/-- A letter read from the right, before the pops still pending after it and the letters kept after
it. -/
def stepRight (a : α) (acc : Nat × List α) : Nat × List α :=
  match kind a with
  | .drop => acc
  | .pop => (acc.1 + 1, acc.2)
  | .push => if acc.1 = 0 then (0, a :: acc.2) else (acc.1 - 1, acc.2)

/-- The word read right to left: the pops left pending, and the letters kept. -/
def scanRight (w : List α) : Nat × List α := w.foldr (stepRight kind) (0, [])

variable {kind}

theorem scanRight_cons (a : α) (w : List α) :
    scanRight kind (a :: w) = stepRight kind a (scanRight kind w) := rfl

/-- **The two readings.** The word pops the letters the right-to-left reading leaves pending off
the stack, and pushes the letters it keeps. -/
theorem stack_eq (st w : List α) :
    stack kind st w = (scanRight kind w).2.reverse ++ st.drop (scanRight kind w).1 := by
  induction w generalizing st with
  | nil => simp [stack, scanRight]
  | cons a w ih =>
    rw [scanRight_cons]
    rcases hs : scanRight kind w with ⟨k, t⟩
    rw [hs] at ih
    cases h : kind a with
    | drop => simp [stack, stepRight, h, ih]
    | pop => simp [stack, stepRight, h, ih, List.drop_tail]
    | push =>
      -- a pending pop takes the letter off again; with none pending it stays under the rest
      cases k with
      | zero => simp [stack, stepRight, h, ih]
      | succ k => simp [stack, stepRight, h, ih]

theorem resolve_eq_scanRight (w : List α) : resolve kind w = (scanRight kind w).2 := by
  simp [resolve, stack_eq]

/-- Leaving out letters that are dropped anyway does not change the stack. -/
theorem stack_filter {w : List α} (p : α → Bool) (hp : ∀ a ∈ w, p a = false → kind a = .drop) (st : List α) :
    stack kind st (w.filter p) = stack kind st w := by
  induction w generalizing st with
  | nil => rfl
  | cons a w ih =>
    have ih' := ih fun b hb => hp b (List.mem_cons_of_mem a hb)
    cases hpa : p a with
    | false => simp [hpa, stack, hp a List.mem_cons_self hpa, ih']
    | true => cases h : kind a <;> simp [hpa, stack, h, ih']

theorem resolve_filter {w : List α} (p : α → Bool) (hp : ∀ a ∈ w, p a = false → kind a = .drop) :
    resolve kind (w.filter p) = resolve kind w := by
  rw [resolve, resolve, stack_filter p hp]

theorem stack_of_forall_push {w : List α} (h : ∀ a ∈ w, kind a = .push) (st : List α) :
    stack kind st w = w.reverse ++ st := by
  induction w generalizing st with
  | nil => rfl
  | cons a w ih =>
    simp [stack, h a List.mem_cons_self, ih fun b hb => h b (List.mem_cons_of_mem a hb)]

theorem resolve_of_forall_push {w : List α} (h : ∀ a ∈ w, kind a = .push) : resolve kind w = w := by
  simp [resolve, stack_of_forall_push h]

/-- A letter on the stack was on it before, or is a letter of the word to push. -/
theorem mem_stack {st w : List α} {a : α} (ha : a ∈ stack kind st w) :
    a ∈ st ∨ (a ∈ w ∧ kind a = .push) := by
  induction w generalizing st with
  | nil => exact .inl ha
  | cons b w ih =>
    cases h : kind b with
    | drop =>
      rw [stack, h] at ha
      exact (ih ha).imp_right fun ⟨hw, hk⟩ => ⟨List.mem_cons_of_mem b hw, hk⟩
    | pop =>
      rw [stack, h] at ha
      exact (ih ha).imp (fun hst => List.mem_of_mem_tail hst)
        fun ⟨hw, hk⟩ => ⟨List.mem_cons_of_mem b hw, hk⟩
    | push =>
      rw [stack, h] at ha
      rcases ih ha with hst | ⟨hw, hk⟩
      · rcases List.mem_cons.mp hst with rfl | hst
        · exact .inr ⟨List.mem_cons_self, h⟩
        · exact .inl hst
      · exact .inr ⟨List.mem_cons_of_mem b hw, hk⟩

theorem mem_resolve {w : List α} {a : α} (ha : a ∈ resolve kind w) : a ∈ w ∧ kind a = .push := by
  rw [resolve, List.mem_reverse] at ha
  simpa using mem_stack ha

end Resolve
