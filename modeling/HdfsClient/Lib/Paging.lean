import Mathlib.Order.Basic
import Mathlib.Data.List.Basic
import Mathlib.Order.Lattice

/-!
# Paged listings

A server holds entries whose keys increase strictly, and answers a request "what comes after
`c`" with a page: a non-empty front part of the entries after `c` when there are any, and whether
more follow it (`Serves`). A client asks again after the key of the last entry of each page.

* `after_key_getLast` — the entries after the last key of a page are those after the page.
* `Serves.ne_nil_iff` — a page is non-empty exactly when something follows the cursor, and a page
  that says more follow is non-empty.
-/

namespace Paging

variable {α κ : Type*} [LinearOrder κ] (key : α → κ)

/-- The entries whose key is past `c`. -/
def after (es : List α) (c : κ) : List α := es.filter fun e => c < key e

/-- Keys increase strictly along the list. -/
def Sorted (es : List α) : Prop := es.Pairwise fun a b => key a < key b

/-- A correct answer to "what comes after `c`": a front part of the entries after `c`, not empty
when there are any, and whether more follow it. -/
structure Serves (es : List α) (c : κ) (page : List α) (more : Bool) : Prop where
  take_eq : ∃ n, page = (after key es c).take n
  ne_nil : after key es c ≠ [] → page ≠ []
  more_iff : more = true ↔ page.length < (after key es c).length

variable {key}

theorem after_after {es : List α} {c d : κ} (h : c ≤ d) :
    after key (after key es c) d = after key es d := by
  simp only [after, List.filter_filter]
  congr 1
  funext e
  by_cases hd : d < key e
  · simp [hd, lt_of_le_of_lt h hd]
  · simp [hd]

theorem Sorted.after {es : List α} (h : Sorted key es) (c : κ) : Sorted key (after key es c) :=
  List.Pairwise.filter _ h

theorem mem_after {es : List α} {c : κ} {e : α} : e ∈ after key es c ↔ e ∈ es ∧ c < key e := by
  simp [after]

/-- In a sorted list, what follows the key of the `i`-th entry is what follows the entry. -/
theorem Sorted.filter_key_gt {l : List α} (h : Sorted key l) (i : Nat) (hi : i < l.length) :
    l.filter (fun x => decide (key (l.get ⟨i, hi⟩) < key x)) = l.drop (i + 1) := by
  induction l generalizing i with
  | nil => simp at hi
  | cons a l ih =>
    have hl : Sorted key l := (List.pairwise_cons.mp h).2
    have ha : ∀ x ∈ l, key a < key x := (List.pairwise_cons.mp h).1
    cases i with
    | zero =>
      -- everything after the head has a larger key
      simp only [List.get_eq_getElem, List.getElem_cons_zero, List.drop_succ_cons, List.drop_zero,
        List.filter_cons, lt_irrefl, decide_false, Bool.false_eq_true, if_false]
      exact List.filter_eq_self.mpr fun x hx => by simpa using ha x hx
    | succ i =>
      have hi' : i < l.length := by simpa using hi
      have hgt : ¬ key (l.get ⟨i, hi'⟩) < key a :=
        not_lt.mpr (le_of_lt (ha _ (List.get_mem l ⟨i, hi'⟩)))
      have hget : (a :: l).get ⟨i + 1, hi⟩ = l.get ⟨i, hi'⟩ := rfl
      rw [hget, List.filter_cons, if_neg (by simpa using hgt), ih hl i hi', List.drop_succ_cons]

/-- In a sorted list, what follows the last entry of a front part is the rest of the list. -/
theorem Sorted.filter_getLast_take {l : List α} (h : Sorted key l) {n : Nat} (hne : l.take n ≠ []) :
    l.filter (fun x => decide (key ((l.take n).getLast hne) < key x)) =
      l.drop (l.take n).length := by
  have hlen : 0 < (l.take n).length := List.length_pos_iff.mpr hne
  have hle : (l.take n).length ≤ l.length := List.length_take_le' n l
  have hi : (l.take n).length - 1 < l.length := by omega
  have hlast : (l.take n).getLast hne = l.get ⟨(l.take n).length - 1, hi⟩ := by
    rw [List.getLast_eq_getElem, List.get_eq_getElem, List.getElem_take]
  rw [hlast, h.filter_key_gt _ hi]
  congr 1
  omega

/-- **The next cursor.** After a front part of the entries past `c`, the entries past the key of
its last entry are the rest. -/
theorem after_key_getLast {es : List α} (hs : Sorted key es) {c : κ} {n : Nat}
    (hne : (after key es c).take n ≠ []) :
    after key es (key (((after key es c).take n).getLast hne)) =
      (after key es c).drop ((after key es c).take n).length := by
  have hmem : ((after key es c).take n).getLast hne ∈ after key es c :=
    List.mem_of_mem_take (List.getLast_mem hne)
  rw [← after_after (le_of_lt (mem_after.mp hmem).2)]
  exact (hs.after c).filter_getLast_take hne

theorem Serves.ne_nil_iff {es : List α} {c : κ} {page : List α} {more : Bool}
    (h : Serves key es c page more) : page ≠ [] ↔ after key es c ≠ [] := by
  refine ⟨fun hp hl => ?_, h.ne_nil⟩
  obtain ⟨n, rfl⟩ := h.take_eq
  exact hp (by simp [hl])

theorem Serves.ne_nil_of_more {es : List α} {c : κ} {page : List α}
    (h : Serves key es c page true) : page ≠ [] := by
  have hlt := h.more_iff.mp rfl
  refine h.ne_nil fun hl => ?_
  simp [hl] at hlt

/-- What a client holds after a correct answer: the page, then what follows its last key, is
all that followed the cursor. -/
theorem Serves.page_append_after {es : List α} (hs : Sorted key es) {c : κ} {page : List α}
    {more : Bool} (h : Serves key es c page more) (hne : page ≠ []) :
    page ++ after key es (key (page.getLast hne)) = after key es c := by
  obtain ⟨n, rfl⟩ := h.take_eq
  rw [after_key_getLast hs hne]
  by_cases hn : n ≤ (after key es c).length
  · rw [List.length_take_of_le hn, List.take_append_drop]
  · have hge : (after key es c).length ≤ n := by omega
    rw [List.take_of_length_le hge, List.drop_length, List.append_nil]

/-- A page that says nothing more follows holds everything after the cursor. -/
theorem Serves.eq_after_of_false {es : List α} {c : κ} {page : List α}
    (h : Serves key es c page false) : page = after key es c := by
  obtain ⟨n, rfl⟩ := h.take_eq
  have hnot : ¬ ((after key es c).take n).length < (after key es c).length := fun hlt =>
    absurd (h.more_iff.mpr hlt) Bool.false_ne_true
  have hle : (after key es c).length ≤ n := by
    rw [List.length_take] at hnot
    omega
  exact List.take_of_length_le hle

/-- A server that answers with the next `k` entries, and says whether more follow them, serves. -/
theorem serves_take (es : List α) (c : κ) {k : Nat} (hk : 0 < k) :
    Serves key es c ((after key es c).take k) (decide (k < (after key es c).length)) where
  take_eq := ⟨k, rfl⟩
  ne_nil hne := by
    obtain ⟨e, l, hl⟩ := List.exists_cons_of_ne_nil hne
    obtain ⟨k, rfl⟩ := Nat.exists_eq_add_one_of_ne_zero (Nat.pos_iff_ne_zero.mp hk)
    simp [hl]
  more_iff := by
    rw [decide_eq_true_iff, List.length_take]
    omega

/-! ## Entries under another name -/

section Map

variable {β : Type*} {key' : β → κ} {f : β → α} {ns : List β}

theorem after_map (hf : ∀ n ∈ ns, key (f n) = key' n) (c : κ) :
    after key (ns.map f) c = (after key' ns c).map f := by
  simp only [after, List.filter_map]
  congr 1
  apply List.filter_congr
  intro n hn
  simp [hf n hn]

theorem Sorted.map (hs : Sorted key' ns) (hf : ∀ n ∈ ns, key (f n) = key' n) :
    Sorted key (ns.map f) := by
  unfold Sorted at hs ⊢
  rw [List.pairwise_map]
  exact hs.imp_of_mem fun ha hb hlt => by rw [hf _ ha, hf _ hb]; exact hlt

/-- A correct answer stays correct when every entry is shown under a name with the same key. -/
theorem Serves.map {c : κ} {page : List β} {more : Bool} (h : Serves key' ns c page more)
    (hf : ∀ n ∈ ns, key (f n) = key' n) : Serves key (ns.map f) c (page.map f) more := by
  have hafter := after_map hf c
  refine ⟨?_, ?_, ?_⟩
  · obtain ⟨n, rfl⟩ := h.take_eq
    exact ⟨n, by rw [hafter, List.map_take]⟩
  · intro hne
    rw [hafter] at hne
    simpa using h.ne_nil (by simpa using hne)
  · rw [hafter, List.length_map, List.length_map]
    exact h.more_iff

end Map

end Paging
