import Mathlib.Data.List.Basic

/-!
# An abstract LRU cache

The cache is a list of `(key, value)` entries, most recently used first, with a bound on its
length. `insert` puts an entry in front, replacing any entry of its key, and drops the oldest
entry when the list grows past the bound; `find` moves the entry it returns to the front;
`findAndErase` and `erase` remove; `setMaxSize` keeps the most recent entries.

`WF` says the keys are distinct and the bound holds; every operation keeps it
(`WF.insert`, `WF.find`, …), and `run_wf` lifts that to every sequence of operations.
-/

namespace Lru

variable {K V : Type*} [DecidableEq K]

/-- Entries, most recently used first, and the bound on their number. -/
structure Cache (K V : Type*) where
  entries : List (K × V)
  maxSize : Nat
  deriving DecidableEq, Repr

/-- The operations of the cache. -/
inductive Op (K V : Type*)
  | insert (k : K) (v : V)
  | erase (k : K)
  | find (k : K)
  | findAndErase (k : K)
  | setMaxSize (s : Nat)
  | size
  deriving DecidableEq, Repr

/-- What an operation answers: nothing, a lookup, or a count. -/
inductive Reply (V : Type*)
  | done
  | found (v : Option V)
  | count (n : Nat)
  deriving DecidableEq, Repr

/-- The entries whose key is not `k`. -/
def removeKey (k : K) (l : List (K × V)) : List (K × V) := l.filter fun e => e.1 ≠ k

namespace Cache

def empty (maxSize : Nat) : Cache K V := ⟨[], maxSize⟩

def insert (c : Cache K V) (k : K) (v : V) : Cache K V :=
  let l := (k, v) :: removeKey k c.entries
  ⟨if c.maxSize < l.length then l.dropLast else l, c.maxSize⟩

def find (c : Cache K V) (k : K) : Option V × Cache K V :=
  match c.entries.lookup k with
  | some v => (some v, ⟨(k, v) :: removeKey k c.entries, c.maxSize⟩)
  | none => (none, c)

def findAndErase (c : Cache K V) (k : K) : Option V × Cache K V :=
  (c.entries.lookup k, ⟨removeKey k c.entries, c.maxSize⟩)

def erase (c : Cache K V) (k : K) : Cache K V := ⟨removeKey k c.entries, c.maxSize⟩

def setMaxSize (c : Cache K V) (s : Nat) : Cache K V := ⟨c.entries.take s, s⟩

def size (c : Cache K V) : Nat := c.entries.length

/-- One operation. -/
def apply (c : Cache K V) : Op K V → Cache K V × Reply V
  | .insert k v => (c.insert k v, .done)
  | .erase k => (c.erase k, .done)
  | .find k => ((c.find k).2, .found (c.find k).1)
  | .findAndErase k => ((c.findAndErase k).2, .found (c.findAndErase k).1)
  | .setMaxSize s => (c.setMaxSize s, .done)
  | .size => (c, .count c.size)

/-- A sequence of operations, with the replies in order. -/
def run (c : Cache K V) : List (Op K V) → Cache K V × List (Reply V)
  | [] => (c, [])
  | op :: ops =>
    let r := c.apply op
    let rest := r.1.run ops
    (rest.1, r.2 :: rest.2)

/-- Distinct keys, and no more entries than the bound. -/
structure WF (c : Cache K V) : Prop where
  nodup : (c.entries.map Prod.fst).Nodup
  bounded : c.entries.length ≤ c.maxSize

end Cache

/-! ## Removing a key -/

theorem mem_removeKey {k : K} {l : List (K × V)} {e : K × V} :
    e ∈ removeKey k l ↔ e ∈ l ∧ e.1 ≠ k := by
  simp [removeKey]

theorem keys_removeKey_nodup {k : K} {l : List (K × V)} (h : (l.map Prod.fst).Nodup) :
    ((removeKey k l).map Prod.fst).Nodup :=
  h.sublist (List.Sublist.map _ List.filter_sublist)

theorem not_mem_keys_removeKey (k : K) (l : List (K × V)) : k ∉ (removeKey k l).map Prod.fst := by
  intro hk
  obtain ⟨e, he, rfl⟩ := List.mem_map.mp hk
  exact (mem_removeKey.mp he).2 rfl

theorem length_removeKey_le (k : K) (l : List (K × V)) : (removeKey k l).length ≤ l.length :=
  List.length_filter_le _ _

@[simp] theorem removeKey_cons_self (k : K) (v : V) (l : List (K × V)) :
    removeKey k ((k, v) :: l) = removeKey k l := by
  simp [removeKey]

@[simp] theorem removeKey_cons_of_ne {k k' : K} (v : V) (l : List (K × V)) (h : k' ≠ k) :
    removeKey k ((k', v) :: l) = (k', v) :: removeKey k l := by
  simp [removeKey, h]

theorem lookup_cons_of_ne {k k' : K} (v : V) (l : List (K × V)) (h : k ≠ k') :
    ((k', v) :: l).lookup k = l.lookup k := by
  have hne : (k == k') = false := by simpa using h
  rw [List.lookup_cons, hne]

/-- With distinct keys, `lookup` finds exactly the entries of the list. -/
theorem lookup_eq_some_iff_mem {l : List (K × V)} (h : (l.map Prod.fst).Nodup) (k : K) (v : V) :
    l.lookup k = some v ↔ (k, v) ∈ l := by
  induction l with
  | nil => simp
  | cons e l ih =>
    obtain ⟨k', v'⟩ := e
    rw [List.map_cons, List.nodup_cons] at h
    by_cases hk : k = k'
    · subst hk
      have h1 : k ∉ l.map Prod.fst := h.1
      have hnot : ∀ w, (k, w) ∉ l := fun w hw => h1 (List.mem_map_of_mem (f := Prod.fst) hw)
      simp only [List.lookup_cons_self, Option.some.injEq, List.mem_cons, Prod.mk.injEq,
        true_and, hnot, or_false]
      exact eq_comm
    · rw [lookup_cons_of_ne v' l hk, ih h.2]
      simp [hk]

theorem mem_of_lookup {l : List (K × V)} {k : K} {v : V} (h : l.lookup k = some v) :
    (k, v) ∈ l := by
  obtain ⟨l₁, l₂, rfl, -⟩ := List.lookup_eq_some_iff.mp h
  exact List.mem_append_right _ List.mem_cons_self

theorem removeKey_of_lookup_none {k : K} {l : List (K × V)} (h : l.lookup k = none) :
    removeKey k l = l := by
  apply List.filter_eq_self.mpr
  intro e he
  have hne : k ≠ e.1 := by simpa using List.lookup_eq_none_iff.mp h e he
  simpa using Ne.symm hne

/-- With distinct keys, removing a present key shortens the list by one. -/
theorem length_removeKey_of_lookup {k : K} {v : V} {l : List (K × V)}
    (h : (l.map Prod.fst).Nodup) (hl : l.lookup k = some v) :
    (removeKey k l).length + 1 = l.length := by
  induction l with
  | nil => simp at hl
  | cons e l ih =>
    obtain ⟨k', v'⟩ := e
    rw [List.map_cons, List.nodup_cons] at h
    by_cases hk : k' = k
    · subst hk
      -- the head is the only entry of its key
      have h1 : k' ∉ l.map Prod.fst := h.1
      have hself : removeKey k' l = l := List.filter_eq_self.mpr fun e he => by
        have : e.1 ≠ k' := fun hek => h1 (hek ▸ List.mem_map_of_mem he)
        simpa using this
      rw [removeKey_cons_self, hself, List.length_cons]
    · rw [lookup_cons_of_ne v' l (Ne.symm hk)] at hl
      rw [removeKey_cons_of_ne v' l hk, List.length_cons, List.length_cons, ← ih h.2 hl]

/-! ## Every operation keeps the cache well formed -/

namespace Cache

theorem WF.insert {c : Cache K V} (h : c.WF) (k : K) (v : V) : (c.insert k v).WF := by
  have hnd : (((k, v) :: removeKey k c.entries).map Prod.fst).Nodup := by
    rw [List.map_cons, List.nodup_cons]
    exact ⟨not_mem_keys_removeKey k _, keys_removeKey_nodup h.nodup⟩
  have hlen := length_removeKey_le k c.entries
  constructor
  · simp only [Cache.insert]
    split_ifs
    · rw [List.map_dropLast]
      exact hnd.sublist (List.dropLast_sublist _)
    · exact hnd
  · simp only [Cache.insert]
    split_ifs with hgt
    · simp only [List.length_dropLast, List.length_cons] at hgt ⊢
      have := h.bounded
      omega
    · simpa using Nat.le_of_not_lt hgt

theorem WF.erase {c : Cache K V} (h : c.WF) (k : K) : (c.erase k).WF :=
  ⟨keys_removeKey_nodup h.nodup, Nat.le_trans (length_removeKey_le k _) h.bounded⟩

theorem WF.findAndErase {c : Cache K V} (h : c.WF) (k : K) : (c.findAndErase k).2.WF :=
  h.erase k

theorem WF.find {c : Cache K V} (h : c.WF) (k : K) : (c.find k).2.WF := by
  unfold Cache.find
  split
  · next v hv =>
    constructor
    · rw [List.map_cons, List.nodup_cons]
      exact ⟨not_mem_keys_removeKey k _, keys_removeKey_nodup h.nodup⟩
    · have := length_removeKey_of_lookup h.nodup hv
      have := h.bounded
      simp only [List.length_cons]
      omega
  · exact h

omit [DecidableEq K] in
theorem WF.setMaxSize {c : Cache K V} (h : c.WF) (s : Nat) : (c.setMaxSize s).WF :=
  ⟨h.nodup.sublist (List.Sublist.map _ (List.take_sublist _ _)), by
    show (c.entries.take s).length ≤ s
    rw [List.length_take]
    exact Nat.min_le_left s c.entries.length⟩

theorem WF.apply {c : Cache K V} (h : c.WF) : ∀ op : Op K V, (c.apply op).1.WF
  | .insert k v => h.insert k v
  | .erase k => h.erase k
  | .find k => h.find k
  | .findAndErase k => h.findAndErase k
  | .setMaxSize s => h.setMaxSize s
  | .size => h

theorem run_wf {c : Cache K V} (h : c.WF) (ops : List (Op K V)) : (c.run ops).1.WF := by
  induction ops generalizing c with
  | nil => exact h
  | cons op ops ih => exact ih (h.apply op)

/-! ## Which entries an operation keeps -/

/-- `insert` keeps its own entry and some of the entries of the other keys. -/
theorem insert_entries_sublist (c : Cache K V) (k : K) (v : V) :
    (c.insert k v).entries.Sublist ((k, v) :: removeKey k c.entries) := by
  simp only [Cache.insert]
  split_ifs
  · exact List.dropLast_sublist _
  · exact List.Sublist.refl _

omit [DecidableEq K] in
theorem setMaxSize_entries_sublist (c : Cache K V) (s : Nat) :
    (c.setMaxSize s).entries.Sublist c.entries :=
  List.take_sublist _ _

omit [DecidableEq K] in
theorem empty_wf (maxSize : Nat) : (empty maxSize : Cache K V).WF :=
  ⟨List.nodup_nil, Nat.zero_le _⟩

end Cache

end Lru
