import HdfsClient.Lib.LruCache
import Mathlib.Data.List.AList

/-!
# `LruMap`

`common/LruMap.h` keeps one cache in three pieces of state: a `std::list` of `(key, value)`
pairs, most recently used first; an `unordered_map` from each key to the list iterator of its
node; and a separate counter `count`. The list is modelled with node identities, which is what
an iterator designates: `list.erase(it)` removes the node of that identity, `list.begin()` is
the identity of the node just pushed. Identities come from an allocation counter. The map is an
`AList`, whose keys are distinct by construction as those of an `unordered_map` are.

* `Indexed` — the map sends each key to the node of that key, and the list's keys and
  identities are distinct.
* `Inv` — `Indexed`, `count` is the list's length, and the list respects the bound.
* `Inv.apply` and `apply_refines` — every operation keeps `Inv` and commutes with `toCache`,
  which forgets the identities, answering what `Lru.Cache` answers.
* `lruMap_refines_lruCache` — the same over every sequence of operations.
-/

namespace HdfsClient

open Lru

variable {K V : Type} [DecidableEq K]

/-- A node of the `std::list`: its identity and its pair. -/
structure Node (K V : Type) where
  id : Nat
  key : K
  value : V
  deriving DecidableEq, Repr

/-- The pair a node holds. -/
def Node.pair (n : Node K V) : K × V := (n.key, n.value)

/-- The state of an `LruMap<K, V>`; `nextId` allocates node identities. -/
structure LruMap (K V : Type) [DecidableEq K] where
  count : Nat
  maxSize : Nat
  list : List (Node K V)
  map : AList fun _ : K => Nat
  nextId : Nat

namespace LruMap

/-- `LruMap(size)`; the default constructor is `LruMap(1000)`. -/
def new (size : Nat) : LruMap K V := ⟨0, size, [], ∅, 0⟩

/-- `list.erase(it)`. -/
def listErase (l : List (Node K V)) (it : Nat) : List (Node K V) := l.filter fun n => n.id ≠ it

/-- `map.erase(list.back().first); list.pop_back(); --count;` -/
def popBack (m : LruMap K V) : LruMap K V :=
  { m with
    map := match m.list.getLast? with
      | some n => m.map.erase n.key
      | none => m.map
    list := m.list.dropLast
    count := m.count - 1 }

/-- `list.push_front(std::make_pair(key, value)); map[key] = list.begin();` -/
def pushFront (m : LruMap K V) (key : K) (value : V) : LruMap K V :=
  { m with
    list := ⟨m.nextId, key, value⟩ :: m.list
    map := m.map.insert key m.nextId
    nextId := m.nextId + 1 }

/-- `n` rounds of `popBack`. -/
def popBackN : Nat → LruMap K V → LruMap K V
  | 0, m => m
  | n + 1, m => popBackN n m.popBack

/-- `setMaxSize(s)`: the loop `for (size_t i = count; i > s; --i)` runs `count - s` times. -/
def setMaxSize (m : LruMap K V) (s : Nat) : LruMap K V :=
  popBackN (m.count - s) { m with maxSize := s }

/-- The first block of `insert`: `if (it != map.end()) { --count; list.erase(it->second); }`.
The map entry of `key` is left in place; `insert` overwrites it. -/
def unlink (m : LruMap K V) (key : K) : LruMap K V :=
  match m.map.lookup key with
  | some it => { m with count := m.count - 1, list := listErase m.list it }
  | none => m

def insert (m : LruMap K V) (key : K) (value : V) : LruMap K V :=
  let m := m.unlink key
  let m : LruMap K V := { m.pushFront key value with count := m.count + 1 }
  if m.maxSize < m.count then m.popBack else m

def erase (m : LruMap K V) (key : K) : LruMap K V :=
  match m.map.lookup key with
  | some it => { m with list := listErase m.list it, map := m.map.erase key, count := m.count - 1 }
  | none => m

/-- `findAndEraseInternal(key, value, erase)`: the value found, if any, and the new state. -/
def findAndEraseInternal (m : LruMap K V) (key : K) (erase : Bool) : Option V × LruMap K V :=
  match m.map.lookup key with
  | none => (none, m)
  | some it =>
    -- `*value = it->second->second`; the map always points at a node of the list (`Indexed`)
    match m.list.find? fun n => n.id = it with
    | none => (none, m)
    | some node =>
      let m := { m with list := listErase m.list it }
      if erase then (some node.value, { m with map := m.map.erase key, count := m.count - 1 })
      else (some node.value, m.pushFront key node.value)

def find (m : LruMap K V) (key : K) : Option V × LruMap K V := m.findAndEraseInternal key false

def findAndErase (m : LruMap K V) (key : K) : Option V × LruMap K V :=
  m.findAndEraseInternal key true

def size (m : LruMap K V) : Nat := m.count

/-- One operation, with its answer. -/
def apply (m : LruMap K V) : Op K V → LruMap K V × Reply V
  | .insert k v => (m.insert k v, .done)
  | .erase k => (m.erase k, .done)
  | .find k => ((m.find k).2, .found (m.find k).1)
  | .findAndErase k => ((m.findAndErase k).2, .found (m.findAndErase k).1)
  | .setMaxSize s => (m.setMaxSize s, .done)
  | .size => (m, .count m.size)

def run (m : LruMap K V) : List (Op K V) → LruMap K V × List (Reply V)
  | [] => (m, [])
  | op :: ops =>
    let r := m.apply op
    let rest := r.1.run ops
    (rest.1, r.2 :: rest.2)

/-- The abstract cache the state stands for: the list without its node identities. -/
def toCache (m : LruMap K V) : Cache K V := ⟨m.list.map Node.pair, m.maxSize⟩

end LruMap

/-! ## The list and the map agree -/

/-- The map sends each key to the identity of the node of that key, and the list has
distinct identities and distinct keys. -/
structure Indexed (l : List (Node K V)) (map : AList fun _ : K => Nat) : Prop where
  ids_nodup : (l.map Node.id).Nodup
  keys_nodup : (l.map Node.key).Nodup
  lookup_iff : ∀ k it, map.lookup k = some it ↔ ∃ v, Node.mk it k v ∈ l

/-- The three pieces of state agree, and every identity in use was allocated. -/
structure LruMap.Sound (m : LruMap K V) : Prop where
  indexed : Indexed m.list m.map
  count_eq : m.count = m.list.length
  ids_lt : ∀ n ∈ m.list, n.id < m.nextId

/-- The invariant of `LruMap`: `Sound`, and no more nodes than the bound. -/
structure LruMap.Inv (m : LruMap K V) : Prop extends m.Sound where
  bounded : m.list.length ≤ m.maxSize

omit [DecidableEq K] in
@[simp] theorem Node.pair_fst (n : Node K V) : n.pair.1 = n.key := rfl

omit [DecidableEq K] in
@[simp] theorem keys_map_pair (l : List (Node K V)) : (l.map Node.pair).map Prod.fst = l.map Node.key := by
  simp [Function.comp_def]

omit [DecidableEq K] in
theorem listErase_sublist (l : List (Node K V)) (it : Nat) : (LruMap.listErase l it).Sublist l :=
  List.filter_sublist

namespace Indexed

variable {l : List (Node K V)} {map : AList fun _ : K => Nat}

theorem eq_of_id (h : Indexed l map) {n n' : Node K V} (hn : n ∈ l) (hn' : n' ∈ l)
    (hid : n.id = n'.id) : n = n' :=
  List.inj_on_of_nodup_map h.ids_nodup hn hn' hid

/-- The node `k` points at holds `k`, and it is the only node that does. -/
theorem id_eq_iff_key_eq (h : Indexed l map) {k : K} {it : Nat} (hk : map.lookup k = some it)
    {n : Node K V} (hn : n ∈ l) : n.id = it ↔ n.key = k := by
  obtain ⟨v, hv⟩ := (h.lookup_iff k it).mp hk
  constructor
  · intro hid
    rw [h.eq_of_id hn hv hid]
  · intro hkey
    have hself : map.lookup n.key = some n.id := (h.lookup_iff _ _).mpr ⟨n.value, hn⟩
    rw [hkey, hk] at hself
    exact (Option.some.inj hself).symm

theorem listErase_pairs (h : Indexed l map) {k : K} {it : Nat} (hk : map.lookup k = some it) :
    (LruMap.listErase l it).map Node.pair = removeKey k (l.map Node.pair) := by
  rw [removeKey, List.filter_map, LruMap.listErase]
  congr 1
  apply List.filter_congr
  intro n hn
  exact decide_eq_decide.mpr (not_congr (h.id_eq_iff_key_eq hk hn))

theorem lookup_pairs (h : Indexed l map) {k : K} {it : Nat} (hk : map.lookup k = some it) :
    ∃ v, Node.mk it k v ∈ l ∧ (l.map Node.pair).lookup k = some v := by
  obtain ⟨v, hv⟩ := (h.lookup_iff k it).mp hk
  refine ⟨v, hv, ?_⟩
  rw [lookup_eq_some_iff_mem (by rw [keys_map_pair]; exact h.keys_nodup)]
  exact List.mem_map_of_mem hv

theorem lookup_pairs_none (h : Indexed l map) {k : K} (hk : map.lookup k = none) :
    (l.map Node.pair).lookup k = none := by
  cases hl : (l.map Node.pair).lookup k with
  | none => rfl
  | some v =>
    rw [lookup_eq_some_iff_mem (by rw [keys_map_pair]; exact h.keys_nodup)] at hl
    obtain ⟨n, hn, hpair⟩ := List.mem_map.mp hl
    have hkey : n.key = k := congrArg Prod.fst hpair
    have : map.lookup n.key = some n.id := (h.lookup_iff _ _).mpr ⟨n.value, hn⟩
    rw [hkey, hk] at this
    exact absurd this (by simp)

theorem find?_id (h : Indexed l map) {it : Nat} {k : K} {v : V} (hmem : Node.mk it k v ∈ l) :
    l.find? (fun n => n.id = it) = some ⟨it, k, v⟩ := by
  cases hf : l.find? (fun n => n.id = it) with
  | none =>
    have := List.find?_eq_none.mp hf _ hmem
    simp at this
  | some n =>
    have hn := List.mem_of_find?_eq_some hf
    have hid : n.id = it := by simpa using List.find?_some hf
    rw [h.eq_of_id hn hmem hid]

/-- Removing the node of `k`, and `k` from the map. -/
theorem erase (h : Indexed l map) {k : K} {it : Nat} (hk : map.lookup k = some it) :
    Indexed (LruMap.listErase l it) (map.erase k) := by
  refine ⟨h.ids_nodup.sublist ((listErase_sublist l it).map _),
    h.keys_nodup.sublist ((listErase_sublist l it).map _), fun k' it' => ?_⟩
  by_cases hk' : k' = k
  · subst hk'
    rw [AList.lookup_erase]
    simp only [reduceCtorEq, false_iff, not_exists]
    intro v hv
    have hmem := List.mem_of_mem_filter hv
    have hne : it' ≠ it := by simpa using List.of_mem_filter hv
    exact hne ((h.id_eq_iff_key_eq hk hmem).mpr rfl)
  · rw [AList.lookup_erase_ne hk', h.lookup_iff]
    constructor
    · rintro ⟨v, hv⟩
      refine ⟨v, List.mem_filter.mpr ⟨hv, ?_⟩⟩
      have : it' ≠ it := fun hid => hk' ((h.id_eq_iff_key_eq hk hv).mp hid)
      simpa using this
    · rintro ⟨v, hv⟩
      exact ⟨v, List.mem_of_mem_filter hv⟩

/-- Pushing a node of a fresh identity and an absent key, and pointing the key at it. -/
theorem pushFront (h : Indexed l map) {k : K} {nid : Nat} (v : V) (hk : k ∉ l.map Node.key)
    (hid : nid ∉ l.map Node.id) : Indexed (⟨nid, k, v⟩ :: l) (map.insert k nid) := by
  refine ⟨List.nodup_cons.mpr ⟨hid, h.ids_nodup⟩, List.nodup_cons.mpr ⟨hk, h.keys_nodup⟩,
    fun k' it' => ?_⟩
  by_cases hk' : k' = k
  · subst hk'
    rw [AList.lookup_insert]
    constructor
    · rintro ⟨⟩
      exact ⟨v, List.mem_cons_self⟩
    · rintro ⟨w, hw⟩
      rcases List.mem_cons.mp hw with hhead | htail
      · cases hhead
        rfl
      · exact absurd (List.mem_map_of_mem (f := Node.key) htail) hk
  · rw [AList.lookup_insert_ne hk', h.lookup_iff]
    constructor
    · rintro ⟨w, hw⟩
      exact ⟨w, List.mem_cons_of_mem _ hw⟩
    · rintro ⟨w, hw⟩
      rcases List.mem_cons.mp hw with hhead | htail
      · cases hhead
        exact absurd rfl hk'
      · exact ⟨w, htail⟩

/-- The last node is the one `list.back()` names; dropping it is erasing it. -/
theorem dropLast_eq_listErase (h : Indexed l map) {n : Node K V} (hn : l.getLast? = some n) :
    l.dropLast = LruMap.listErase l n.id := by
  have hsplit : l = l.dropLast ++ [n] := (List.dropLast_append_getLast? n hn).symm
  have hnd := h.ids_nodup
  rw [hsplit, List.map_append, List.nodup_append] at hnd
  rw [LruMap.listErase]
  conv_rhs => rw [hsplit]
  rw [List.filter_append]
  have hinit : (l.dropLast).filter (fun x => !decide (x.id = n.id)) = l.dropLast := by
    apply List.filter_eq_self.mpr
    intro x hx
    have : x.id ≠ n.id := fun hid => by
      have := hnd.2.2 x.id (List.mem_map_of_mem hx) n.id (by simp)
      exact this hid
    simpa using this
  simp [hinit]

theorem popBack (h : Indexed l map) :
    Indexed l.dropLast (match l.getLast? with
      | some n => map.erase n.key
      | none => map) := by
  cases hn : l.getLast? with
  | none =>
    rw [List.getLast?_eq_none_iff.mp hn]
    simpa [List.getLast?_eq_none_iff.mp hn] using h
  | some n =>
    have hmem : n ∈ l := List.mem_of_getLast? hn
    have hk : map.lookup n.key = some n.id := (h.lookup_iff _ _).mpr ⟨n.value, hmem⟩
    rw [h.dropLast_eq_listErase hn]
    exact h.erase hk

/-- The map has as many entries as the list has nodes. -/
theorem size_eq (h : Indexed l map) : map.entries.length = l.length := by
  have hperm : map.keys.Perm (l.map Node.key) := by
    apply (List.perm_ext_iff_of_nodup map.keys_nodup h.keys_nodup).mpr
    intro k
    rw [← AList.mem_keys, ← AList.lookup_isSome, Option.isSome_iff_exists]
    constructor
    · rintro ⟨it, hit⟩
      obtain ⟨v, hv⟩ := (h.lookup_iff k it).mp hit
      exact List.mem_map_of_mem (f := Node.key) hv
    · intro hk
      obtain ⟨n, hn, rfl⟩ := List.mem_map.mp hk
      exact ⟨n.id, (h.lookup_iff _ _).mpr ⟨n.value, hn⟩⟩
  have := hperm.length_eq
  simpa [AList.keys, List.keys] using this

/-- `Indexed` looks at the map only through `lookup`. -/
theorem congr_lookup (h : Indexed l map) {map' : AList fun _ : K => Nat}
    (hmap : ∀ k, map'.lookup k = map.lookup k) : Indexed l map' :=
  ⟨h.ids_nodup, h.keys_nodup, fun k it => by rw [hmap k]; exact h.lookup_iff k it⟩

end Indexed

theorem lookup_insert_erase (map : AList fun _ : K => Nat) (k k' : K) (nid : Nat) :
    ((map.erase k).insert k nid).lookup k' = (map.insert k nid).lookup k' := by
  by_cases hk : k' = k
  · subst hk
    rw [AList.lookup_insert, AList.lookup_insert]
  · rw [AList.lookup_insert_ne hk, AList.lookup_insert_ne hk, AList.lookup_erase_ne hk]

theorem lookup_erase_of_none {map : AList fun _ : K => Nat} {k : K} (hk : map.lookup k = none)
    (k' : K) : (map.erase k).lookup k' = map.lookup k' := by
  by_cases hk' : k' = k
  · subst hk'
    rw [AList.lookup_erase, hk]
  · rw [AList.lookup_erase_ne hk']

/-! ## Each operation keeps the invariant and refines the abstract cache -/

namespace LruMap

variable {m : LruMap K V}

@[simp] theorem unlink_map (m : LruMap K V) (k : K) : (m.unlink k).map = m.map := by
  unfold unlink; split <;> rfl

@[simp] theorem unlink_nextId (m : LruMap K V) (k : K) : (m.unlink k).nextId = m.nextId := by
  unfold unlink; split <;> rfl

@[simp] theorem unlink_maxSize (m : LruMap K V) (k : K) : (m.unlink k).maxSize = m.maxSize := by
  unfold unlink; split <;> rfl

theorem toCache_popBack (m : LruMap K V) :
    m.popBack.toCache = ⟨m.toCache.entries.dropLast, m.maxSize⟩ := by
  simp [popBack, toCache, List.map_dropLast]

theorem Sound.popBack (h : m.Sound) : m.popBack.Sound where
  indexed := h.indexed.popBack
  count_eq := by simp [LruMap.popBack, h.count_eq]
  ids_lt n hn := h.ids_lt n (List.dropLast_sublist _ |>.subset hn)

/-- After `unlink`, no node holds the key, the map without the key indexes the list, and the
count still counts the list. -/
theorem Sound.unlink (h : m.Sound) (k : K) :
    Indexed (m.unlink k).list (m.map.erase k) ∧
      (m.unlink k).list.map Node.pair = removeKey k (m.list.map Node.pair) ∧
      (m.unlink k).count = (m.unlink k).list.length ∧
      (m.unlink k).list.Sublist m.list := by
  unfold LruMap.unlink
  cases hk : m.map.lookup k with
  | none =>
    exact ⟨h.indexed.congr_lookup (lookup_erase_of_none hk),
      (removeKey_of_lookup_none (h.indexed.lookup_pairs_none hk)).symm, h.count_eq,
      List.Sublist.refl _⟩
  | some it =>
    obtain ⟨v, -, hl⟩ := h.indexed.lookup_pairs hk
    have hpairs := h.indexed.listErase_pairs hk
    have hlen := length_removeKey_of_lookup (by rw [keys_map_pair]; exact h.indexed.keys_nodup) hl
    refine ⟨h.indexed.erase hk, hpairs, ?_, listErase_sublist _ _⟩
    have := congrArg List.length hpairs
    simp only [List.length_map] at this hlen
    simp only [h.count_eq]
    omega

/-- Pushing `k` in front of a list that lacks it, when the map without `k` indexes the list. -/
theorem pushFront_indexed (hidx : Indexed m.list (m.map.erase k))
    (hkey : k ∉ m.list.map Node.key) (hids : ∀ n ∈ m.list, n.id < m.nextId) (v : V) :
    Indexed (m.pushFront k v).list (m.pushFront k v).map ∧
      ∀ n ∈ (m.pushFront k v).list, n.id < (m.pushFront k v).nextId := by
  have hfresh : m.nextId ∉ m.list.map Node.id := by
    intro hmem
    obtain ⟨n, hn, hid⟩ := List.mem_map.mp hmem
    exact absurd (hids n hn) (by omega)
  refine ⟨(hidx.pushFront v hkey hfresh).congr_lookup
    fun k' => (lookup_insert_erase m.map k k' m.nextId).symm, ?_⟩
  intro n hn
  rcases List.mem_cons.mp hn with rfl | htail
  · simp [pushFront]
  · exact Nat.lt_succ_of_lt (hids n htail)

/-- **`insert`.** -/
theorem Inv.insert (h : m.Inv) (k : K) (v : V) :
    (m.insert k v).Inv ∧ (m.insert k v).toCache = m.toCache.insert k v := by
  obtain ⟨hidx, hpairs, hcount, hsub⟩ := h.toSound.unlink k
  have hkey : k ∉ (m.unlink k).list.map Node.key := by
    rw [← keys_map_pair, hpairs]
    exact not_mem_keys_removeKey k _
  have hids : ∀ n ∈ (m.unlink k).list, n.id < (m.unlink k).nextId := fun n hn => by
    simpa using h.ids_lt n (hsub.subset hn)
  obtain ⟨hidx', hids'⟩ :=
    pushFront_indexed (m := m.unlink k) (by simpa using hidx) hkey hids v
  -- the state after the push, before any eviction
  set m' : LruMap K V := { (m.unlink k).pushFront k v with count := (m.unlink k).count + 1 }
  have hsound : m'.Sound := ⟨hidx', by simp [m', pushFront, hcount], hids'⟩
  have hpairs' : m'.list.map Node.pair = (k, v) :: removeKey k (m.list.map Node.pair) := by
    simp [m', pushFront, hpairs, Node.pair]
  have hcount' : m'.count = ((k, v) :: removeKey k (m.list.map Node.pair)).length := by
    rw [hsound.count_eq, ← hpairs', List.length_map]
  have hle : m'.count ≤ m.maxSize + 1 := by
    have := length_removeKey_le k (m.list.map Node.pair)
    simp only [hcount', List.length_cons, List.length_map] at this ⊢
    have := h.bounded
    omega
  have hmax : m'.maxSize = m.maxSize := by simp [m', pushFront]
  -- the abstract insert, with its length test read off the concrete state
  have hins : m.toCache.insert k v =
      ⟨if m.maxSize < m'.count then (m'.list.map Node.pair).dropLast else m'.list.map Node.pair,
        m.maxSize⟩ := by
    rw [hcount', hpairs']
    rfl
  show (if m'.maxSize < m'.count then m'.popBack else m').Inv ∧
    (if m'.maxSize < m'.count then m'.popBack else m').toCache = m.toCache.insert k v
  rw [hins, hmax]
  by_cases hgt : m.maxSize < m'.count
  · rw [if_pos hgt, if_pos hgt]
    refine ⟨⟨hsound.popBack, ?_⟩, ?_⟩
    · simp only [LruMap.popBack, List.length_dropLast, hmax, ← hsound.count_eq]
      omega
    · rw [toCache_popBack, hmax]
      rfl
  · rw [if_neg hgt, if_neg hgt]
    exact ⟨⟨hsound, by rw [hmax, ← hsound.count_eq]; omega⟩, by rw [toCache, hmax]⟩

/-- **`erase`.** It is `unlink` that also drops the key from the map. -/
theorem Inv.erase (h : m.Inv) (k : K) :
    (m.erase k).Inv ∧ (m.erase k).toCache = m.toCache.erase k := by
  obtain ⟨hidx, hpairs, hcount, hsub⟩ := h.toSound.unlink k
  have hlist : (m.erase k).list = (m.unlink k).list := by
    unfold LruMap.erase LruMap.unlink; split <;> rfl
  have hcnt : (m.erase k).count = (m.unlink k).count := by
    unfold LruMap.erase LruMap.unlink; split <;> rfl
  have hmax : (m.erase k).maxSize = m.maxSize := by unfold LruMap.erase; split <;> rfl
  have hnext : (m.erase k).nextId = m.nextId := by unfold LruMap.erase; split <;> rfl
  have hmap : ∀ k', (m.erase k).map.lookup k' = (m.map.erase k).lookup k' := by
    intro k'
    unfold LruMap.erase
    split
    · rfl
    · next hk => exact (lookup_erase_of_none hk k').symm
  refine ⟨⟨⟨?_, ?_, ?_⟩, ?_⟩, ?_⟩
  · rw [hlist]
    exact hidx.congr_lookup hmap
  · rw [hlist, hcnt, hcount]
  · intro n hn
    rw [hnext]
    rw [hlist] at hn
    exact h.ids_lt n (hsub.subset hn)
  · rw [hlist, hmax]
    exact le_trans hsub.length_le h.bounded
  · simp only [toCache, Cache.erase, hlist, hpairs, hmax]

/-- **`findAndErase`.** Its state is that of `erase`. -/
theorem Inv.findAndErase (h : m.Inv) (k : K) :
    (m.findAndErase k).1 = (m.toCache.findAndErase k).1 ∧ (m.findAndErase k).2 = m.erase k := by
  unfold LruMap.findAndErase LruMap.findAndEraseInternal LruMap.erase
  cases hk : m.map.lookup k with
  | none => exact ⟨(h.indexed.lookup_pairs_none hk).symm, rfl⟩
  | some it =>
    obtain ⟨v, hv, hl⟩ := h.indexed.lookup_pairs hk
    simp only [h.indexed.find?_id hv, if_true]
    exact ⟨hl.symm, trivial⟩

/-- **`find`.** The node found is unlinked and pushed again in front. -/
theorem Inv.find (h : m.Inv) (k : K) :
    (m.find k).2.Inv ∧ (m.find k).1 = (m.toCache.find k).1 ∧
      (m.find k).2.toCache = (m.toCache.find k).2 := by
  unfold LruMap.find LruMap.findAndEraseInternal Cache.find
  cases hk : m.map.lookup k with
  | none =>
    rw [show m.toCache.entries.lookup k = none from h.indexed.lookup_pairs_none hk]
    exact ⟨h, rfl, rfl⟩
  | some it =>
    obtain ⟨v, hv, hl⟩ := h.indexed.lookup_pairs hk
    rw [show m.toCache.entries.lookup k = some v from hl]
    simp only [h.indexed.find?_id hv, Bool.false_eq_true, if_false]
    -- the state with the node unlinked, before the push
    set m' : LruMap K V := { m with list := listErase m.list it }
    have hpairs : m'.list.map Node.pair = removeKey k (m.list.map Node.pair) :=
      h.indexed.listErase_pairs hk
    have hkey : k ∉ m'.list.map Node.key := by
      rw [← keys_map_pair, hpairs]
      exact not_mem_keys_removeKey k _
    have hids : ∀ n ∈ m'.list, n.id < m'.nextId := fun n hn =>
      h.ids_lt n ((listErase_sublist _ _).subset hn)
    obtain ⟨hidx', hids'⟩ := pushFront_indexed (m := m') (h.indexed.erase hk) hkey hids v
    have hlen := length_removeKey_of_lookup
      (by rw [keys_map_pair]; exact h.indexed.keys_nodup) hl
    have hlen' : (m'.pushFront k v).list.length = m.list.length := by
      have := congrArg List.length hpairs
      simp only [List.length_map] at this hlen
      simp only [pushFront, List.length_cons]
      omega
    refine ⟨⟨⟨hidx', ?_, hids'⟩, ?_⟩, trivial, ?_⟩
    · rw [hlen']
      exact h.count_eq
    · rw [hlen']
      exact h.bounded
    · simp only [toCache, pushFront, List.map_cons, hpairs]
      rfl

theorem Sound.popBackN (h : m.Sound) (n : Nat) :
    (popBackN n m).Sound ∧ (popBackN n m).list = m.list.take (m.list.length - n) ∧
      (popBackN n m).maxSize = m.maxSize := by
  induction n generalizing m with
  | zero => exact ⟨h, by simp [popBackN], rfl⟩
  | succ n ih =>
    obtain ⟨hs, hl, hmax⟩ := ih h.popBack
    refine ⟨hs, ?_, hmax⟩
    rw [popBackN, hl]
    simp only [LruMap.popBack, List.dropLast_eq_take, List.take_take, List.length_take]
    congr 1
    omega

/-- **`setMaxSize`.** The loop pops from the back until `count` reaches the bound. -/
theorem Inv.setMaxSize (h : m.Inv) (s : Nat) :
    (m.setMaxSize s).Inv ∧ (m.setMaxSize s).toCache = m.toCache.setMaxSize s := by
  have hs : ({ m with maxSize := s } : LruMap K V).Sound := ⟨h.indexed, h.count_eq, h.ids_lt⟩
  obtain ⟨hsound, hlist, hmax⟩ := hs.popBackN (m.count - s)
  have htake : (m.setMaxSize s).list = m.list.take s := by
    rw [LruMap.setMaxSize, hlist]
    show m.list.take (m.list.length - (m.count - s)) = m.list.take s
    rw [h.count_eq]
    by_cases hle : s ≤ m.list.length
    · congr 1
      omega
    · rw [List.take_of_length_le (by omega), List.take_of_length_le (by omega)]
  have hmax' : (m.setMaxSize s).maxSize = s := hmax
  refine ⟨⟨hsound, ?_⟩, ?_⟩
  · rw [htake, hmax', List.length_take]
    exact Nat.min_le_left _ _
  · simp only [toCache, Cache.setMaxSize, htake, List.map_take, hmax']

/-- Every operation keeps the invariant, changes the state as the abstract cache changes, and
answers what it answers. -/
theorem Inv.apply (h : m.Inv) (op : Op K V) :
    (m.apply op).1.Inv ∧ (m.apply op).1.toCache = (m.toCache.apply op).1 ∧
      (m.apply op).2 = (m.toCache.apply op).2 := by
  cases op with
  | insert k v => exact ⟨(h.insert k v).1, (h.insert k v).2, rfl⟩
  | erase k => exact ⟨(h.erase k).1, (h.erase k).2, rfl⟩
  | find k =>
    obtain ⟨hinv, hval, hst⟩ := h.find k
    exact ⟨hinv, hst, by simp only [LruMap.apply, Cache.apply, hval]⟩
  | findAndErase k =>
    obtain ⟨hval, hst⟩ := h.findAndErase k
    refine ⟨?_, ?_, by simp only [LruMap.apply, Cache.apply, hval]⟩
    · simp only [LruMap.apply, hst]
      exact (h.erase k).1
    · simp only [LruMap.apply, Cache.apply, hst, (h.erase k).2]
      rfl
  | setMaxSize s => exact ⟨(h.setMaxSize s).1, (h.setMaxSize s).2, rfl⟩
  | size =>
    refine ⟨h, rfl, ?_⟩
    simp only [LruMap.apply, Cache.apply, LruMap.size, Cache.size, toCache, List.length_map,
      h.count_eq]

theorem Inv.run (h : m.Inv) (ops : List (Op K V)) :
    (m.run ops).1.Inv ∧ (m.run ops).1.toCache = (m.toCache.run ops).1 ∧
      (m.run ops).2 = (m.toCache.run ops).2 := by
  induction ops generalizing m with
  | nil => exact ⟨h, rfl, rfl⟩
  | cons op ops ih =>
    obtain ⟨hinv, hst, hrep⟩ := h.apply op
    obtain ⟨hinv', hst', hrep'⟩ := ih hinv
    refine ⟨hinv', ?_, ?_⟩
    · simp only [LruMap.run, Cache.run, hst', hst]
    · simp only [LruMap.run, Cache.run, hrep', hrep, hst]

theorem new_inv (size : Nat) : (new size : LruMap K V).Inv :=
  ⟨⟨⟨List.nodup_nil, List.nodup_nil, fun k it => by simp [new, AList.lookup_empty]⟩, rfl,
    fun n hn => by simp [new] at hn⟩, Nat.zero_le _⟩

end LruMap

/-- **`LruMap` refines the abstract LRU cache.** From an empty map of any bound, every sequence
of operations answers exactly what `Lru.Cache` answers (so `find`, `findAndErase` and `size`
agree), leaves the list holding the abstract entries in order, and leaves the state consistent:
`count`, the list and the map have one size, the list's keys are distinct, and the map sends
each key to the node holding it. The abstract cache stays well formed all along. -/
theorem lruMap_refines_lruCache (maxSize : Nat) (ops : List (Op K V)) :
    let c := (LruMap.new maxSize : LruMap K V).run ops
    let a := (Cache.empty maxSize : Cache K V).run ops
    c.2 = a.2 ∧ c.1.toCache = a.1 ∧ a.1.WF ∧
      c.1.count = c.1.list.length ∧ c.1.map.entries.length = c.1.list.length ∧
      (c.1.list.map Node.key).Nodup ∧
      ∀ k it, c.1.map.lookup k = some it ↔ ∃ v, Node.mk it k v ∈ c.1.list := by
  obtain ⟨hinv, hst, hrep⟩ := (LruMap.new_inv maxSize : (LruMap.new maxSize : LruMap K V).Inv).run ops
  have hnew : (LruMap.new maxSize : LruMap K V).toCache = Cache.empty maxSize := rfl
  rw [hnew] at hst hrep
  exact ⟨hrep, hst, Cache.run_wf (Cache.empty_wf maxSize) ops, hinv.count_eq,
    hinv.indexed.size_eq, hinv.indexed.keys_nodup, hinv.indexed.lookup_iff⟩

/-- `TestLruMap.TestInsertAndFind`: with room for three, `1` is evicted by `4`, and `3` by `5`
once `2` has been used again. -/
example :
    ((LruMap.new 3 : LruMap Nat Nat).run [.insert 1 1, .insert 2 2, .insert 3 3, .insert 4 4,
      .find 2, .find 3, .find 4, .find 1, .find 2, .insert 5 5, .find 3]).2 =
    [.done, .done, .done, .done, .found (some 2), .found (some 3), .found (some 4), .found none,
      .found (some 2), .done, .found none] := by
  decide

end HdfsClient
