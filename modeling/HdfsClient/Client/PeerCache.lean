import HdfsClient.Common.LruMap
import HdfsClient.Common.SessionConfig
import HdfsClient.Lib.Machine

/-!
# The socket cache of the block readers

`PeerCache` (`client/PeerCache.cpp`) keeps the sockets to datanodes that block readers are done
with, in an `LruMap` keyed by `buildKey(datanode)` that every instance shares (`static Map`), each
with the time it was cached. `getConnection(datanode)` takes the socket of the datanode's key out
of the map and hands it out unless it is older than `expireTimeInterval`; `addConnection` puts a
socket back under its datanode's key. A `RemoteBlockReader` takes its socket with `getNextPeer`
(from the cache, or a new socket connected to its datanode) and gives it back in its destructor
when the status of the read was sent, or closes it.

**The model.** Sockets are named by the order of their creation; a ghost map records the key of
the datanode each was connected to. `PeerSystem` is the shared map, the socket each reader holds,
and the `steady_clock`, which never goes back; its steps are the constructor of a `PeerCache`
(`Map.setMaxSize`), and the constructor and the destructor of a `RemoteBlockReader`.

* `getConnection_fresh` — a socket `getConnection` hands out was cached under the datanode's key
  no longer than `expireTimeInterval` before.
* `run_exclusive` — over every run, no two readers hold one socket, no socket a reader holds is
  in the cache, the cached sockets are distinct, and every reader's socket was opened under the
  cache key of its datanode. That is equality of keys, not of datanodes: `buildKey` joins the
  address, the port and the id without separators, so two datanodes may share a key, and a reader
  may then be handed a socket opened to the other one.
-/

namespace HdfsClient

open Lru

/-- What `buildKey` reads of a `DatanodeInfo`: `getIpAddr()`, `getXferPort()` and
`getDatanodeId()`. -/
structure PeerDatanode where
  ipAddr : List Char
  xferPort : Nat
  datanodeId : List Char
  deriving DecidableEq, Repr

/-- A `PeerCache`: the map every instance shares, with the socket and the time it was cached for
each key, and this instance's `expireTimeInterval`, in milliseconds. -/
structure PeerCache (S : Type) where
  map : LruMap (List Char) (S × Nat)
  expireTimeInterval : Int

namespace PeerCache

variable {S : Type}

/-- `buildKey(datanode)`: the address, the port and the id, written one after the other into a
`stringstream` of the classic locale. -/
def buildKey (dn : PeerDatanode) : List Char :=
  dn.ipAddr ++ (Nat.repr dn.xferPort).toList ++ dn.datanodeId

/-- `PeerCache(conf)`: `getSocketCacheExpiry()`, and `Map.setMaxSize(getSocketCacheCapacity())` on
the map every instance shares. -/
def new (map : LruMap (List Char) (S × Nat)) (m : SessionConfig.Members) : PeerCache S :=
  ⟨map.setMaxSize (m.int32s .socketCacheCapacity).toInt.toNat, (m.int32s .socketCacheExpiry).toInt⟩

/-- `getConnection(datanode)` at time `now`: `findAndErase` the datanode's key; a socket cached more
than `expireTimeInterval` ago is dropped. -/
def getConnection (pc : PeerCache S) (dn : PeerDatanode) (now : Nat) : Option S × PeerCache S :=
  match pc.map.findAndErase (buildKey dn) with
  | (none, map) => (none, { pc with map := map })
  | (some (sock, cachedAt), map) =>
    if (now : Int) - cachedAt > pc.expireTimeInterval then (none, { pc with map := map })
    else (some sock, { pc with map := map })

/-- `addConnection(peer, datanode)` at time `now`. -/
def addConnection (pc : PeerCache S) (peer : S) (dn : PeerDatanode) (now : Nat) : PeerCache S :=
  { pc with map := pc.map.insert (buildKey dn) (peer, now) }

/-- What `getConnection` leaves in the map: the entries of the other keys. -/
theorem getConnection_toCache [DecidableEq S] {pc : PeerCache S} (h : pc.map.Inv) (dn : PeerDatanode)
    (now : Nat) :
    (pc.getConnection dn now).2.map.Inv ∧
      (pc.getConnection dn now).2.map.toCache.entries = removeKey (buildKey dn) pc.map.toCache.entries := by
  obtain ⟨hval, hst⟩ := h.findAndErase (buildKey dn)
  obtain ⟨hinv, hcache⟩ := h.erase (buildKey dn)
  have hmap : (pc.getConnection dn now).2.map = (pc.map.findAndErase (buildKey dn)).2 := by
    unfold getConnection
    split
    case h_1 map heq => rw [heq]
    case h_2 sock t map heq =>
      rw [heq]
      by_cases hexp : (now : Int) - t > pc.expireTimeInterval
      · rw [if_pos hexp]
      · rw [if_neg hexp]
  rw [hmap, hst]
  exact ⟨hinv, by rw [hcache]; rfl⟩

/-- **A socket handed out is fresh.** `getConnection` hands out only a socket cached under the
datanode's key, no longer than `expireTimeInterval` before `now`. -/
theorem getConnection_fresh [DecidableEq S] {pc : PeerCache S} (h : pc.map.Inv) {dn : PeerDatanode}
    {now : Nat} {sock : S} (hget : (pc.getConnection dn now).1 = some sock) :
    ∃ cachedAt, (buildKey dn, (sock, cachedAt)) ∈ pc.map.toCache.entries ∧
      (now : Int) - cachedAt ≤ pc.expireTimeInterval := by
  have hval := (h.findAndErase (buildKey dn)).1
  unfold getConnection at hget
  split at hget
  case h_1 => cases hget
  case h_2 sock' t map heq =>
    rw [heq] at hval
    by_cases hexp : (now : Int) - t > pc.expireTimeInterval
    · rw [if_pos hexp] at hget
      cases hget
    · rw [if_neg hexp] at hget
      cases hget
      exact ⟨t, mem_of_lookup hval.symm, Int.not_lt.mp hexp⟩

end PeerCache

/-! ## Readers and their sockets -/

/-- The events: a file system constructs its `PeerCache` from its configuration
(`Map.setMaxSize`); reader `r` is
constructed on a datanode, with the expiry of its file system's cache, at time `now`
(`getNextPeer`); reader `r` is destroyed at time `now`, its socket given back when the status was
sent (`~RemoteBlockReader`). -/
inductive PeerEvent (R : Type)
  | newCache (m : SessionConfig.Members)
  | openReader (r : R) (dn : PeerDatanode) (expire : Int) (now : Nat)
  | closeReader (r : R) (sentStatus : Bool) (now : Nat)

/-- The shared map of sockets (named by their creation) with the time they were cached, the
socket and the datanode each reader holds, the sockets created, the key of the datanode each
socket was connected to (a ghost), and the clock. -/
structure PeerSystem (R : Type) where
  map : LruMap (List Char) (Nat × Nat)
  readers : R → Option (Nat × PeerDatanode)
  sockets : Nat
  connectedTo : Nat → List Char
  clock : Nat

namespace PeerSystem

variable {R : Type}

/-- No reader, no socket, an empty map of the default size. -/
def init : PeerSystem R := ⟨LruMap.new 1000, fun _ => none, 0, fun _ => [], 0⟩

variable [DecidableEq R] in
/-- One step. A reader is constructed only when it holds no socket, destroyed only when it holds
one, and the clock never goes back. On a miss of the cache, `getNextPeer` connects a new
socket. -/
def step (s : PeerSystem R) : PeerEvent R → Option (PeerSystem R)
  | .newCache m => some { s with map := (PeerCache.new s.map m : PeerCache Nat).map }
  | .openReader r dn expire now =>
    if s.readers r ≠ none ∨ now < s.clock then none
    else
      match (PeerCache.getConnection ⟨s.map, expire⟩ dn now) with
      | (some sock, pc) =>
        some { s with
          map := pc.map
          readers := Function.update s.readers r (some (sock, dn))
          clock := now }
      | (none, pc) =>
        some { s with
          map := pc.map
          readers := Function.update s.readers r (some (s.sockets, dn))
          sockets := s.sockets + 1
          connectedTo := Function.update s.connectedTo s.sockets (PeerCache.buildKey dn)
          clock := now }
  | .closeReader r sentStatus now =>
    match s.readers r with
    | none => none
    | some (sock, dn) =>
      if now < s.clock then none
      else
        some { s with
          map := if sentStatus then (PeerCache.addConnection ⟨s.map, 0⟩ sock dn now).map else s.map
          readers := Function.update s.readers r none
          clock := now }

/-- No two readers hold one socket. -/
def Exclusive (readers : R → Option (Nat × PeerDatanode)) : Prop :=
  ∀ r r' sock dn dn', readers r = some (sock, dn) → readers r' = some (sock, dn') → r = r'

/-- The sockets are used one at a time: the cached ones are distinct, were connected to a datanode
of their key, were cached in the past and are held by no reader; a reader's socket was connected
to a datanode of its datanode's key, and no two readers hold one socket. -/
structure Inv (s : PeerSystem R) : Prop where
  map_inv : s.map.Inv
  cached : ∀ k sock t, (k, (sock, t)) ∈ s.map.toCache.entries →
    sock < s.sockets ∧ s.connectedTo sock = k ∧ t ≤ s.clock ∧ ∀ r dn, s.readers r ≠ some (sock, dn)
  cached_nodup : (s.map.toCache.entries.map fun e => e.2.1).Nodup
  held : ∀ r sock dn, s.readers r = some (sock, dn) →
    sock < s.sockets ∧ s.connectedTo sock = PeerCache.buildKey dn
  exclusive : Exclusive s.readers

theorem init_inv : (init : PeerSystem R).Inv where
  map_inv := LruMap.new_inv 1000
  cached := fun _ _ _ h => by simp [init, LruMap.new, LruMap.toCache] at h
  cached_nodup := by simp [init, LruMap.new, LruMap.toCache]
  held := fun _ _ _ h => by simp [init] at h
  exclusive := fun _ _ _ _ _ h => by simp [init] at h

/-- Entries that a step keeps keep the invariant's facts about the cache. -/
theorem Inv.cached_of_sublist {s : PeerSystem R} (h : s.Inv) {l : List (List Char × (Nat × Nat))}
    (hsub : l.Sublist s.map.toCache.entries) :
    (l.map fun e => e.2.1).Nodup ∧ ∀ k sock t, (k, (sock, t)) ∈ l →
      sock < s.sockets ∧ s.connectedTo sock = k ∧ t ≤ s.clock ∧ ∀ r dn, s.readers r ≠ some (sock, dn) :=
  ⟨h.cached_nodup.sublist (hsub.map _), fun k sock t hmem => h.cached k sock t (hsub.subset hmem)⟩

theorem Inv.newCache {s : PeerSystem R} (h : s.Inv) (capacity : Nat) :
    ({ s with map := s.map.setMaxSize capacity } : PeerSystem R).Inv := by
  obtain ⟨hinv, hcache⟩ := h.map_inv.setMaxSize capacity
  have hsub : (s.map.setMaxSize capacity).toCache.entries.Sublist s.map.toCache.entries := by
    rw [hcache]
    exact Cache.setMaxSize_entries_sublist _ _
  obtain ⟨hnodup, hcached⟩ := h.cached_of_sublist hsub
  exact ⟨hinv, hcached, hnodup, h.held, h.exclusive⟩

/-- A socket in the cache is its only entry. -/
theorem Inv.not_mem_removeKey {s : PeerSystem R} (h : s.Inv) {k : List Char} {sock t : Nat}
    (hmem : (k, (sock, t)) ∈ s.map.toCache.entries) (k' : List Char) (t' : Nat)
    (hmem' : (k', (sock, t')) ∈ removeKey k s.map.toCache.entries) : False := by
  obtain ⟨hin, hne⟩ := mem_removeKey.mp hmem'
  have heq := List.inj_on_of_nodup_map h.cached_nodup hmem hin rfl
  exact hne (congrArg Prod.fst heq).symm

/-- `getConnection` leaves a map with the invariant whose entries are those of the other keys:
their sockets stay distinct, with what the invariant says of each. -/
theorem Inv.getConnection {s : PeerSystem R} (h : s.Inv) (dn : PeerDatanode) (expire : Int)
    (now : Nat) :
    (PeerCache.getConnection ⟨s.map, expire⟩ dn now).2.map.Inv ∧
      (PeerCache.getConnection ⟨s.map, expire⟩ dn now).2.map.toCache.entries =
        removeKey (PeerCache.buildKey dn) s.map.toCache.entries ∧
      ((removeKey (PeerCache.buildKey dn) s.map.toCache.entries).map fun e => e.2.1).Nodup ∧
      ∀ k sock t, (k, (sock, t)) ∈ removeKey (PeerCache.buildKey dn) s.map.toCache.entries →
        sock < s.sockets ∧ s.connectedTo sock = k ∧ t ≤ s.clock ∧
          ∀ r dn, s.readers r ≠ some (sock, dn) := by
  obtain ⟨hinv, hentries⟩ := @PeerCache.getConnection_toCache _ _ ⟨s.map, expire⟩ h.map_inv dn now
  exact ⟨hinv, hentries, h.cached_of_sublist List.filter_sublist⟩

variable [DecidableEq R]

theorem update_eq_some {readers : R → Option (Nat × PeerDatanode)} {r r' : R}
    {v : Option (Nat × PeerDatanode)} {x : Nat × PeerDatanode}
    (h : Function.update readers r v r' = some x) :
    (r' = r ∧ v = some x) ∨ (r' ≠ r ∧ readers r' = some x) := by
  by_cases hr : r' = r
  · subst hr
    rw [Function.update_self] at h
    exact .inl ⟨rfl, h⟩
  · rw [Function.update_of_ne hr] at h
    exact .inr ⟨hr, h⟩

/-- A reader that takes a socket no other reader holds keeps the readers exclusive. -/
theorem Exclusive.take {readers : R → Option (Nat × PeerDatanode)} (h : Exclusive readers) {r : R}
    {sock : Nat} (dn : PeerDatanode) (hfree : ∀ r' dn', r' ≠ r → readers r' ≠ some (sock, dn')) :
    Exclusive (Function.update readers r (some (sock, dn))) := by
  intro r₁ r₂ sock' dn₁ dn₂ h₁ h₂
  rcases update_eq_some h₁ with ⟨hr₁, hv₁⟩ | ⟨hr₁, hs₁⟩ <;>
    rcases update_eq_some h₂ with ⟨hr₂, hv₂⟩ | ⟨hr₂, hs₂⟩
  · rw [hr₁, hr₂]
  · cases hv₁
    exact absurd hs₂ (hfree r₂ dn₂ hr₂)
  · cases hv₂
    exact absurd hs₁ (hfree r₁ dn₁ hr₁)
  · exact h r₁ r₂ sock' dn₁ dn₂ hs₁ hs₂

/-- A reader that gives its socket up keeps the readers exclusive. -/
theorem Exclusive.release {readers : R → Option (Nat × PeerDatanode)} (h : Exclusive readers)
    (r : R) : Exclusive (Function.update readers r none) := by
  intro r₁ r₂ sock' dn₁ dn₂ h₁ h₂
  rcases update_eq_some h₁ with ⟨-, h₁⟩ | ⟨-, h₁⟩
  · cases h₁
  rcases update_eq_some h₂ with ⟨-, h₂⟩ | ⟨-, h₂⟩
  · cases h₂
  exact h r₁ r₂ sock' dn₁ dn₂ h₁ h₂

/-- `getNextPeer` served from the cache: the socket leaves the cache for the reader. -/
theorem Inv.openReader_hit {s : PeerSystem R} (h : s.Inv) {r : R} {dn : PeerDatanode}
    {expire : Int} {now : Nat} (hclock : s.clock ≤ now) {sock : Nat}
    (hget : (PeerCache.getConnection ⟨s.map, expire⟩ dn now).1 = some sock) :
    ({ s with
        map := (PeerCache.getConnection ⟨s.map, expire⟩ dn now).2.map
        readers := Function.update s.readers r (some (sock, dn))
        clock := now } : PeerSystem R).Inv := by
  obtain ⟨t, hmem, -⟩ := PeerCache.getConnection_fresh h.map_inv hget
  obtain ⟨hinv, hentries, hnodup, hcached⟩ := h.getConnection dn expire now
  obtain ⟨hsock, hkey, -, hfree⟩ := h.cached _ _ _ hmem
  refine ⟨hinv, fun k sock' t' hmem' => ?_, ?_, fun r' sock' dn' hr' => ?_,
    h.exclusive.take dn fun r' dn' _ => hfree r' dn'⟩
  · -- the entries of the other keys keep their sockets, none of them the one handed out
    dsimp only at hmem' ⊢
    rw [hentries] at hmem'
    obtain ⟨hlt, hk, ht, hfree'⟩ := hcached k sock' t' hmem'
    refine ⟨hlt, hk, Nat.le_trans ht hclock, fun r'' dn'' hr'' => ?_⟩
    rcases update_eq_some hr'' with ⟨-, hv⟩ | ⟨-, hr''⟩
    · cases hv
      exact h.not_mem_removeKey hmem k t' hmem'
    · exact hfree' r'' dn'' hr''
  · dsimp only
    rw [hentries]
    exact hnodup
  · rcases update_eq_some hr' with ⟨-, hv⟩ | ⟨-, hr'⟩
    · cases hv
      exact ⟨hsock, hkey⟩
    · exact h.held r' sock' dn' hr'

/-- `getNextPeer` on a miss: a new socket, connected to the reader's datanode. -/
theorem Inv.openReader_miss {s : PeerSystem R} (h : s.Inv) {r : R} {dn : PeerDatanode}
    {expire : Int} {now : Nat} (hclock : s.clock ≤ now) :
    ({ s with
        map := (PeerCache.getConnection ⟨s.map, expire⟩ dn now).2.map
        readers := Function.update s.readers r (some (s.sockets, dn))
        sockets := s.sockets + 1
        connectedTo := Function.update s.connectedTo s.sockets (PeerCache.buildKey dn)
        clock := now } : PeerSystem R).Inv := by
  obtain ⟨hinv, hentries, hnodup, hcached⟩ := h.getConnection dn expire now
  -- the new socket is none of the cached or held ones, which are older
  have hfresh : ∀ r' dn', s.readers r' ≠ some (s.sockets, dn') := fun r' dn' hr' =>
    Nat.lt_irrefl _ (h.held r' _ dn' hr').1
  refine ⟨hinv, fun k sock' t' hmem' => ?_, ?_, fun r' sock' dn' hr' => ?_,
    h.exclusive.take dn fun r' dn' _ => hfresh r' dn'⟩
  · dsimp only at hmem' ⊢
    rw [hentries] at hmem'
    obtain ⟨hlt, hk, ht, hfree'⟩ := hcached k sock' t' hmem'
    have hne : sock' ≠ s.sockets := Nat.ne_of_lt hlt
    refine ⟨Nat.lt_succ_of_lt hlt, by rw [Function.update_of_ne hne, hk], Nat.le_trans ht hclock,
      fun r'' dn'' hr'' => ?_⟩
    rcases update_eq_some hr'' with ⟨-, hv⟩ | ⟨-, hr''⟩
    · cases hv
      exact hne rfl
    · exact hfree' r'' dn'' hr''
  · dsimp only
    rw [hentries]
    exact hnodup
  · dsimp only at hr' ⊢
    rcases update_eq_some hr' with ⟨-, hv⟩ | ⟨-, hr'⟩
    · cases hv
      exact ⟨Nat.lt_succ_self _, Function.update_self ..⟩
    · obtain ⟨hlt, hk⟩ := h.held r' sock' dn' hr'
      exact ⟨Nat.lt_succ_of_lt hlt, by rw [Function.update_of_ne (Nat.ne_of_lt hlt), hk]⟩

/-- `~RemoteBlockReader`: the socket goes back to the cache under its datanode's key, or is
closed. -/
theorem Inv.closeReader {s : PeerSystem R} (h : s.Inv) {r : R} {sock : Nat} {dn : PeerDatanode}
    (hheld : s.readers r = some (sock, dn)) (sentStatus : Bool) {now : Nat} (hclock : s.clock ≤ now) :
    ({ s with
        map := if sentStatus then (PeerCache.addConnection ⟨s.map, 0⟩ sock dn now).map else s.map
        readers := Function.update s.readers r none
        clock := now } : PeerSystem R).Inv := by
  obtain ⟨hsock, hkey⟩ := h.held r sock dn hheld
  -- the readers that remain hold what they held
  have hheld' : ∀ r' sock' dn', Function.update s.readers r none r' = some (sock', dn') →
      s.readers r' = some (sock', dn') ∧ r' ≠ r := fun r' sock' dn' hr' => by
    rcases update_eq_some hr' with ⟨-, hv⟩ | ⟨hr, hr'⟩
    · cases hv
    · exact ⟨hr', hr⟩
  cases sentStatus
  case false =>
    refine ⟨h.map_inv, fun k sock' t' hmem' => ?_, h.cached_nodup,
      fun r' sock' dn' hr' => h.held r' sock' dn' (hheld' r' sock' dn' hr').1, h.exclusive.release r⟩
    obtain ⟨hlt, hk, ht, hfree⟩ := h.cached k sock' t' hmem'
    exact ⟨hlt, hk, Nat.le_trans ht hclock, fun r'' dn'' hr'' => hfree r'' dn'' (hheld' _ _ _ hr'').1⟩
  case true =>
    obtain ⟨hinv, hcache⟩ := h.map_inv.insert (PeerCache.buildKey dn) (sock, now)
    have hsub : (s.map.insert (PeerCache.buildKey dn) (sock, now)).toCache.entries.Sublist
        ((PeerCache.buildKey dn, (sock, now)) :: removeKey (PeerCache.buildKey dn) s.map.toCache.entries) := by
      rw [hcache]
      exact Cache.insert_entries_sublist _ _ _
    obtain ⟨hnodup, hcached⟩ := h.cached_of_sublist (List.filter_sublist (l := s.map.toCache.entries))
    -- the socket given back is in the cache under no other key, since a reader held it
    have hnotcached : sock ∉ (removeKey (PeerCache.buildKey dn) s.map.toCache.entries).map fun e => e.2.1 := by
      intro hin
      obtain ⟨⟨k, sock', t⟩, hmem, rfl⟩ := List.mem_map.mp hin
      exact (hcached k _ t hmem).2.2.2 r dn hheld
    refine ⟨hinv, fun k sock' t' hmem' => ?_, ?_, fun r' sock' dn' hr' => h.held r' sock' dn'
      (hheld' r' sock' dn' hr').1, h.exclusive.release r⟩
    · rcases List.mem_cons.mp (hsub.subset hmem') with heq | hmem'
      · cases heq
        refine ⟨hsock, hkey, le_refl _, fun r'' dn'' hr'' => ?_⟩
        obtain ⟨hr'', hne⟩ := hheld' r'' _ dn'' hr''
        exact hne (h.exclusive r'' r sock dn'' dn hr'' hheld)
      · obtain ⟨hlt, hk, ht, hfree⟩ := hcached k sock' t' hmem'
        exact ⟨hlt, hk, Nat.le_trans ht hclock, fun r'' dn'' hr'' => hfree r'' dn'' (hheld' _ _ _ hr'').1⟩
    · refine List.Nodup.sublist (hsub.map _) ?_
      rw [List.map_cons, List.nodup_cons]
      exact ⟨hnotcached, hnodup⟩

/-- Every step keeps the invariant. -/
theorem Inv.step {s s' : PeerSystem R} (h : s.Inv) {e : PeerEvent R} (hs : s.step e = some s') :
    s'.Inv := by
  cases e with
  | newCache m =>
    cases hs
    exact h.newCache _
  | openReader r dn expire now =>
    simp only [PeerSystem.step] at hs
    by_cases hguard : s.readers r ≠ none ∨ now < s.clock
    · rw [if_pos hguard] at hs
      cases hs
    · rw [if_neg hguard] at hs
      have hclock : s.clock ≤ now := Nat.le_of_not_lt fun hlt => hguard (.inr hlt)
      split at hs
      case h_1 sock pc hget =>
        cases hs
        have hsock : (PeerCache.getConnection ⟨s.map, expire⟩ dn now).1 = some sock := by rw [hget]
        have hpc : (PeerCache.getConnection ⟨s.map, expire⟩ dn now).2 = pc := by rw [hget]
        rw [← hpc]
        exact h.openReader_hit hclock hsock
      case h_2 pc hget =>
        cases hs
        have hpc : (PeerCache.getConnection ⟨s.map, expire⟩ dn now).2 = pc := by rw [hget]
        rw [← hpc]
        exact h.openReader_miss hclock
  | closeReader r sentStatus now =>
    simp only [PeerSystem.step] at hs
    split at hs
    case h_1 => cases hs
    case h_2 sock dn hheld =>
      by_cases hguard : now < s.clock
      · rw [if_pos hguard] at hs
        cases hs
      · rw [if_neg hguard] at hs
        cases hs
        exact h.closeReader hheld sentStatus (Nat.le_of_not_lt hguard)

/-- **The sockets are used one at a time.** Over every run of file systems constructing their
caches and of block readers taking and giving back their sockets, no two readers hold one socket,
no socket a reader holds is in the cache, the cached sockets are distinct, and every reader's
socket was connected to a datanode of its datanode's key. -/
theorem run_exclusive {es : List (PeerEvent R)} {s : PeerSystem R}
    (h : Machine.run PeerSystem.step init es = some s) :
    Exclusive s.readers ∧ (∀ k sock t, (k, (sock, t)) ∈ s.map.toCache.entries →
        ∀ r dn, s.readers r ≠ some (sock, dn)) ∧
      (s.map.toCache.entries.map fun e => e.2.1).Nodup ∧
      ∀ r sock dn, s.readers r = some (sock, dn) → s.connectedTo sock = PeerCache.buildKey dn := by
  have hinv := Machine.run_inv Inv (fun _ _ _ hs hstep => hs.step hstep) init_inv h
  exact ⟨hinv.exclusive, fun k sock t hmem => (hinv.cached k sock t hmem).2.2.2, hinv.cached_nodup,
    fun r sock dn hr => (hinv.held r sock dn hr).2⟩

/-- Reader `false` reads from a datanode on a new socket and gives it back; reader `true` then
takes it from the cache, while reader `false` reads again on a new one. -/
def reuseOnce : List (PeerEvent Bool) :=
  let dn : PeerDatanode := ⟨"10.0.0.1".toList, 50010, "dn-1".toList⟩
  [.openReader false dn 3000 0, .closeReader false true 5, .openReader true dn 3000 10,
    .openReader false dn 3000 12]

theorem run_exclusive_on_reused_socket :
    ∃ s, Machine.run PeerSystem.step init reuseOnce = some s ∧
      s.readers true = some (0, ⟨"10.0.0.1".toList, 50010, "dn-1".toList⟩) ∧
      s.readers false = some (1, ⟨"10.0.0.1".toList, 50010, "dn-1".toList⟩) ∧ Exclusive s.readers :=
  ⟨_, rfl, rfl, rfl, (@run_exclusive Bool _ reuseOnce _ rfl).1⟩

end PeerSystem

end HdfsClient
