import HdfsClient.Lib.Machine
import Mathlib.Data.Fintype.Card

/-!
# The pool of RPC channels

`RpcClientImpl` (`rpc/RpcClient.cpp`) keeps one `RpcChannelImpl` for each key (server, protocol,
user and configuration) in `allChannels`, which holds the only reference to the channel object.
Callers (`NamenodeImpl::invoke` and `DatanodeImpl::invoke`) take a channel with `getChannel`,
which counts them in the channel's `refs`. A caller invokes its call on the channel, then gives it
back with `close(immediate)`, which closes the socket when `immediate` is set and no reference is
left. A cleaner thread erases a channel from `allChannels`, which destroys it, once `checkIdle`
finds it without reference, without pending call and idle for too long. `RpcClientImpl::close`
stops the pool and, once no channel has a reference left, clears it.

**The model.** Each locked section of the source is one step: `getChannel` under the client's
`mut`; the connect and `sendRequest` of `invokeInternal`, the reading of a response, `shutdown`
and `close` under the channel's `writeMut`; an iteration of the cleaner, under both. The callers
are the elements of a finite type. A channel's `pendingCalls` holds the call of each caller that
has sent its request and not yet seen the call finished. A step that fails an `assert` of the
source, or that uses a channel after it was destroyed, sets `aborted`.

**Theorem (`run_safe`).** In every interleaving of the callers, the cleaner and `close`, no
`assert` fails and no caller uses a destroyed channel. Every channel a caller holds is in
`allChannels`, and its `refs` is the number of callers that hold it.
-/

namespace HdfsClient

/-- What a caller of the pool is doing: nothing with it, or holding the channel `id` that
`getChannel` gave it, with its call in the channel's `pendingCalls` or not. -/
inductive CallerPhase
  | idle
  | holding (id : Nat) (pending : Bool)
  deriving DecidableEq, Repr

/-- The channel a caller holds. -/
def CallerPhase.heldId : CallerPhase → Option Nat
  | .idle => none
  | .holding id _ => some id

/-- The channel on which the caller has a call pending. -/
def CallerPhase.pendingId : CallerPhase → Option Nat
  | .holding id true => some id
  | _ => none

/-- A channel in `allChannels`: its key, the channel object (`id`), `refs` and `available`. -/
structure PooledChannel (K : Type) where
  key : K
  id : Nat
  refs : Int
  available : Bool
  deriving DecidableEq, Repr

/-- The pool: `running`, `allChannels`, the next channel object to create, what each caller does,
and whether an `assert` has failed or a destroyed channel has been used. -/
structure RpcClientImpl (K T : Type) where
  running : Bool
  allChannels : List (PooledChannel K)
  nextId : Nat
  callers : T → CallerPhase
  aborted : Bool

/-- The steps of the pool. -/
inductive PoolEvent (K T : Type)
  /-- `getChannel` by the caller `t` for `key`. -/
  | getChannel (t : T) (key : K)
  /-- In `invokeInternal`, under `writeMut`: `connect()` when the channel is not `available`, then
  `sendRequest`. -/
  | sendRequest (t : T)
  /-- The response to the call of `t` is read, and its call leaves `pendingCalls`. -/
  | finish (t : T)
  /-- The invoke of `t` fails: `shutdown(lastError)` cancels every pending call of the channel. -/
  | shutdown (t : T)
  /-- `channel.close(immediate)`, once the invoke of `t` has returned. -/
  | close (t : T) (immediate : Bool)
  /-- An iteration of the cleaner over the channel of `key`: `checkIdle()`, where `expired` says
  that the channel has been idle for `rpc.client.max.idle` or that its ping failed. -/
  | clean (key : K) (expired : Bool)
  /-- `RpcClientImpl::close()` sets `running` to `false`, ... -/
  | stop
  /-- ... and, once `waitForExit()` finds no reference left on any channel, clears `allChannels`. -/
  | clear

namespace RpcClientImpl

variable {K T : Type} [DecidableEq K] [DecidableEq T] [Fintype T]

/-- The client before its first channel. -/
def init : RpcClientImpl K T := ⟨true, [], 0, fun _ => .idle, false⟩

/-- The channel object `id`, if it is still in `allChannels`. -/
def channel (s : RpcClientImpl K T) (id : Nat) : Option (PooledChannel K) :=
  s.allChannels.find? fun c => c.id = id

/-- Change the channel object `id`. -/
def modify (s : RpcClientImpl K T) (id : Nat) (f : PooledChannel K → PooledChannel K) :
    List (PooledChannel K) :=
  s.allChannels.map fun c => if c.id = id then f c else c

/-- Whether a call of some caller is in the `pendingCalls` of the channel `id`. -/
def pendingOn (s : RpcClientImpl K T) (id : Nat) : Prop := ∃ t, (s.callers t).pendingId = some id

instance (s : RpcClientImpl K T) (id : Nat) : Decidable (s.pendingOn id) :=
  inferInstanceAs (Decidable (∃ t, (s.callers t).pendingId = some id))

/-- A failed `assert`, or a use of a destroyed channel. -/
def abort (s : RpcClientImpl K T) : RpcClientImpl K T := { s with aborted := true }

/-- The caller `t` moves to `ph`. -/
def setCaller (s : RpcClientImpl K T) (t : T) (ph : CallerPhase) : T → CallerPhase :=
  Function.update s.callers t ph

/-- One step; `none` when the event cannot happen. -/
def step (s : RpcClientImpl K T) : PoolEvent K T → Option (RpcClientImpl K T)
  | .getChannel t key =>
    if s.callers t ≠ .idle then none
    -- a closing client throws `HdfsRpcException`
    else if !s.running then some s
    else
      match s.allChannels.find? fun c => c.key = key with
      | some c =>
        some { s with allChannels := s.modify c.id fun c => { c with refs := c.refs + 1 }
                      callers := s.setCaller t (.holding c.id false) }
      | none =>
        some { s with allChannels := s.allChannels ++ [⟨key, s.nextId, 1, false⟩]
                      nextId := s.nextId + 1
                      callers := s.setCaller t (.holding s.nextId false) }
  | .sendRequest t =>
    match s.callers t with
    | .holding id false =>
      match s.channel id with
      | none => some s.abort
      | some c =>
        -- `assert(refs > 0)` of `invoke`
        if c.refs ≤ 0 then some s.abort
        else some { s with allChannels := s.modify id fun c => { c with available := true }
                           callers := s.setCaller t (.holding id true) }
    | _ => none
  | .finish t =>
    match s.callers t with
    | .holding id true =>
      match s.channel id with
      | none => some s.abort
      | some _ => some { s with callers := s.setCaller t (.holding id false) }
    | _ => none
  | .shutdown t =>
    match s.callers t with
    | .holding id _ =>
      match s.channel id with
      | none => some s.abort
      | some _ =>
        some { s with
          allChannels := s.modify id fun c => { c with available := false }
          callers := fun u => match s.callers u with
            | .holding id' _ => if id' = id then .holding id' false else s.callers u
            | .idle => .idle }
    | .idle => none
  | .close t immediate =>
    match s.callers t with
    | .holding id false =>
      match s.channel id with
      | none => some s.abort
      | some c =>
        -- `assert(refs >= 0)`, and `assert(pendingCalls.empty())` before the socket is closed
        if c.refs - 1 < 0 then some s.abort
        else if immediate = true ∧ c.refs - 1 = 0 ∧ s.pendingOn id then some s.abort
        else
          some { s with
            allChannels := s.modify id fun c =>
              { c with refs := c.refs - 1
                       available := if immediate = true ∧ c.refs - 1 = 0 then false else c.available }
            callers := s.setCaller t .idle }
    | _ => none
  | .clean key expired =>
    -- the cleaner's loop ends once the client is closing
    if !s.running then some s
    else
      match s.allChannels.find? fun c => c.key = key with
      | none => some s
      | some c =>
        if s.pendingOn c.id ∨ c.refs > 0 then some s
        else if expired then some { s with allChannels := s.allChannels.filter fun c' => c'.id ≠ c.id }
        else some s
  | .stop => some { s with running := false }
  | .clear =>
    if s.running ∨ ∃ c ∈ s.allChannels, c.refs ≠ 0 then none
    -- `assert(pendingCalls.empty())` of `waitForExit` and of the destructor
    else if ∃ c ∈ s.allChannels, s.pendingOn c.id then some s.abort
    else some { s with allChannels := [] }

/-! ## The callers that hold a channel -/

/-- The callers holding the channel `id`. -/
def holders (callers : T → CallerPhase) (id : Nat) : Finset T :=
  Finset.univ.filter fun t => (callers t).heldId = some id

omit [DecidableEq T] in
theorem mem_holders {callers : T → CallerPhase} {id : Nat} {t : T} :
    t ∈ holders callers id ↔ (callers t).heldId = some id := by
  simp [holders]

/-- A caller that changes its phase joins or leaves the holders of a channel. -/
theorem holders_update (callers : T → CallerPhase) (t : T) (ph : CallerPhase) (id : Nat) :
    holders (Function.update callers t ph) id =
      if ph.heldId = some id then insert t ((holders callers id).erase t)
      else (holders callers id).erase t := by
  ext u
  by_cases hu : u = t
  · subst hu
    split_ifs with h <;> simp [mem_holders, h]
  · split_ifs <;> simp [mem_holders, hu]

/-- The invariant: nothing has aborted; a held channel is in `allChannels`, whose objects are
distinct and older than `nextId`; and a channel's `refs` counts its holders. -/
structure Inv (s : RpcClientImpl K T) : Prop where
  not_aborted : s.aborted = false
  held_live : ∀ t id, (s.callers t).heldId = some id → ∃ c ∈ s.allChannels, c.id = id
  ids_nodup : (s.allChannels.map (·.id)).Nodup
  ids_lt : ∀ c ∈ s.allChannels, c.id < s.nextId
  refs_eq : ∀ c ∈ s.allChannels, c.refs = (holders s.callers c.id).card

/-! ## What each step keeps -/

section Steps

variable {s s' : RpcClientImpl K T}

omit [DecidableEq K] [DecidableEq T] [Fintype T] in
theorem heldId_of_pendingId {ph : CallerPhase} {id : Nat} (h : ph.pendingId = some id) :
    ph.heldId = some id := by
  cases ph with
  | idle => cases h
  | holding id' pending =>
    cases pending
    · cases h
    · exact h

omit [DecidableEq K] [DecidableEq T] [Fintype T] in
theorem channel_eq_some {id : Nat} {c : PooledChannel K} (h : s.channel id = some c) :
    c ∈ s.allChannels ∧ c.id = id := by
  unfold channel at h
  exact ⟨List.mem_of_find?_eq_some h, by simpa using List.find?_some h⟩

omit [DecidableEq K] [DecidableEq T] [Fintype T] in
theorem channel_ne_none {id : Nat} {c : PooledChannel K} (hc : c ∈ s.allChannels) (hid : c.id = id) :
    s.channel id ≠ none := by
  unfold channel
  rw [Ne, List.find?_eq_none]
  simpa using ⟨c, hc, hid⟩

omit [DecidableEq K] [DecidableEq T] [Fintype T] in
theorem mem_modify {id : Nat} {f : PooledChannel K → PooledChannel K} {c' : PooledChannel K} :
    c' ∈ s.modify id f ↔ ∃ c ∈ s.allChannels, c' = if c.id = id then f c else c := by
  simp [modify, eq_comm]

omit [DecidableEq K] [DecidableEq T] [Fintype T] in
theorem ids_modify {id : Nat} {f : PooledChannel K → PooledChannel K} (hf : ∀ c, (f c).id = c.id) :
    (s.modify id f).map (·.id) = s.allChannels.map (·.id) := by
  simp only [modify, List.map_map]
  congr 1
  funext c
  simp only [Function.comp_apply]
  split_ifs <;> simp [hf]

omit [DecidableEq K] [DecidableEq T] in
theorem Inv.ids_nodup_modify (h : Inv s) {id : Nat} {f : PooledChannel K → PooledChannel K}
    (hf : ∀ c, (f c).id = c.id) : ((s.modify id f).map (·.id)).Nodup := by
  rw [ids_modify hf]
  exact h.ids_nodup

omit [DecidableEq K] [DecidableEq T] in
theorem Inv.ids_lt_modify (h : Inv s) {id : Nat} {f : PooledChannel K → PooledChannel K}
    (hf : ∀ c, (f c).id = c.id) : ∀ c ∈ s.modify id f, c.id < s.nextId := by
  intro c' hc'
  obtain ⟨c, hc, rfl⟩ := mem_modify.1 hc'
  split_ifs <;> simp [hf, h.ids_lt c hc]

omit [DecidableEq K] [DecidableEq T] in
/-- A held channel has a reference for each holder, one at least. -/
theorem Inv.refs_pos (h : Inv s) {t : T} {id : Nat} (ht : (s.callers t).heldId = some id)
    {c : PooledChannel K} (hc : c ∈ s.allChannels) (hid : c.id = id) : 0 < c.refs := by
  rw [h.refs_eq c hc]
  have : t ∈ holders s.callers c.id := mem_holders.2 (hid ▸ ht)
  exact_mod_cast Finset.card_pos.2 ⟨t, this⟩

omit [DecidableEq K] [DecidableEq T] in
/-- The channel of a holder is found by its object. -/
theorem Inv.channel_of_held (h : Inv s) {t : T} {id : Nat} (ht : (s.callers t).heldId = some id) :
    ∃ c, s.channel id = some c ∧ c ∈ s.allChannels ∧ c.id = id ∧ 0 < c.refs := by
  obtain ⟨c₀, hc₀, hid₀⟩ := h.held_live t id ht
  cases hch : s.channel id with
  | none => exact absurd hch (channel_ne_none hc₀ hid₀)
  | some c =>
    obtain ⟨hc, hid⟩ := channel_eq_some hch
    exact ⟨c, rfl, hc, hid, h.refs_pos ht hc hid⟩

omit [DecidableEq K] [DecidableEq T] in
/-- A step that keeps every caller's channel, and changes channels only in what is neither their
object nor their references, keeps the invariant. -/
theorem Inv.of_same_holders (h : Inv s) {id : Nat} {f : PooledChannel K → PooledChannel K}
    (hf : ∀ c, (f c).id = c.id ∧ (f c).refs = c.refs) (hab : s'.aborted = false)
    (hch : s'.allChannels = s.modify id f) (hnext : s'.nextId = s.nextId)
    (hheld : ∀ u, (s'.callers u).heldId = (s.callers u).heldId) : Inv s' := by
  have hhold : ∀ id, holders s'.callers id = holders s.callers id := fun id => by
    ext u
    simp [mem_holders, hheld u]
  refine ⟨hab, ?_, ?_, ?_, ?_⟩
  · intro t id' ht
    obtain ⟨c, hc, hid⟩ := h.held_live t id' (hheld t ▸ ht)
    refine ⟨if c.id = id then f c else c, hch ▸ mem_modify.2 ⟨c, hc, rfl⟩, ?_⟩
    split_ifs <;> simp [(hf c).1, hid]
  · rw [hch, ids_modify fun c => (hf c).1]
    exact h.ids_nodup
  · intro c' hc'
    obtain ⟨c, hc, rfl⟩ := mem_modify.1 (hch ▸ hc')
    rw [hnext]
    split_ifs <;> simp [(hf c).1, h.ids_lt c hc]
  · intro c' hc'
    obtain ⟨c, hc, rfl⟩ := mem_modify.1 (hch ▸ hc')
    have := h.refs_eq c hc
    split_ifs <;> simp [(hf c).1, (hf c).2, hhold, this]

/-- An idle caller that takes a channel joins its holders, and no other. -/
theorem holders_update_of_idle {callers : T → CallerPhase} {t : T} (ht : callers t = .idle)
    (ph : CallerPhase) (id : Nat) :
    holders (Function.update callers t ph) id =
      if ph.heldId = some id then insert t (holders callers id) else holders callers id := by
  have hnot : t ∉ holders callers id := by simp [mem_holders, ht, CallerPhase.heldId]
  rw [holders_update, Finset.erase_eq_of_notMem hnot]

omit [DecidableEq K] [DecidableEq T] [Fintype T] in
theorem modify_self (id : Nat) : s.modify id (fun c => c) = s.allChannels := by
  simp [modify]

omit [DecidableEq K] in
theorem Inv.getChannel_found (h : Inv s) {t : T} (ht : s.callers t = .idle) {c : PooledChannel K}
    (hc : c ∈ s.allChannels) :
    Inv { s with allChannels := s.modify c.id fun c => { c with refs := c.refs + 1 }
                 callers := s.setCaller t (.holding c.id false) } := by
  refine ⟨h.not_aborted, ?_, ?_, ?_, ?_⟩
  · intro u id hu
    by_cases hut : u = t
    · subst hut
      simp only [setCaller, Function.update_self, CallerPhase.heldId, Option.some.injEq] at hu
      exact ⟨_, mem_modify.2 ⟨c, hc, rfl⟩, by simp [hu]⟩
    · simp only [setCaller, Function.update_of_ne hut] at hu
      obtain ⟨c₀, hc₀, hid⟩ := h.held_live u id hu
      exact ⟨_, mem_modify.2 ⟨c₀, hc₀, rfl⟩, by split_ifs <;> simp [hid]⟩
  · exact h.ids_nodup_modify (by intro _; rfl)
  · exact h.ids_lt_modify (by intro _; rfl)
  · intro c' hc'
    obtain ⟨c₀, hc₀, rfl⟩ := mem_modify.1 hc'
    simp only [setCaller, holders_update_of_idle ht, CallerPhase.heldId, Option.some.injEq]
    have hnot : t ∉ holders s.callers c₀.id := by simp [mem_holders, ht, CallerPhase.heldId]
    -- the channel taken counts one more holder; the others keep theirs
    by_cases hid : c₀.id = c.id
    · simp only [hid, if_true]
      rw [Finset.card_insert_of_notMem (hid ▸ hnot), ← hid, h.refs_eq c₀ hc₀]
      push_cast
      rfl
    · simp only [hid, if_false, Ne.symm hid]
      exact h.refs_eq c₀ hc₀

omit [DecidableEq K] in
theorem Inv.getChannel_created (h : Inv s) {t : T} (ht : s.callers t = .idle) (key : K) :
    Inv { s with allChannels := s.allChannels ++ [⟨key, s.nextId, 1, false⟩]
                 nextId := s.nextId + 1
                 callers := s.setCaller t (.holding s.nextId false) } := by
  -- nobody holds the object about to be created
  have hfresh : holders s.callers s.nextId = ∅ := by
    ext u
    simp only [Finset.notMem_empty, iff_false, mem_holders]
    intro hu
    obtain ⟨c, hc, hid⟩ := h.held_live u _ hu
    exact absurd (h.ids_lt c hc) (by omega)
  refine ⟨h.not_aborted, ?_, ?_, ?_, ?_⟩
  · intro u id hu
    by_cases hut : u = t
    · subst hut
      simp only [setCaller, Function.update_self, CallerPhase.heldId, Option.some.injEq] at hu
      exact ⟨_, List.mem_append_right _ (List.mem_singleton_self _), hu⟩
    · simp only [setCaller, Function.update_of_ne hut] at hu
      obtain ⟨c, hc, hid⟩ := h.held_live u id hu
      exact ⟨c, List.mem_append_left _ hc, hid⟩
  · rw [List.map_append, List.nodup_append]
    refine ⟨h.ids_nodup, List.nodup_singleton _, ?_⟩
    intro a ha b hb
    obtain ⟨c, hc, rfl⟩ := List.mem_map.1 ha
    simp only [List.map_cons, List.map_nil, List.mem_singleton] at hb
    have := h.ids_lt c hc
    omega
  · intro c hc
    show c.id < s.nextId + 1
    rcases List.mem_append.1 hc with hc | hc
    · have := h.ids_lt c hc
      omega
    · rw [List.mem_singleton.1 hc]
      exact Nat.lt_succ_self _
  · intro c hc
    simp only [setCaller, holders_update_of_idle ht, CallerPhase.heldId, Option.some.injEq]
    rcases List.mem_append.1 hc with hc | hc
    · have hne : s.nextId ≠ c.id := by
        have := h.ids_lt c hc
        omega
      rw [if_neg hne]
      exact h.refs_eq c hc
    · rw [List.mem_singleton.1 hc, if_pos rfl, hfresh]
      rfl

omit [DecidableEq K] in
theorem Inv.close (h : Inv s) {t : T} {id : Nat} (ht : s.callers t = .holding id false)
    (immediate : Bool) :
    Inv { s with
      allChannels := s.modify id fun c =>
        { c with refs := c.refs - 1
                 available := if immediate = true ∧ c.refs - 1 = 0 then false else c.available }
      callers := s.setCaller t .idle } := by
  have hmem : t ∈ holders s.callers id := by simp [mem_holders, ht, CallerPhase.heldId]
  refine ⟨h.not_aborted, ?_, ?_, ?_, ?_⟩
  · intro u id' hu
    have hut : u ≠ t := by
      rintro rfl
      simp [setCaller, CallerPhase.heldId] at hu
    simp only [setCaller, Function.update_of_ne hut] at hu
    obtain ⟨c₀, hc₀, hid₀⟩ := h.held_live u id' hu
    exact ⟨_, mem_modify.2 ⟨c₀, hc₀, rfl⟩, by split_ifs <;> simp [hid₀]⟩
  · exact h.ids_nodup_modify (by intro _; rfl)
  · exact h.ids_lt_modify (by intro _; rfl)
  · intro c' hc'
    obtain ⟨c₀, hc₀, rfl⟩ := mem_modify.1 hc'
    simp only [setCaller, holders_update, CallerPhase.heldId, reduceCtorEq, if_false]
    -- the channel given back counts one holder less; the others keep theirs
    by_cases h₀ : c₀.id = id
    · simp only [h₀, if_true]
      rw [Finset.card_erase_of_mem hmem, ← h₀, h.refs_eq c₀ hc₀, h₀]
      have := Finset.card_pos.2 ⟨t, hmem⟩
      omega
    · have hnot : t ∉ holders s.callers c₀.id := by
        simp only [mem_holders, ht, CallerPhase.heldId, Option.some.injEq]
        exact fun h' => h₀ h'.symm
      simp only [h₀, if_false]
      rw [Finset.erase_eq_of_notMem hnot]
      exact h.refs_eq c₀ hc₀

omit [DecidableEq K] [DecidableEq T] in
/-- The cleaner erases only a channel that nobody holds. -/
theorem Inv.clean (h : Inv s) {c : PooledChannel K} (hc : c ∈ s.allChannels) (hrefs : ¬c.refs > 0) :
    Inv { s with allChannels := s.allChannels.filter fun c' => c'.id ≠ c.id } := by
  have hnone : holders s.callers c.id = ∅ := by
    rw [← Finset.card_eq_zero]
    have := h.refs_eq c hc
    omega
  refine ⟨h.not_aborted, ?_, ?_, ?_, ?_⟩
  · intro u id hu
    obtain ⟨c₀, hc₀, hid⟩ := h.held_live u id hu
    refine ⟨c₀, List.mem_filter.2 ⟨hc₀, ?_⟩, hid⟩
    have hne : c₀.id ≠ c.id := by
      rintro heq
      have : u ∈ holders s.callers c.id := mem_holders.2 (heq ▸ hid ▸ hu)
      rw [hnone] at this
      exact Finset.notMem_empty u this
    simpa using hne
  · exact (List.filter_sublist.map _).nodup h.ids_nodup
  · exact fun c' hc' => h.ids_lt c' (List.mem_of_mem_filter hc')
  · exact fun c' hc' => h.refs_eq c' (List.mem_of_mem_filter hc')

omit [DecidableEq K] [DecidableEq T] in
/-- `clear` finds no channel held. -/
theorem Inv.clear (h : Inv s) (hrefs : ∀ c ∈ s.allChannels, c.refs = 0) :
    Inv ({ s with allChannels := [] } : RpcClientImpl K T) := by
  refine ⟨h.not_aborted, ?_, by simp, by simp, by simp⟩
  intro u id hu
  obtain ⟨c, hc, hid⟩ := h.held_live u id hu
  have := h.refs_pos hu hc hid
  rw [hrefs c hc] at this
  exact absurd this (lt_irrefl 0)

omit [DecidableEq K] [DecidableEq T] in
/-- A pending call is a call of a holder, so it holds a reference. -/
theorem Inv.refs_pos_of_pendingOn (h : Inv s) {id : Nat} (hp : s.pendingOn id) {c : PooledChannel K}
    (hc : c ∈ s.allChannels) (hid : c.id = id) : 0 < c.refs := by
  obtain ⟨u, hu⟩ := hp
  exact h.refs_pos (heldId_of_pendingId hu) hc hid

omit [DecidableEq K] [DecidableEq T] [Fintype T] in
/-- The callers after `shutdown`: every call pending on the channel is cancelled. -/
theorem heldId_shutdown (callers : T → CallerPhase) (id : Nat) (u : T) :
    (match callers u with
      | .holding id' _ => if id' = id then .holding id' false else callers u
      | .idle => .idle : CallerPhase).heldId = (callers u).heldId := by
  cases hu : callers u with
  | idle => rfl
  | holding id' p =>
    dsimp only
    split_ifs <;> simp [CallerPhase.heldId]

/-- **Every step keeps the invariant**; in particular no step of an invariant state aborts. -/
theorem Inv.step (h : Inv s) {e : PoolEvent K T} (hs : step s e = some s') : Inv s' := by
  cases e with
  | getChannel t key =>
    simp only [RpcClientImpl.step] at hs
    split_ifs at hs with hidle hrun
    · cases hs
      exact h
    · rw [not_not] at hidle
      split at hs
      case h_1 c hfind =>
        cases hs
        exact h.getChannel_found hidle (List.mem_of_find?_eq_some hfind)
      case h_2 =>
        cases hs
        exact h.getChannel_created hidle key
  | sendRequest t =>
    simp only [RpcClientImpl.step] at hs
    split at hs
    case h_1 id ht =>
      have hheld : (s.callers t).heldId = some id := by simp [ht, CallerPhase.heldId]
      obtain ⟨c, hch, -, -, hpos⟩ := h.channel_of_held hheld
      rw [hch] at hs
      dsimp only at hs
      rw [if_neg (by omega)] at hs
      cases hs
      refine h.of_same_holders (by intro _; exact ⟨rfl, rfl⟩) h.not_aborted rfl rfl fun u => ?_
      by_cases hut : u = t
      · subst hut
        simp [setCaller, ht, CallerPhase.heldId]
      · simp [setCaller, Function.update_of_ne hut]
    case h_2 => cases hs
  | finish t =>
    simp only [RpcClientImpl.step] at hs
    split at hs
    case h_1 id ht =>
      have hheld : (s.callers t).heldId = some id := by simp [ht, CallerPhase.heldId]
      obtain ⟨c, hch, -⟩ := h.channel_of_held hheld
      rw [hch] at hs
      cases hs
      refine h.of_same_holders (by intro _; exact ⟨rfl, rfl⟩) h.not_aborted (modify_self id).symm rfl
        fun u => ?_
      by_cases hut : u = t
      · subst hut
        simp [setCaller, ht, CallerPhase.heldId]
      · simp [setCaller, Function.update_of_ne hut]
    case h_2 => cases hs
  | shutdown t =>
    simp only [RpcClientImpl.step] at hs
    split at hs
    case h_1 id p ht =>
      have hheld : (s.callers t).heldId = some id := by simp [ht, CallerPhase.heldId]
      obtain ⟨c, hch, -⟩ := h.channel_of_held hheld
      rw [hch] at hs
      cases hs
      exact h.of_same_holders (by intro _; exact ⟨rfl, rfl⟩) h.not_aborted rfl rfl
        (heldId_shutdown s.callers id)
    case h_2 => cases hs
  | close t immediate =>
    simp only [RpcClientImpl.step] at hs
    split at hs
    case h_1 id ht =>
      have hheld : (s.callers t).heldId = some id := by simp [ht, CallerPhase.heldId]
      obtain ⟨c, hch, hc, hid, hpos⟩ := h.channel_of_held hheld
      rw [hch] at hs
      dsimp only at hs
      rw [if_neg (by omega)] at hs
      -- the socket is closed only once the caller's own reference was the last
      have hlast : ¬(immediate = true ∧ c.refs - 1 = 0 ∧ s.pendingOn id) := by
        rintro ⟨-, hzero, u, hu⟩
        have hone : (holders s.callers id).card = 1 := by
          have := h.refs_eq c hc
          rw [hid] at this
          omega
        obtain ⟨v, hv⟩ := Finset.card_eq_one.1 hone
        have htv : t = v := Finset.mem_singleton.1 (hv ▸ mem_holders.2 hheld)
        have huv : u = v := Finset.mem_singleton.1 (hv ▸ mem_holders.2 (heldId_of_pendingId hu))
        rw [← htv] at huv
        subst huv
        simp [ht, CallerPhase.pendingId] at hu
      rw [if_neg hlast] at hs
      cases hs
      exact h.close ht immediate
    case h_2 => cases hs
  | clean key expired =>
    simp only [RpcClientImpl.step] at hs
    by_cases hrun : (!s.running) = true
    · rw [if_pos hrun] at hs
      cases hs
      exact h
    · rw [if_neg hrun] at hs
      split at hs
      case h_1 => cases hs; exact h
      case h_2 c hfind =>
        by_cases hbusy : s.pendingOn c.id ∨ c.refs > 0
        · rw [if_pos hbusy] at hs
          cases hs
          exact h
        · rw [if_neg hbusy] at hs
          cases expired
          · cases hs
            exact h
          · cases hs
            exact h.clean (List.mem_of_find?_eq_some hfind) (fun hpos => hbusy (.inr hpos))
  | stop =>
    simp only [RpcClientImpl.step, Option.some.injEq] at hs
    subst hs
    exact { h with }
  | clear =>
    simp only [RpcClientImpl.step] at hs
    split_ifs at hs with hbusy hpend
    · -- a pending call would hold a reference, and every channel has none
      obtain ⟨c, hc, hp⟩ := hpend
      have := h.refs_pos_of_pendingOn hp hc rfl
      simp only [not_or, not_exists, not_and, not_not] at hbusy
      rw [hbusy.2 c hc] at this
      exact absurd this (lt_irrefl 0)
    · cases hs
      simp only [not_or, not_exists, not_and, not_not] at hbusy
      exact h.clear hbusy.2

omit [DecidableEq K] [DecidableEq T] in
theorem init_inv : Inv (init : RpcClientImpl K T) :=
  ⟨rfl, fun _ _ h => (by cases h), List.nodup_nil, fun _ h => (by cases h), fun _ h => (by cases h)⟩

end Steps

/-- **The pool is safe.** In every interleaving of callers taking, using and giving back channels,
of the cleaner and of `close`, no `assert` fails and no destroyed channel is used; every channel a
caller holds is in `allChannels`, and its `refs` is the number of callers holding it. -/
theorem run_safe {es : List (PoolEvent K T)} {s : RpcClientImpl K T}
    (h : Machine.run step init es = some s) :
    s.aborted = false ∧ (∀ t id, (s.callers t).heldId = some id → ∃ c ∈ s.allChannels, c.id = id) ∧
      ∀ c ∈ s.allChannels, c.refs = (holders s.callers c.id).card := by
  have hinv : Inv s := Machine.run_inv Inv (fun _ _ _ hs hstep => hs.step hstep) init_inv h
  exact ⟨hinv.not_aborted, hinv.held_live, hinv.refs_eq⟩

/-- Two callers share the channel of one server. The first sends its call and gives the channel
back; the second gives it back at once, which closes the socket; the cleaner then destroys it. -/
def twoCallers : List (PoolEvent Unit (Fin 2)) :=
  [.getChannel 0 (), .getChannel 1 (), .sendRequest 0, .finish 0, .close 0 false, .close 1 true,
    .clean () true]

theorem run_safe_on_two_callers :
    ∃ s : RpcClientImpl Unit (Fin 2), Machine.run step init twoCallers = some s ∧
      s.aborted = false ∧
      (∀ t id, (s.callers t).heldId = some id → ∃ c ∈ s.allChannels, c.id = id) ∧
      ∀ c ∈ s.allChannels, c.refs = (holders s.callers c.id).card := by
  obtain ⟨s, hrun⟩ : ∃ s, Machine.run step (init : RpcClientImpl Unit (Fin 2)) twoCallers = some s :=
    ⟨_, rfl⟩
  exact ⟨s, hrun, run_safe hrun⟩

end RpcClientImpl

end HdfsClient
