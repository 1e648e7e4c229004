import HdfsClient.Lib.Machine
import Mathlib.Data.List.AList

/-!
# Matching RPC responses to calls

`RpcChannelImpl` (`rpc/RpcChannel.cpp`) keeps the calls it has sent and not yet seen answered in
`pendingCalls`, keyed by call id. The ids come from `RpcClientImpl::getCallId`, one counter for
all the channels of a client, which wraps to `0` at `INT32_MAX`. `readOneResponse` takes the call
of a SUCCESS or ERROR response out of `pendingCalls` and finishes it. A response with an id that
`pendingCalls` does not hold makes `getPendingCall` throw, and a FATAL response throws too; the
exception reaches `invoke`, which calls `shutdown`, and `cleanupPendingCalls` cancels every
pending call.

The model is a machine whose steps are `sendRequest` (with the `getCallId` of `invoke`), a
`getCallId` for a call on another channel, `readOneResponse` (with whether the body of a SUCCESS
parses), and `shutdown`. Each call records, as a ghost, how many ids the client had handed out
when it got its own (`issuedAt`).

* `Inv` — `pendingCalls` holds unfinished calls under their own ids, and every id is its call's
  `issuedAt` modulo `INT32_MAX`; `run_inv` — every run keeps it.
* `readOneResponse_of_lookup`, `readOneResponse_of_unmatched`, `Inv.shutdown_cancels` — a
  response finishes the call `pendingCalls` holds under its id and only it; any other response
  shuts the channel down, which cancels every call of `pendingCalls`.
* `Inv.run_keepsFinished` — a finished call never changes again.
* `Inv.int32Max_le_of_identity_eq` — two calls share an id only if `INT32_MAX` ids were handed out
  between them, and `callId_collides_with_two_outstanding` — that happens with two calls
  outstanding, and the second hides the first from every response.
-/

namespace HdfsClient

/-- `std::numeric_limits<int32_t>::max()`. -/
def int32Max : Nat := 2147483647

/-- `RpcClientImpl::getCallId()`: the counter moves on and wraps to `0` at `INT32_MAX`; the new
counter is the id. -/
def getCallId (count : Nat) : Nat :=
  if count + 1 < int32Max then count + 1 else 0

/-- The ids the channel uses for its own messages: `CONNECTION_CONTEXT_CALL_ID`, `PING_CALL_ID`
and `AuthProtocol::SASL`. -/
def reservedCallIds : List Int := [-3, -4, -33]

/-- Whether a call is finished: by `done()` or by `cancel(reason)`. -/
inductive CallStatus
  | pending
  | done
  | cancelled
  deriving DecidableEq, Repr

/-- A call sent on the channel: its id, the number of ids the client had handed out when it got
it (a ghost), and its status. -/
structure RpcRemoteCall where
  identity : Int
  issuedAt : Nat
  status : CallStatus
  deriving DecidableEq, Repr

/-- The status a response reports. -/
inductive RpcStatus
  | success
  | error
  | fatal
  deriving DecidableEq, Repr

/-- The events of the machine. -/
inductive RpcEvent
  /-- `invoke` takes an id from `getCallId` and sends its call. -/
  | sendRequest
  /-- The client hands an id to a call on another of its channels. -/
  | callIdElsewhere
  /-- `readOneResponse` reads a response; `bodyParses` says whether a SUCCESS body parses. -/
  | response (status : RpcStatus) (callid : Int) (bodyParses : Bool)
  /-- An error of the channel (I/O, timeout, the client closing) ends in `shutdown`. -/
  | shutdown

/-- The channel: the client's id counter, the number of ids it has handed out (a ghost), the
calls sent, `pendingCalls` from id to the position of its call, and `available`. -/
structure RpcChannelImpl where
  count : Nat
  issued : Nat
  calls : List RpcRemoteCall
  pendingCalls : AList fun _ : Int => Nat
  available : Bool

namespace RpcChannelImpl

def init : RpcChannelImpl := ⟨0, 0, [], ∅, false⟩

/-- Finish call `i` with the status `st`. -/
def setStatus (calls : List RpcRemoteCall) (i : Nat) (st : CallStatus) : List RpcRemoteCall :=
  calls.modify i fun c => { c with status := st }

/-- The positions of the calls in `pendingCalls`. -/
def pendingIndices (s : RpcChannelImpl) : List Nat := s.pendingCalls.entries.map Sigma.snd

/-- `shutdown(reason)`: `available = false`, and `cleanupPendingCalls` cancels every call of
`pendingCalls` and clears it. -/
def shutdown (s : RpcChannelImpl) : RpcChannelImpl :=
  { s with
    available := false
    calls := s.calls.mapIdx fun j c => if j ∈ s.pendingIndices then { c with status := .cancelled }
      else c
    pendingCalls := ∅ }

/-- `getCallId()` in `invoke`, then `sendRequest(remote)`: connect if needed, send, and put the
call in `pendingCalls` under its id. -/
def sendRequest (s : RpcChannelImpl) : RpcChannelImpl :=
  let id := getCallId s.count
  { s with
    count := id
    issued := s.issued + 1
    calls := s.calls ++ [⟨id, s.issued + 1, .pending⟩]
    pendingCalls := s.pendingCalls.insert (id : Int) s.calls.length
    available := true }

/-- `getPendingCall(id)`: take the call out of `pendingCalls`; `none` where the source throws
"RPC channel cannot find pending call". -/
def getPendingCall (s : RpcChannelImpl) (id : Int) : Option (Nat × RpcChannelImpl) :=
  (s.pendingCalls.lookup id).map fun i => (i, { s with pendingCalls := s.pendingCalls.erase id })

/-- `readOneResponse` after the header: a SUCCESS finishes its call once the body parses, an
ERROR cancels its call; a missing call, a body that does not parse and a FATAL status throw, and
the channel is shut down. -/
def readOneResponse (s : RpcChannelImpl) (status : RpcStatus) (callid : Int) (bodyParses : Bool) :
    RpcChannelImpl :=
  match status with
  | .success =>
    match s.getPendingCall callid with
    | some (i, s) => if bodyParses then { s with calls := setStatus s.calls i .done } else s.shutdown
    | none => s.shutdown
  | .error =>
    match s.getPendingCall callid with
    | some (i, s) => { s with calls := setStatus s.calls i .cancelled }
    | none => s.shutdown
  | .fatal => s.shutdown

/-- One step; responses arrive only on an open channel. -/
def step (s : RpcChannelImpl) : RpcEvent → Option RpcChannelImpl
  | .sendRequest => some s.sendRequest
  | .callIdElsewhere => some { s with count := getCallId s.count, issued := s.issued + 1 }
  | .response status callid bodyParses =>
    if s.available then some (s.readOneResponse status callid bodyParses) else none
  | .shutdown => some s.shutdown

end RpcChannelImpl

/-! ## The id counter -/

/-- After `n` ids from a fresh counter, the counter is `n` modulo `INT32_MAX`. -/
theorem getCallId_mod (n : Nat) : getCallId (n % int32Max) = (n + 1) % int32Max := by
  unfold getCallId int32Max
  split <;> omega

/-- Ids are never negative, so never a reserved one. -/
theorem natCast_not_mem_reservedCallIds (n : Nat) : (n : Int) ∉ reservedCallIds := by
  simp only [reservedCallIds, List.mem_cons, List.not_mem_nil, or_false]
  omega

namespace RpcChannelImpl

/-! ## Steps, field by field -/

/-- What a call keeps for good: its id and when it got it. -/
def stamp (c : RpcRemoteCall) : Int × Nat := (c.identity, c.issuedAt)

theorem map_stamp_setStatus (calls : List RpcRemoteCall) (i : Nat) (st : CallStatus) :
    (setStatus calls i st).map stamp = calls.map stamp := by
  apply List.ext_getElem (by simp [setStatus])
  intro j h₁ h₂
  simp only [setStatus, List.getElem_map, List.getElem_modify]
  split <;> rfl

@[simp] theorem shutdown_calls_length (s : RpcChannelImpl) :
    s.shutdown.calls.length = s.calls.length := by
  simp [shutdown]

theorem map_stamp_shutdown (s : RpcChannelImpl) : s.shutdown.calls.map stamp = s.calls.map stamp := by
  apply List.ext_getElem (by simp [shutdown])
  intro j h₁ h₂
  simp only [shutdown, List.getElem_map, List.getElem_mapIdx]
  split <;> rfl

theorem getElem_setStatus_of_ne {calls : List RpcRemoteCall} {i j : Nat} (st : CallStatus)
    (hij : i ≠ j) (hj : j < calls.length) (hj' : j < (setStatus calls i st).length) :
    (setStatus calls i st)[j] = calls[j] := by
  simp [setStatus, hij]

/-- A list of calls with the same stamps has the same ids and issue numbers. -/
theorem forall_mem_of_stamps {l l' : List RpcRemoteCall} (h : l'.map stamp = l.map stamp)
    {P : Int × Nat → Prop} (hl : ∀ c ∈ l, P (stamp c)) : ∀ c ∈ l', P (stamp c) := by
  intro c hc
  obtain ⟨c', hc', hst⟩ := List.mem_map.mp (h ▸ List.mem_map_of_mem hc)
  exact hst ▸ hl c' hc'

/-! ## What every run keeps -/

/-- `pendingCalls` holds unfinished calls under their own ids; ids are the issue numbers of
their calls modulo `INT32_MAX`, and issue numbers increase along the calls. -/
structure Inv (s : RpcChannelImpl) : Prop where
  count_eq : s.count = s.issued % int32Max
  identity_eq : ∀ c ∈ s.calls, c.identity = ((c.issuedAt % int32Max : Nat) : Int)
  issuedAt_mem : ∀ c ∈ s.calls, 0 < c.issuedAt ∧ c.issuedAt ≤ s.issued
  sorted : (s.calls.map RpcRemoteCall.issuedAt).Pairwise (· < ·)
  entries : ∀ x i, s.pendingCalls.lookup x = some i →
    ∃ h : i < s.calls.length, s.calls[i].identity = x ∧ s.calls[i].status = .pending

theorem init_inv : init.Inv where
  count_eq := rfl
  identity_eq := by simp [init]
  issuedAt_mem := by simp [init]
  sorted := List.Pairwise.nil
  entries := by simp [init]

/-- A step that only finishes calls, and keeps the entries, keeps the invariant. -/
theorem Inv.of_stamps {s s' : RpcChannelImpl} (h : s.Inv) (hcount : s'.count = s.count)
    (hissued : s'.issued = s.issued) (hst : s'.calls.map stamp = s.calls.map stamp)
    (hentries : ∀ x i, s'.pendingCalls.lookup x = some i →
      ∃ h : i < s'.calls.length, s'.calls[i].identity = x ∧ s'.calls[i].status = .pending) :
    s'.Inv where
  count_eq := by rw [hcount, hissued]; exact h.count_eq
  identity_eq := forall_mem_of_stamps hst (P := fun p => p.1 = ((p.2 % int32Max : Nat) : Int))
    h.identity_eq
  issuedAt_mem := by
    rw [hissued]
    exact forall_mem_of_stamps hst (P := fun p => 0 < p.2 ∧ p.2 ≤ s.issued) h.issuedAt_mem
  sorted := by
    have hmap := congrArg (List.map Prod.snd) hst
    simp only [List.map_map] at hmap
    exact hmap ▸ h.sorted
  entries := hentries

theorem Inv.sendRequest {s : RpcChannelImpl} (h : s.Inv) : s.sendRequest.Inv where
  count_eq := by simp [RpcChannelImpl.sendRequest, h.count_eq, getCallId_mod]
  identity_eq := by
    intro c hc
    simp only [RpcChannelImpl.sendRequest, List.mem_append, List.mem_singleton] at hc
    rcases hc with hc | rfl
    · exact h.identity_eq c hc
    · simp [h.count_eq, getCallId_mod]
  issuedAt_mem := by
    intro c hc
    simp only [RpcChannelImpl.sendRequest, List.mem_append, List.mem_singleton] at hc
    rcases hc with hc | rfl
    · have := h.issuedAt_mem c hc
      exact ⟨this.1, Nat.le_succ_of_le this.2⟩
    · exact ⟨Nat.succ_pos _, Nat.le_refl _⟩
  sorted := by
    simp only [RpcChannelImpl.sendRequest, List.map_append, List.map_cons, List.map_nil]
    refine List.pairwise_append.mpr ⟨h.sorted, List.pairwise_singleton _ _, ?_⟩
    intro a ha b hb
    rw [List.mem_singleton] at hb
    obtain ⟨c, hc, rfl⟩ := List.mem_map.mp ha
    rw [hb]
    exact Nat.lt_succ_of_le (h.issuedAt_mem c hc).2
  entries := by
    intro x i hx
    simp only [RpcChannelImpl.sendRequest] at hx ⊢
    by_cases hxid : x = ((getCallId s.count : Nat) : Int)
    · -- the new call, at the end
      subst hxid
      rw [AList.lookup_insert, Option.some.injEq] at hx
      subst hx
      refine ⟨by simp, ?_, ?_⟩ <;> simp
    · rw [AList.lookup_insert_ne hxid] at hx
      obtain ⟨hi, hid, hst⟩ := h.entries x i hx
      refine ⟨by simp only [List.length_append]; omega, ?_, ?_⟩
      · rw [List.getElem_append_left hi]; exact hid
      · rw [List.getElem_append_left hi]; exact hst

theorem Inv.shutdown {s : RpcChannelImpl} (h : s.Inv) : s.shutdown.Inv :=
  h.of_stamps rfl rfl (map_stamp_shutdown s) (by simp [RpcChannelImpl.shutdown])

/-- Two entries of `pendingCalls` hold different calls. -/
theorem Inv.index_ne {s : RpcChannelImpl} (h : s.Inv) {x y : Int} {i j : Nat}
    (hx : s.pendingCalls.lookup x = some i) (hy : s.pendingCalls.lookup y = some j) (hxy : y ≠ x) :
    j ≠ i := by
  rintro rfl
  obtain ⟨_, hidx, -⟩ := h.entries x j hx
  obtain ⟨_, hidy, -⟩ := h.entries y j hy
  exact hxy (hidy.symm.trans hidx)

theorem lookup_of_lookup_erase {s : RpcChannelImpl} {x y : Int} {j : Nat}
    (hy : (s.pendingCalls.erase x).lookup y = some j) : y ≠ x ∧ s.pendingCalls.lookup y = some j := by
  have hyx : y ≠ x := by
    rintro rfl
    simp at hy
  exact ⟨hyx, by rwa [AList.lookup_erase_ne hyx] at hy⟩

/-- Taking a call out of `pendingCalls` and finishing it keeps the invariant. -/
theorem Inv.finish {s : RpcChannelImpl} (h : s.Inv) {x : Int} {i : Nat}
    (hx : s.pendingCalls.lookup x = some i) (st : CallStatus) :
    ({ s with pendingCalls := s.pendingCalls.erase x, calls := setStatus s.calls i st } :
      RpcChannelImpl).Inv := by
  refine h.of_stamps rfl rfl (map_stamp_setStatus _ _ _) ?_
  intro y j hy
  obtain ⟨hyx, hy⟩ := lookup_of_lookup_erase hy
  -- the other calls of `pendingCalls` sit elsewhere, so `setStatus` leaves them
  have hij : i ≠ j := Ne.symm (h.index_ne hx hy hyx)
  obtain ⟨hj, hid, hst⟩ := h.entries y j hy
  refine ⟨by simpa [setStatus] using hj, ?_, ?_⟩
  · rw [getElem_setStatus_of_ne st hij hj]; exact hid
  · rw [getElem_setStatus_of_ne st hij hj]; exact hst

theorem Inv.erase {s : RpcChannelImpl} (h : s.Inv) (x : Int) :
    ({ s with pendingCalls := s.pendingCalls.erase x } : RpcChannelImpl).Inv :=
  h.of_stamps rfl rfl rfl fun _ j hy => h.entries _ j (lookup_of_lookup_erase hy).2

/-- What a response does: shut the channel down, or take the call of its id out of
`pendingCalls` and then finish it or shut the channel down. -/
theorem readOneResponse_cases (s : RpcChannelImpl) (status : RpcStatus) (x : Int) (ok : Bool) :
    s.readOneResponse status x ok = s.shutdown ∨
      ∃ i, s.pendingCalls.lookup x = some i ∧
        ((∃ st, s.readOneResponse status x ok =
            { s with pendingCalls := s.pendingCalls.erase x, calls := setStatus s.calls i st }) ∨
          s.readOneResponse status x ok =
            ({ s with pendingCalls := s.pendingCalls.erase x } : RpcChannelImpl).shutdown) := by
  unfold readOneResponse getPendingCall
  cases hx : s.pendingCalls.lookup x with
  | none =>
    left
    cases status <;> rfl
  | some i =>
    cases status with
    | fatal => exact .inl rfl
    | success =>
      -- whether the body parses decides between `done()` and the shutdown
      refine .inr ⟨i, rfl, ?_⟩
      cases ok
      · exact .inr rfl
      · exact .inl ⟨.done, rfl⟩
    | error => exact .inr ⟨i, rfl, .inl ⟨.cancelled, rfl⟩⟩

theorem Inv.readOneResponse {s : RpcChannelImpl} (h : s.Inv) (status : RpcStatus) (x : Int)
    (ok : Bool) : (s.readOneResponse status x ok).Inv := by
  rcases readOneResponse_cases s status x ok with heq | ⟨i, hx, ⟨st, heq⟩ | heq⟩ <;> rw [heq]
  · exact h.shutdown
  · exact h.finish hx st
  · exact (h.erase x).shutdown

theorem Inv.step {s s' : RpcChannelImpl} {e : RpcEvent} (h : s.Inv) (hs : s.step e = some s') :
    s'.Inv := by
  cases e with
  | sendRequest =>
    cases hs
    exact h.sendRequest
  | callIdElsewhere =>
    cases hs
    exact { h with
      count_eq := by simp [h.count_eq, getCallId_mod]
      issuedAt_mem := fun c hc =>
        ⟨(h.issuedAt_mem c hc).1, Nat.le_succ_of_le (h.issuedAt_mem c hc).2⟩ }
  | response status x ok =>
    simp only [RpcChannelImpl.step] at hs
    split_ifs at hs
    cases hs
    exact h.readOneResponse status x ok
  | shutdown =>
    cases hs
    exact h.shutdown

theorem run_inv {es : List RpcEvent} {s : RpcChannelImpl} (h : Machine.run step init es = some s) :
    s.Inv :=
  Machine.run_inv Inv (fun _ _ _ hs he => hs.step he) init_inv h

/-! ## Ids -/

/-- **Collisions are far apart.** Two calls of the channel with one id got their ids at least
`INT32_MAX` ids apart, whatever the number of calls outstanding. -/
theorem Inv.int32Max_le_of_identity_eq {s : RpcChannelImpl} (h : s.Inv) {j k : Nat} (hjk : j < k)
    (hk : k < s.calls.length) (hid : s.calls[j].identity = s.calls[k].identity) :
    s.calls[j].issuedAt + int32Max ≤ s.calls[k].issuedAt := by
  have hj : j < s.calls.length := by omega
  have hlt : s.calls[j].issuedAt < s.calls[k].issuedAt := by
    have := List.pairwise_iff_getElem.mp h.sorted j k (by simpa using hj) (by simpa using hk) hjk
    simpa using this
  -- equal ids are equal issue numbers modulo `INT32_MAX`
  have hmod : s.calls[j].issuedAt % int32Max = s.calls[k].issuedAt % int32Max := by
    rw [h.identity_eq _ (List.getElem_mem hj), h.identity_eq _ (List.getElem_mem hk)] at hid
    exact_mod_cast hid
  unfold int32Max at hmod ⊢
  omega

theorem Inv.identity_not_mem_reservedCallIds {s : RpcChannelImpl} (h : s.Inv) :
    ∀ c ∈ s.calls, c.identity ∉ reservedCallIds := by
  intro c hc
  rw [h.identity_eq c hc]
  exact natCast_not_mem_reservedCallIds _

/-- Ids handed to calls on other channels move the counter on, and nothing else. -/
theorem run_callIdElsewhere (s : RpcChannelImpl) (h : s.count = s.issued % int32Max) (n : Nat) :
    Machine.run step s (List.replicate n .callIdElsewhere) =
      some { s with count := (s.issued + n) % int32Max, issued := s.issued + n } := by
  induction n generalizing s with
  | zero =>
    simp only [Nat.add_zero, ← h]
    rfl
  | succ n ih =>
    rw [List.replicate_succ, Machine.run_cons]
    simp only [step, Option.bind_some]
    rw [ih _ (by simp [h, getCallId_mod])]
    simp only [Nat.add_assoc, Nat.add_comm 1 n]

/-- **Two outstanding calls with one id.** A call, `INT32_MAX - 1` calls on other channels, and a
call: both calls are pending with id `1`, and the second has taken the first's place in
`pendingCalls`, so that no response reaches the first. -/
theorem callId_collides_with_two_outstanding :
    ∃ s, Machine.run step init
        (.sendRequest :: (List.replicate (int32Max - 1) .callIdElsewhere ++ [.sendRequest])) =
        some s ∧
      s.calls = [⟨1, 1, .pending⟩, ⟨1, int32Max + 1, .pending⟩] ∧
      s.pendingCalls.lookup 1 = some 1 := by
  -- after the first call, the calls elsewhere bring the counter back to `0`
  have hmid : Machine.run step init.sendRequest (List.replicate (int32Max - 1) .callIdElsewhere) =
      some { init.sendRequest with count := 0, issued := int32Max } := by
    rw [run_callIdElsewhere _ rfl]
    rfl
  refine ⟨RpcChannelImpl.sendRequest { init.sendRequest with count := 0, issued := int32Max },
    ?_, by decide, by decide⟩
  -- rewrites only: the kernel would otherwise unfold `run` along the whole list
  have hfirst : init.step .sendRequest = some init.sendRequest := rfl
  rw [Machine.run_cons, hfirst, Option.bind_some, Machine.run_append, hmid, Option.bind_some]
  rfl

/-! ## Responses -/

/-- **A response for a call of `pendingCalls`.** An ERROR, or a SUCCESS whose body parses,
finishes the call held under its id, and only it, and takes the id out. -/
theorem readOneResponse_of_lookup {s : RpcChannelImpl} {status : RpcStatus} {x : Int} {i : Nat}
    {ok : Bool} (hx : s.pendingCalls.lookup x = some i)
    (hfin : status = .error ∨ (status = .success ∧ ok = true)) :
    s.readOneResponse status x ok =
      { s with
        pendingCalls := s.pendingCalls.erase x
        calls := setStatus s.calls i (if status = .success then .done else .cancelled) } := by
  rcases hfin with rfl | ⟨rfl, rfl⟩ <;> simp [readOneResponse, getPendingCall, hx]

/-- **Any other response shuts the channel down**: one for an id `pendingCalls` does not hold,
and a FATAL one. -/
theorem readOneResponse_of_unmatched {s : RpcChannelImpl} {status : RpcStatus} {x : Int}
    {ok : Bool} (h : s.pendingCalls.lookup x = none ∨ status = .fatal) :
    s.readOneResponse status x ok = s.shutdown := by
  rcases h with hx | rfl
  · cases status <;> simp [readOneResponse, getPendingCall, hx]
  · rfl

theorem Inv.lt_length_of_mem_pendingIndices {s : RpcChannelImpl} (h : s.Inv) {j : Nat}
    (hj : j ∈ s.pendingIndices) : ∃ hj : j < s.calls.length, s.calls[j].status = .pending := by
  obtain ⟨⟨x, i⟩, hmem, rfl⟩ := List.mem_map.mp hj
  obtain ⟨hi, -, hst⟩ := h.entries x i (AList.mem_lookup_iff.mpr hmem)
  exact ⟨hi, hst⟩

/-- `shutdown` cancels every call of `pendingCalls`. -/
theorem Inv.shutdown_cancels {s : RpcChannelImpl} (h : s.Inv) {x : Int} {i : Nat}
    (hx : s.pendingCalls.lookup x = some i) :
    ∃ hi : i < s.shutdown.calls.length, s.shutdown.calls[i].status = .cancelled := by
  obtain ⟨hi, -, -⟩ := h.entries x i hx
  have hmem : i ∈ s.pendingIndices := List.mem_map.mpr ⟨⟨x, i⟩, AList.mem_lookup_iff.mp hx, rfl⟩
  refine ⟨by simpa using hi, ?_⟩
  simp [RpcChannelImpl.shutdown, hmem]

/-! ## Finished calls -/

/-- Every call finished in `s` is the same call in `s'`. -/
def KeepsFinished (s s' : RpcChannelImpl) : Prop :=
  ∀ j (hj : j < s.calls.length), s.calls[j].status ≠ .pending →
    ∃ hj' : j < s'.calls.length, s'.calls[j] = s.calls[j]

theorem KeepsFinished.refl (s : RpcChannelImpl) : KeepsFinished s s :=
  fun _ hj _ => ⟨hj, rfl⟩

theorem KeepsFinished.trans {a b c : RpcChannelImpl} (hab : KeepsFinished a b)
    (hbc : KeepsFinished b c) : KeepsFinished a c := by
  intro j hj hfin
  obtain ⟨hj₁, heq₁⟩ := hab j hj hfin
  obtain ⟨hj₂, heq₂⟩ := hbc j hj₁ (heq₁ ▸ hfin)
  exact ⟨hj₂, heq₂.trans heq₁⟩

theorem Inv.keepsFinished_shutdown {s : RpcChannelImpl} (h : s.Inv) : KeepsFinished s s.shutdown := by
  intro j hj hfin
  refine ⟨by simpa using hj, ?_⟩
  -- a finished call is not one `pendingCalls` holds
  have hnot : j ∉ s.pendingIndices := fun hmem =>
    hfin (h.lt_length_of_mem_pendingIndices hmem).2
  simp [RpcChannelImpl.shutdown, hnot]

theorem Inv.keepsFinished_finish {s : RpcChannelImpl} (h : s.Inv) {x : Int} {i : Nat}
    (hx : s.pendingCalls.lookup x = some i) (st : CallStatus) :
    KeepsFinished s
      { s with pendingCalls := s.pendingCalls.erase x, calls := setStatus s.calls i st } := by
  intro j hj hfin
  obtain ⟨_, -, hst⟩ := h.entries x i hx
  have hij : i ≠ j := by
    rintro rfl
    exact hfin hst
  exact ⟨by simpa [setStatus] using hj, getElem_setStatus_of_ne st hij hj _⟩

theorem Inv.keepsFinished_step {s s' : RpcChannelImpl} {e : RpcEvent} (h : s.Inv)
    (hs : s.step e = some s') : KeepsFinished s s' := by
  cases e with
  | sendRequest =>
    cases hs
    exact fun j hj _ =>
      ⟨by simp [RpcChannelImpl.sendRequest]; omega, List.getElem_append_left hj⟩
  | callIdElsewhere =>
    cases hs
    exact KeepsFinished.refl s
  | response status x ok =>
    simp only [RpcChannelImpl.step] at hs
    split_ifs at hs
    cases hs
    rcases readOneResponse_cases s status x ok with heq | ⟨i, hx, ⟨st, heq⟩ | heq⟩ <;> rw [heq]
    · exact h.keepsFinished_shutdown
    · exact h.keepsFinished_finish hx st
    · exact KeepsFinished.trans (KeepsFinished.refl s) (h.erase x).keepsFinished_shutdown
  | shutdown =>
    cases hs
    exact h.keepsFinished_shutdown

/-- **Finished calls stay finished.** No run from a reachable state changes a call that is done
or cancelled. -/
theorem Inv.run_keepsFinished {s s' : RpcChannelImpl} {es : List RpcEvent} (h : s.Inv)
    (hr : Machine.run RpcChannelImpl.step s es = some s') : KeepsFinished s s' :=
  Machine.run_rel Inv KeepsFinished KeepsFinished.refl (fun _ _ _ => KeepsFinished.trans)
    (fun _ _ _ hs he => hs.step he) (fun _ _ _ hs he => hs.keepsFinished_step he) h hr

/-! ## The channel's guarantees -/

/-- What the channel guarantees in a state: `pendingCalls` holds unfinished calls under their own
ids, no id is reserved, equal ids are `INT32_MAX` ids apart, a response for a call of
`pendingCalls` finishes that call and takes it out, any other response shuts the channel down,
which cancels every call of `pendingCalls` and clears it, and finished calls never change. -/
structure MatchesResponses (s : RpcChannelImpl) : Prop where
  entries : ∀ x i, s.pendingCalls.lookup x = some i →
    ∃ h : i < s.calls.length, s.calls[i].identity = x ∧ s.calls[i].status = .pending
  not_reserved : ∀ c ∈ s.calls, c.identity ∉ reservedCallIds
  collision : ∀ j k (hjk : j < k) (hk : k < s.calls.length),
    s.calls[j].identity = s.calls[k].identity →
      s.calls[j].issuedAt + int32Max ≤ s.calls[k].issuedAt
  response_matched : ∀ status x i ok, s.pendingCalls.lookup x = some i →
    (status = .error ∨ (status = .success ∧ ok = true)) →
    s.readOneResponse status x ok =
      { s with
        pendingCalls := s.pendingCalls.erase x
        calls := setStatus s.calls i (if status = .success then .done else .cancelled) }
  response_unmatched : ∀ status x ok, (s.pendingCalls.lookup x = none ∨ status = .fatal) →
    s.readOneResponse status x ok = s.shutdown
  shutdown_clears : s.shutdown.pendingCalls = ∅
  shutdown_cancels : ∀ x i, s.pendingCalls.lookup x = some i →
    ∃ h : i < s.shutdown.calls.length, s.shutdown.calls[i].status = .cancelled
  keeps_finished : ∀ es s', Machine.run step s es = some s' → KeepsFinished s s'

theorem rpcChannel_matches_responses {es : List RpcEvent} {s : RpcChannelImpl}
    (hrun : Machine.run step init es = some s) : s.MatchesResponses := by
  have h := run_inv hrun
  exact {
    entries := h.entries
    not_reserved := h.identity_not_mem_reservedCallIds
    collision := fun _ _ hjk hk hid => h.int32Max_le_of_identity_eq hjk hk hid
    response_matched := fun _ _ _ _ hx hfin => readOneResponse_of_lookup hx hfin
    response_unmatched := fun _ _ _ hx => readOneResponse_of_unmatched hx
    shutdown_clears := rfl
    shutdown_cancels := fun _ _ hx => h.shutdown_cancels hx
    keeps_finished := fun _ _ hr => h.run_keepsFinished hr }

theorem rpcChannel_matches_responses_after_one_call :
    Machine.run step init [.sendRequest] = some init.sendRequest ∧
      init.sendRequest.MatchesResponses :=
  ⟨rfl, @rpcChannel_matches_responses [.sendRequest] _ rfl⟩

end RpcChannelImpl

end HdfsClient
