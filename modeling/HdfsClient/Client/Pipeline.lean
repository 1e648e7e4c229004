import HdfsClient.Lib.Machine
import Mathlib.Data.Int.Order.Basic

/-!
# The packet deque of a write pipeline

`PipelineImpl` (`client/Pipeline.cpp`) writes the packets of a block to the first datanode of its
pipeline and keeps those not yet acknowledged in the deque `packets`. `send` puts a packet on the
deque and writes it; when the deque holds more packets than the packet pool, it first waits for
acks (`waitForAcks(false)`). An ack for the oldest packet pops it and moves `bytesAcked` on. An
I/O failure while writing or reading acks rebuilds the pipeline on a new socket
(`buildForAppendOrRecovery`), and the packets of the deque are written again (`resend`).

The network is an oracle: the outcomes of the next writes and polls, in order. The state carries
three ghosts: the packets written on the current socket, the packets that have left the deque,
and those of them that were acknowledged.

* `Keeps` — what every operation keeps: packets leave the deque only from its front, and
  `bytesAcked` takes the maximum with the last byte of each packet acknowledged.
* `processAck_cases` — an ack changes nothing, or it is a success ack for the oldest packet and
  pops exactly that packet.
* `run_new` — after every run, the packets that left the deque, then the deque, are the
  non-heartbeat packets sent, in order; `bytesAcked` is the maximum of its first value and the last
  bytes acknowledged, and is `lastBlock`'s length.
* `send_writes_packet_twice` — a send that waits for acks across a rebuild, which writes the deque
  again, then writes its packet a second time on the new socket.
-/

namespace HdfsClient

/-- `HEART_BEAT_SEQNO`. -/
def heartBeatSeqno : Int := -1

/-- A packet, as the pipeline reads it: `getSeqno()`, `getLastByteOffsetBlock()` and
`isLastPacketInBlock()`. -/
structure Packet where
  seqno : Int
  lastByteOffsetBlock : Int
  lastPacketInBlock : Bool
  deriving DecidableEq, Repr

/-- `Packet::isHeartbeat()`. -/
def Packet.isHeartbeat (p : Packet) : Bool := p.seqno == heartBeatSeqno

/-- What `reader->poll` finds: nothing to read, a valid ack (its seqno, and whether every datanode
replied SUCCESS), or an I/O failure (a broken socket or an invalid ack). -/
inductive Response
  | quiet
  | ack (seqno : Int) (success : Bool)
  | ioError
  deriving DecidableEq, Repr

/-- The network: the outcomes of the next `writeFully` calls (`false` where one throws) and of the
next polls. Past the end of either list, writes succeed and polls find nothing. -/
structure Network where
  writes : List Bool
  responses : List Response
  deriving DecidableEq, Repr

/-- `stage`: streaming data, or closing the block (`PIPELINE_CLOSE`). -/
inductive PipelineStage
  | dataStreaming
  | pipelineClose
  deriving DecidableEq, Repr

/-- The pipeline: the deque `packets`, `bytesAcked`, `bytesSent`, the length of `lastBlock`,
`stage` and the network; with three ghosts: the packets `written` on the current socket, those
`done` (that have left the deque, oldest first) and those `acked`. -/
structure PipelineImpl where
  packets : List Packet
  bytesAcked : Int
  bytesSent : Int
  numBytes : Int
  stage : PipelineStage
  net : Network
  written : List Packet
  done : List Packet
  acked : List Packet
  deriving DecidableEq, Repr

/-- How a pipeline operation fails: an `HdfsIOException`, with the state at the throw, which
`send` and `waitForAcks` catch; an `assert` of the source; or the model's fuel. -/
inductive PipelineError
  | ioException (s : PipelineImpl)
  | assertion
  | outOfFuel
  deriving DecidableEq, Repr

/-- The calls `OutputStreamImpl` makes on its pipeline. -/
inductive PipelineCall
  | send (packet : Packet)
  | flush
  | close (lastPacket : Packet)
  deriving DecidableEq, Repr

namespace PipelineImpl

/-- The constructor, once the pipeline is built: nothing in flight, `bytesAcked = bytesSent`, and
`lastBlock` as long as that. -/
def new (bytesSent : Int) (net : Network) : PipelineImpl :=
  ⟨[], bytesSent, bytesSent, bytesSent, .dataStreaming, net, [], [], []⟩

/-- `sock->writeFully` of a packet. -/
def writeFully (s : PipelineImpl) (p : Packet) : Except PipelineError PipelineImpl :=
  match s.net.writes with
  | false :: ws => .error (.ioException { s with net := { s.net with writes := ws } })
  | ws => .ok { s with net := { s.net with writes := ws.tail }, written := s.written ++ [p] }

/-- Write a packet and move `bytesSent` to its last byte. -/
def writePacket (s : PipelineImpl) (p : Packet) : Except PipelineError PipelineImpl :=
  (s.writeFully p).map fun s => { s with bytesSent := max s.bytesSent p.lastByteOffsetBlock }

/-- `resend()`: write every packet of the deque again, oldest first. -/
def resend (s : PipelineImpl) : Except PipelineError PipelineImpl :=
  s.packets.foldlM writePacket s

/-- The next outcome of `reader->poll`. -/
def poll (s : PipelineImpl) : Response × PipelineImpl :=
  match s.net.responses with
  | [] => (.quiet, s)
  | r :: rs => (r, { s with net := { s.net with responses := rs } })

/-- `processAck(ack)`: a heartbeat ack is ignored; a success ack must be for the oldest packet,
which it pops; any other reply throws. -/
def processAck (s : PipelineImpl) (seqno : Int) (success : Bool) :
    Except PipelineError PipelineImpl :=
  if seqno = heartBeatSeqno then .ok s
  else
    match s.packets with
    | [] => .error .assertion
    | packet :: rest =>
      if success then
        if packet.seqno ≠ seqno then .error (.ioException s)
        else
          let bytesAcked := max packet.lastByteOffsetBlock s.bytesAcked
          .ok { s with
            bytesAcked := bytesAcked
            numBytes := bytesAcked
            packets := rest
            done := s.done ++ [packet]
            acked := s.acked ++ [packet] }
      -- a reply that is not SUCCESS sets `errorIndex` and throws
      else .error (.ioException s)

/-- `checkResponse(wait)`: poll, and take the ack if there is one; with `wait`, finding nothing
throws. -/
def checkResponse (s : PipelineImpl) (wait : Bool) : Except PipelineError PipelineImpl :=
  match s.poll with
  | (.quiet, s) => if wait then .error (.ioException s) else .ok s
  | (.ack seqno success, s) => s.processAck seqno success
  | (.ioError, s) => .error (.ioException s)

/-- `buildForAppendOrRecovery(true)`: a new socket to the rebuilt pipeline. -/
def rebuild (s : PipelineImpl) : PipelineImpl := { s with written := [] }

/-- After a rebuild at the close stage the deque must hold just the last packet of the block, and
the recovery finishes the block without it. -/
def clearOnClose (s : PipelineImpl) : Except PipelineError PipelineImpl :=
  match s.packets with
  | [p] =>
    if p.lastPacketInBlock then .ok { s with packets := [], done := s.done ++ [p] }
    else .error .assertion
  | _ => .error .assertion

/-- `waitForAcks(force)`: until the deque is empty (or, without `force`, smaller than the packet
pool), read acks; after an I/O failure, rebuild the pipeline and resend. -/
def waitForAcks (maxSize : Int) (force : Bool) :
    Nat → Bool → PipelineImpl → Except PipelineError PipelineImpl
  | 0, _, _ => .error .outOfFuel
  | fuel + 1, failover, s =>
    if s.packets = [] then .ok s
    else if force = false ∧ (s.packets.length : Int) < maxSize then .ok s
    else
      match (if failover then s.resend else .ok s).bind fun s => s.checkResponse true with
      | .ok s => waitForAcks maxSize force fuel false s
      | .error (.ioException s) =>
        if s.rebuild.stage = .pipelineClose then s.rebuild.clearOnClose
        else waitForAcks maxSize force fuel true s.rebuild
      | .error e => .error e

/-- The failover loop of `send`: write the packet (after a rebuild, the whole deque) and look for
an ack without waiting. -/
def sendLoop (packet : Packet) : Nat → Bool → PipelineImpl → Except PipelineError PipelineImpl
  | 0, _, _ => .error .outOfFuel
  | fuel + 1, failover, s =>
    match (if failover then s.resend else s.writePacket packet).bind
        fun s => s.checkResponse false with
    | .ok s => .ok s
    | .error (.ioException s) =>
      if s.rebuild.stage = .pipelineClose then s.rebuild.clearOnClose
      else sendLoop packet fuel true s.rebuild
    | .error e => .error e

/-- `send(packet)`: a non-heartbeat packet goes on the deque; too many packets in flight wait for
acks first. -/
def send (maxSize : Int) (fuel : Nat) (s : PipelineImpl) (packet : Packet) :
    Except PipelineError PipelineImpl :=
  let s := if packet.isHeartbeat then s else { s with packets := s.packets ++ [packet] }
  (if (s.packets.length : Int) > maxSize then waitForAcks maxSize false fuel false s
    else .ok s).bind (sendLoop packet fuel false)

/-- `flush()`. -/
def flush (maxSize : Int) (fuel : Nat) (s : PipelineImpl) : Except PipelineError PipelineImpl :=
  waitForAcks maxSize true fuel false s

/-- `close(lastPacket)`: wait for every ack, send the last packet of the block at the close stage,
wait again, and give `lastBlock` the length `bytesAcked`. -/
def close (maxSize : Int) (fuel : Nat) (s : PipelineImpl) (lastPacket : Packet) :
    Except PipelineError PipelineImpl := do
  let s ← waitForAcks maxSize true fuel false s
  let s ← send maxSize fuel { s with stage := .pipelineClose }
    { lastPacket with lastPacketInBlock := true }
  let s ← waitForAcks maxSize true fuel false s
  pure { s with numBytes := s.bytesAcked }

def apply (maxSize : Int) (fuel : Nat) (s : PipelineImpl) :
    PipelineCall → Except PipelineError PipelineImpl
  | .send packet => s.send maxSize fuel packet
  | .flush => s.flush maxSize fuel
  | .close lastPacket => s.close maxSize fuel lastPacket

/-- One call; an exception ends the run. -/
def step (maxSize : Int) (fuel : Nat) (s : PipelineImpl) (c : PipelineCall) :
    Option PipelineImpl :=
  (s.apply maxSize fuel c).toOption

/-! ## What every operation keeps -/

/-- The state an operation leaves, whether it returns or throws an `HdfsIOException`. -/
def Resumes (r : Except PipelineError PipelineImpl) (s' : PipelineImpl) : Prop :=
  r = .ok s' ∨ r = .error (.ioException s')

@[simp] theorem resumes_ok {s s' : PipelineImpl} : Resumes (.ok s) s' ↔ s' = s := by
  simp [Resumes, eq_comm]

@[simp] theorem resumes_ioException {s s' : PipelineImpl} :
    Resumes (.error (.ioException s)) s' ↔ s' = s := by
  simp [Resumes, eq_comm]

@[simp] theorem not_resumes_assertion {s' : PipelineImpl} : ¬ Resumes (.error .assertion) s' := by
  simp [Resumes]

@[simp] theorem not_resumes_outOfFuel {s' : PipelineImpl} : ¬ Resumes (.error .outOfFuel) s' := by
  simp [Resumes]

/-- An operation followed by another resumes where the second does, or where the first threw. -/
theorem Resumes.bind {r : Except PipelineError PipelineImpl}
    {f : PipelineImpl → Except PipelineError PipelineImpl} {s' : PipelineImpl}
    (h : Resumes (r.bind f) s') :
    (∃ s₁, r = .ok s₁ ∧ Resumes (f s₁) s') ∨ r = .error (.ioException s') := by
  cases r with
  | error e =>
    right
    rcases h with h | h
    · cases h
    · exact h
  | ok s₁ => exact .inl ⟨s₁, rfl, h⟩

theorem ok_of_bind_eq_ok {r : Except PipelineError PipelineImpl}
    {f : PipelineImpl → Except PipelineError PipelineImpl} {s' : PipelineImpl}
    (h : r.bind f = .ok s') : ∃ s₁, r = .ok s₁ ∧ f s₁ = .ok s' := by
  cases r with
  | error e => cases h
  | ok s₁ => exact ⟨s₁, rfl, h⟩

/-- What the operations of the pipeline keep, where `added` is what they put on the deque: packets
leave the deque only from its front, into `done`; the acknowledged ones also go to `acked`, and
`bytesAcked` takes the maximum with their last bytes; and `lastBlock`'s length stays
`bytesAcked`. -/
structure Keeps (added : List Packet) (s s' : PipelineImpl) : Prop where
  account : s'.done ++ s'.packets = s.done ++ s.packets ++ added
  acked : ∃ δ, s'.acked = s.acked ++ δ ∧
    s'.bytesAcked = (δ.map Packet.lastByteOffsetBlock).foldl max s.bytesAcked
  numBytes : s.numBytes = s.bytesAcked → s'.numBytes = s'.bytesAcked

theorem Keeps.refl (s : PipelineImpl) : Keeps [] s s where
  account := by rw [List.append_nil]
  acked := ⟨[], by rw [List.append_nil], rfl⟩
  numBytes := id

theorem Keeps.trans {a b : List Packet} {s s₁ s₂ : PipelineImpl} (h₁ : Keeps a s s₁)
    (h₂ : Keeps b s₁ s₂) : Keeps (a ++ b) s s₂ where
  account := by rw [h₂.account, h₁.account, List.append_assoc]
  acked := by
    obtain ⟨δ₁, ha₁, hb₁⟩ := h₁.acked
    obtain ⟨δ₂, ha₂, hb₂⟩ := h₂.acked
    refine ⟨δ₁ ++ δ₂, by rw [ha₂, ha₁, List.append_assoc], ?_⟩
    rw [hb₂, hb₁, List.map_append, List.foldl_append]
  numBytes := h₂.numBytes ∘ h₁.numBytes

/-- An operation that leaves the deque, `done`, `acked` and the counters alone keeps them. -/
theorem Keeps.of_frame {s s' : PipelineImpl} (hp : s'.packets = s.packets) (hd : s'.done = s.done)
    (ha : s'.acked = s.acked) (hb : s'.bytesAcked = s.bytesAcked)
    (hn : s'.numBytes = s.numBytes) : Keeps [] s s' where
  account := by rw [hp, hd, List.append_nil]
  acked := ⟨[], by rw [ha, List.append_nil], hb⟩
  numBytes := by rw [hn, hb]; exact id

variable {s s' : PipelineImpl}

theorem writeFully_keeps {p : Packet} (h : Resumes (s.writeFully p) s') : Keeps [] s s' := by
  unfold writeFully at h
  split at h
  · rw [resumes_ioException] at h
    subst h
    exact Keeps.of_frame rfl rfl rfl rfl rfl
  · rw [resumes_ok] at h
    subst h
    exact Keeps.of_frame rfl rfl rfl rfl rfl

theorem writePacket_keeps {p : Packet} (h : Resumes (s.writePacket p) s') : Keeps [] s s' := by
  unfold writePacket at h
  cases hw : s.writeFully p with
  | error e =>
    rw [hw] at h
    exact writeFully_keeps (by rw [hw]; exact h)
  | ok t =>
    -- the write, then `bytesSent`
    have hwrite : Keeps [] s t := writeFully_keeps (by rw [hw]; exact .inl rfl)
    rw [hw, Except.map, resumes_ok] at h
    subst h
    exact hwrite.trans (Keeps.of_frame rfl rfl rfl rfl rfl)

theorem foldlM_writePacket_keeps (l : List Packet) (s : PipelineImpl)
    (h : Resumes (l.foldlM writePacket s) s') : Keeps [] s s' := by
  induction l generalizing s with
  | nil =>
    rw [List.foldlM_nil] at h
    rw [show s' = s from resumes_ok.mp h]
    exact Keeps.refl s
  | cons p l ih =>
    rw [List.foldlM_cons] at h
    rcases Resumes.bind h with ⟨s₁, h₁, h₂⟩ | h₁
    · exact (writePacket_keeps (.inl h₁)).trans (ih s₁ h₂)
    · exact writePacket_keeps (.inr h₁)

theorem resend_keeps (h : Resumes s.resend s') : Keeps [] s s' :=
  foldlM_writePacket_keeps s.packets s h

theorem poll_keeps : Keeps [] s s.poll.2 := by
  unfold poll
  split <;> exact Keeps.of_frame rfl rfl rfl rfl rfl

/-- **What an ack does.** It changes nothing, or it is a success ack, not a heartbeat's, for the
oldest packet, and pops that packet into `done` and `acked`. -/
theorem processAck_cases {seqno : Int} {success : Bool}
    (h : Resumes (s.processAck seqno success) s') :
    s' = s ∨ ∃ packet rest, s.packets = packet :: rest ∧ seqno ≠ heartBeatSeqno ∧
      success = true ∧ packet.seqno = seqno ∧
      s' = { s with
        bytesAcked := max packet.lastByteOffsetBlock s.bytesAcked
        numBytes := max packet.lastByteOffsetBlock s.bytesAcked
        packets := rest
        done := s.done ++ [packet]
        acked := s.acked ++ [packet] } := by
  unfold processAck at h
  by_cases hhb : seqno = heartBeatSeqno
  · rw [if_pos hhb, resumes_ok] at h
    exact .inl h
  rw [if_neg hhb] at h
  split at h
  · exact absurd h not_resumes_assertion
  · rename_i packet rest hs
    cases success with
    | false =>
      -- a reply that is not SUCCESS throws, and the state stays
      exact .inl (resumes_ioException.mp h)
    | true =>
      by_cases hseq : packet.seqno = seqno
      · rw [if_pos rfl, if_neg (not_not.mpr hseq), resumes_ok] at h
        exact .inr ⟨packet, rest, hs, hhb, rfl, hseq, h⟩
      · rw [if_pos rfl, if_pos hseq, resumes_ioException] at h
        exact .inl h

theorem processAck_keeps {seqno : Int} {success : Bool}
    (h : Resumes (s.processAck seqno success) s') : Keeps [] s s' := by
  rcases processAck_cases h with rfl | ⟨packet, rest, hs, -, -, -, rfl⟩
  · exact Keeps.refl _
  · exact {
      account := by simp [hs]
      acked := ⟨[packet], rfl, by simp [max_comm]⟩
      numBytes := fun _ => rfl }

theorem checkResponse_keeps {wait : Bool} (h : Resumes (s.checkResponse wait) s') :
    Keeps [] s s' := by
  unfold checkResponse at h
  -- every branch first takes the poll
  have hpoll := poll_keeps (s := s)
  split at h
  · rename_i t hpt
    rw [hpt] at hpoll
    split at h
    · rw [resumes_ioException.mp h]; exact hpoll
    · rw [resumes_ok.mp h]; exact hpoll
  · rename_i seqno success t hpt
    rw [hpt] at hpoll
    exact hpoll.trans (processAck_keeps h)
  · rename_i t hpt
    rw [hpt] at hpoll
    rw [resumes_ioException.mp h]
    exact hpoll

theorem rebuild_keeps : Keeps [] s s.rebuild := Keeps.of_frame rfl rfl rfl rfl rfl

theorem clearOnClose_keeps (h : Resumes s.clearOnClose s') : Keeps [] s s' := by
  unfold clearOnClose at h
  split at h
  · rename_i p hs
    split at h
    · rw [resumes_ok] at h
      subst h
      exact {
        account := by simp [hs]
        acked := ⟨[], by simp, rfl⟩
        numBytes := id }
    · exact absurd h not_resumes_assertion
  · exact absurd h not_resumes_assertion

/-- The `try` block of both failover loops: resend after a rebuild, or do `first`, then check for
an ack. -/
theorem tryBlock_keeps {failover wait : Bool} {first : Except PipelineError PipelineImpl}
    (hfirst : ∀ t, Resumes first t → Keeps [] s t)
    (h : Resumes ((if failover then s.resend else first).bind fun s => s.checkResponse wait) s') :
    Keeps [] s s' := by
  have hpre : ∀ t, Resumes (if failover then s.resend else first) t → Keeps [] s t := by
    intro t ht
    cases failover
    · exact hfirst t ht
    · exact resend_keeps ht
  rcases Resumes.bind h with ⟨s₁, h₁, h₂⟩ | h₁
  · exact (hpre s₁ (.inl h₁)).trans (checkResponse_keeps h₂)
  · exact hpre s' (.inr h₁)

/-- The `catch` block of both failover loops: rebuild, and at the close stage drop the last
packet; otherwise go round the loop again. -/
theorem catchBlock_keeps {t : PipelineImpl} {loop : Except PipelineError PipelineImpl}
    (hloop : Resumes loop s' → Keeps [] t.rebuild s')
    (h : Resumes (if t.rebuild.stage = .pipelineClose then t.rebuild.clearOnClose else loop) s') :
    Keeps [] t s' := by
  split at h
  · exact rebuild_keeps.trans (clearOnClose_keeps h)
  · exact rebuild_keeps.trans (hloop h)

theorem waitForAcks_keeps {maxSize : Int} {force : Bool} (fuel : Nat) (failover : Bool)
    (s : PipelineImpl) (h : Resumes (waitForAcks maxSize force fuel failover s) s') :
    Keeps [] s s' := by
  induction fuel generalizing failover s with
  | zero => exact absurd h not_resumes_outOfFuel
  | succ fuel ih =>
    unfold waitForAcks at h
    by_cases hempty : s.packets = []
    · rw [if_pos hempty, resumes_ok] at h
      rw [h]
      exact Keeps.refl s
    rw [if_neg hempty] at h
    by_cases hsmall : force = false ∧ (s.packets.length : Int) < maxSize
    · rw [if_pos hsmall, resumes_ok] at h
      rw [h]
      exact Keeps.refl s
    rw [if_neg hsmall] at h
    have htry : ∀ t, Resumes ((if failover then s.resend else .ok s).bind
        fun s => s.checkResponse true) t → Keeps [] s t := fun t =>
      tryBlock_keeps fun u hu => by rw [resumes_ok.mp hu]; exact Keeps.refl s
    -- the loop goes on from where the `try` block returned or threw
    cases hr : (if failover then s.resend else .ok s).bind fun s => s.checkResponse true with
    | ok t =>
      rw [hr] at h
      exact (htry t (.inl hr)).trans (ih false t h)
    | error e =>
      rw [hr] at h
      cases e with
      | ioException t => exact (htry t (.inr hr)).trans (catchBlock_keeps (ih true t.rebuild) h)
      | assertion => exact absurd h not_resumes_assertion
      | outOfFuel => exact absurd h not_resumes_outOfFuel

theorem sendLoop_keeps {packet : Packet} (fuel : Nat) (failover : Bool) (s : PipelineImpl)
    (h : Resumes (sendLoop packet fuel failover s) s') : Keeps [] s s' := by
  induction fuel generalizing failover s with
  | zero => exact absurd h not_resumes_outOfFuel
  | succ fuel ih =>
    unfold sendLoop at h
    have htry : ∀ t, Resumes ((if failover then s.resend else s.writePacket packet).bind
        fun s => s.checkResponse false) t → Keeps [] s t := fun t =>
      tryBlock_keeps fun u hu => writePacket_keeps hu
    cases hr : (if failover then s.resend else s.writePacket packet).bind
        fun s => s.checkResponse false with
    | ok t =>
      rw [hr, resumes_ok] at h
      rw [h]
      exact htry t (.inl hr)
    | error e =>
      rw [hr] at h
      cases e with
      | ioException t => exact (htry t (.inr hr)).trans (catchBlock_keeps (ih true t.rebuild) h)
      | assertion => exact absurd h not_resumes_assertion
      | outOfFuel => exact absurd h not_resumes_outOfFuel

/-- A round of `send` whose write and ack check go through ends the loop. -/
theorem sendLoop_of_ok {packet : Packet} {fuel : Nat} {failover : Bool} {s s' : PipelineImpl}
    (h : ((if failover then s.resend else s.writePacket packet).bind
        fun s => s.checkResponse false) = .ok s') :
    sendLoop packet (fuel + 1) failover s = .ok s' := by
  simp only [sendLoop, h]

/-- After an `HdfsIOException` short of the close stage, `send` rebuilds and goes round again. -/
theorem sendLoop_of_ioException {packet : Packet} {fuel : Nat} {failover : Bool}
    {s s' : PipelineImpl}
    (h : ((if failover then s.resend else s.writePacket packet).bind
        fun s => s.checkResponse false) = .error (.ioException s'))
    (hclose : s'.rebuild.stage ≠ .pipelineClose) :
    sendLoop packet (fuel + 1) failover s = sendLoop packet fuel true s'.rebuild := by
  simp only [sendLoop, h, if_neg hclose]

/-- Frames after an operation change nothing of what it added. -/
theorem Keeps.trans_frame {a : List Packet} {s s₁ s₂ : PipelineImpl} (h₁ : Keeps a s s₁)
    (h₂ : Keeps [] s₁ s₂) : Keeps a s s₂ := by
  simpa using h₁.trans h₂

end PipelineImpl

/-- What sending a packet puts on the deque: nothing for a heartbeat. -/
def Packet.enqueued (p : Packet) : List Packet := if p.isHeartbeat then [] else [p]

/-- What a call puts on the deque. -/
def PipelineCall.enqueued : PipelineCall → List Packet
  | .send packet => packet.enqueued
  | .flush => []
  | .close lastPacket => { lastPacket with lastPacketInBlock := true }.enqueued

namespace PipelineImpl

variable {s s' : PipelineImpl} {maxSize : Int} {fuel : Nat}

theorem send_keeps {packet : Packet} (h : s.send maxSize fuel packet = .ok s') :
    Keeps packet.enqueued s s' := by
  unfold send at h
  dsimp only at h
  obtain ⟨s₁, h₁, h₂⟩ := ok_of_bind_eq_ok h
  generalize ht : (if packet.isHeartbeat then s
    else { s with packets := s.packets ++ [packet] }) = t at h₁
  -- the packet goes on the deque, unless it is a heartbeat
  have hpush : Keeps packet.enqueued s t := by
    subst ht
    unfold Packet.enqueued
    split
    · exact Keeps.refl s
    · exact {
        account := by simp
        acked := ⟨[], by simp, rfl⟩
        numBytes := id }
  have hwait : Keeps [] t s₁ := by
    split at h₁
    · exact waitForAcks_keeps fuel false t (.inl h₁)
    · rw [Except.ok.injEq] at h₁
      rw [h₁]
      exact Keeps.refl s₁
  exact (hpush.trans_frame hwait).trans_frame (sendLoop_keeps fuel false s₁ (.inl h₂))

theorem close_keeps {lastPacket : Packet} (h : s.close maxSize fuel lastPacket = .ok s') :
    Keeps { lastPacket with lastPacketInBlock := true }.enqueued s s' := by
  unfold close at h
  obtain ⟨s₁, h₁, h⟩ := ok_of_bind_eq_ok h
  obtain ⟨s₂, h₂, h⟩ := ok_of_bind_eq_ok h
  obtain ⟨s₃, h₃, h⟩ := ok_of_bind_eq_ok h
  cases h
  have hstage : Keeps [] s₁ { s₁ with stage := .pipelineClose } :=
    Keeps.of_frame rfl rfl rfl rfl rfl
  -- `lastBlock` takes `bytesAcked` as its length
  have hlength : Keeps [] s₃ { s₃ with numBytes := s₃.bytesAcked } := {
    account := by simp
    acked := ⟨[], by simp, rfl⟩
    numBytes := fun _ => rfl }
  exact ((waitForAcks_keeps fuel false s (.inl h₁)).trans (hstage.trans (send_keeps h₂))).trans_frame
    ((waitForAcks_keeps fuel false s₂ (.inl h₃)).trans hlength)

theorem apply_keeps {c : PipelineCall} (h : s.apply maxSize fuel c = .ok s') :
    Keeps c.enqueued s s' := by
  cases c with
  | send packet => exact send_keeps h
  | flush => exact waitForAcks_keeps fuel false s (.inl h)
  | close lastPacket => exact close_keeps h

theorem apply_eq_ok_of_step {c : PipelineCall} (h : s.step maxSize fuel c = some s') :
    s.apply maxSize fuel c = .ok s' := by
  unfold step at h
  cases hr : s.apply maxSize fuel c with
  | error e => simp [hr, Except.toOption] at h
  | ok t =>
    simp only [hr, Except.toOption, Option.some.injEq] at h
    rw [h]

/-- **Runs.** Over a run, the packets that left the deque, then the deque, grow by the
non-heartbeat packets sent, in order; `acked` grows, and `bytesAcked` takes the maximum with the
last bytes of what it gains. -/
theorem run_keeps (es : List PipelineCall) (s : PipelineImpl)
    (h : Machine.run (step maxSize fuel) s es = some s') :
    Keeps (es.flatMap PipelineCall.enqueued) s s' := by
  induction es generalizing s with
  | nil =>
    rw [Machine.run_nil, Option.some.injEq] at h
    subst h
    exact Keeps.refl s
  | cons c es ih =>
    rw [Machine.run_cons, Option.bind_eq_some_iff] at h
    obtain ⟨s₁, h₁, h₂⟩ := h
    rw [List.flatMap_cons]
    exact (apply_keeps (apply_eq_ok_of_step h₁)).trans (ih s₁ h₂)

/-- **The deque and `bytesAcked` after every run.** From a new pipeline, the packets that left the
deque, then the deque, are the non-heartbeat packets sent, in order, so that with sequence numbers
that increase along them the deque stays in sequence order; `bytesAcked` is the maximum of its
first value and the last bytes of the packets acknowledged; and `lastBlock`'s length is
`bytesAcked`. -/
theorem run_new {b : Int} {net : Network} {es : List PipelineCall}
    (h : Machine.run (step maxSize fuel) (new b net) es = some s') :
    s'.done ++ s'.packets = es.flatMap PipelineCall.enqueued ∧
      (((es.flatMap PipelineCall.enqueued).map Packet.seqno).Pairwise (· < ·) →
        (s'.packets.map Packet.seqno).Pairwise (· < ·)) ∧
      s'.bytesAcked = (s'.acked.map Packet.lastByteOffsetBlock).foldl max b ∧
      s'.numBytes = s'.bytesAcked := by
  have hk := run_keeps es _ h
  have haccount : s'.done ++ s'.packets = es.flatMap PipelineCall.enqueued := by
    simpa [new] using hk.account
  obtain ⟨δ, hδ, hb⟩ := hk.acked
  have hacked : s'.acked = δ := by simpa [new] using hδ
  refine ⟨haccount, fun hsorted => ?_, by rw [hacked]; exact hb, hk.numBytes rfl⟩
  -- the deque is a suffix of the packets sent
  rw [← haccount, List.map_append] at hsorted
  exact (List.pairwise_append.mp hsorted).2.1

/-- Two packets, the first acknowledged after a rebuild of the pipeline. -/
theorem run_new_after_rebuild :
    ∃ s', Machine.run (step 1 4) (new 0 ⟨[], [.quiet, .ioError, .ack 1 true, .ack 2 true]⟩)
        [.send ⟨1, 512, false⟩, .send ⟨2, 1024, false⟩] = some s' ∧
      (s'.done ++ s'.packets = [PipelineCall.send ⟨1, 512, false⟩, .send ⟨2, 1024, false⟩].flatMap
          PipelineCall.enqueued ∧
        ((([PipelineCall.send ⟨1, 512, false⟩, .send ⟨2, 1024, false⟩].flatMap
            PipelineCall.enqueued).map Packet.seqno).Pairwise (· < ·) →
          (s'.packets.map Packet.seqno).Pairwise (· < ·)) ∧
        s'.bytesAcked = (s'.acked.map Packet.lastByteOffsetBlock).foldl max 0 ∧
        s'.numBytes = s'.bytesAcked) := by
  obtain ⟨s', h⟩ : ∃ s', Machine.run (step 1 4)
      (new 0 ⟨[], [.quiet, .ioError, .ack 1 true, .ack 2 true]⟩)
      [.send ⟨1, 512, false⟩, .send ⟨2, 1024, false⟩] = some s' := ⟨_, rfl⟩
  exact ⟨s', h, run_new h⟩

/-! ## What goes on the socket -/

/-- **A packet written twice on one socket.** The pool holds one packet. Packet `1` is written and
nothing comes back; `send` of packet `2` finds two packets in flight and waits; the wait meets an
I/O failure, rebuilds the pipeline and resends both packets, which are acknowledged; then `send`
writes packet `2` once more on the new socket. -/
theorem send_writes_packet_twice (n : Nat) :
    ∃ s, Machine.run (step 1 (n + 4)) (new 0 ⟨[], [.quiet, .ioError, .ack 1 true, .ack 2 true]⟩)
        [.send ⟨1, 512, false⟩, .send ⟨2, 1024, false⟩] = some s ∧
      s.written = [⟨1, 512, false⟩, ⟨2, 1024, false⟩, ⟨2, 1024, false⟩] ∧
      s.acked = [⟨1, 512, false⟩, ⟨2, 1024, false⟩] :=
  ⟨_, rfl, rfl, rfl⟩

end PipelineImpl

end HdfsClient
