import HdfsClient.Client.OutputStreamRoom
import HdfsClient.Lib.Chunks
import Mathlib.Data.List.Infix

/-!
# What a written file holds

Replaying what an `OutputStreamImpl` hands to its pipelines (`replay`: each packet's data at its
offset in the block, over what is there; `close` ends the block) gives back the bytes appended,
and every packet carries the CRC32C of each piece of its data between chunk boundaries
(`ChecksumsMatch`). That holds even though `flush` sends a partial chunk and the full chunk goes
again later at the same offset: the second write puts the same bytes at the same place.

`Core` ties the state of the stream to the bytes appended so far: the blocks replayed, then the
content `C` of the current block, are those bytes; the image of the current block is a front part
of `C`; the buffer holds the partial chunk, covered by the running checksum; the current packet
holds whole chunks of `C` up to `bytesWritten`. Every step of the stream keeps it, and never fails.

* `openInternal_inv` — a stream opened for create, or for append to a file whose last block ends
  where the file does modulo the chunk size, starts with the invariant.
* `Inv.appendInternal_inv`, `Inv.flushInternal_inv`, `Inv.run_inv` — appends, flushes and syncs
  never fail and keep it; `Core.appendLoop_ok` is the loop of `appendInternal`, round by round.
* `Inv.close_replay`, `close_replays_appended` — after `close`, the blocks replayed are the bytes
  of the last block followed by every byte appended, and every checksum matches its piece.
* `append_checksum_spans_chunk_boundary` — appending to a file whose block size is not a multiple
  of the chunk size puts one checksum over two pieces.
-/

namespace HdfsClient

/-! ## Replay -/

/-- Replay one hand-over: the packet's data at its offset in the current block; `close` ends the
block. -/
def replayOp : List (List UInt8) × List UInt8 → PipelineOp → List (List UInt8) × List UInt8
  | (blocks, img), .send p => (blocks, Chunks.writeAt 0 img p.offsetInBlock p.data)
  | (blocks, img), .close p => (blocks ++ [Chunks.writeAt 0 img p.offsetInBlock p.data], [])

/-- Replay what a stream handed to its pipelines, with `base` in the first block: the blocks
closed, and the image of the current one. -/
def replay (base : List UInt8) (ops : List PipelineOp) : List (List UInt8) × List UInt8 :=
  ops.foldl replayOp ([], base)

@[simp] theorem replay_send (base : List UInt8) (ops : List PipelineOp) (p : OutPacket) :
    replay base (ops ++ [.send p]) =
      ((replay base ops).1, Chunks.writeAt 0 (replay base ops).2 p.offsetInBlock p.data) := by
  simp only [replay, List.foldl_append, List.foldl_cons, List.foldl_nil]
  rfl

@[simp] theorem replay_close (base : List UInt8) (ops : List PipelineOp) (p : OutPacket) :
    replay base (ops ++ [.close p]) =
      ((replay base ops).1 ++ [Chunks.writeAt 0 (replay base ops).2 p.offsetInBlock p.data],
        []) := by
  simp only [replay, List.foldl_append, List.foldl_cons, List.foldl_nil]
  rfl

/-- The checksums of a packet are the CRC32C of its data cut at the chunk boundaries of its
block. -/
def ChecksumsMatch (c : Nat) (p : OutPacket) : Prop :=
  p.checksums = (Chunks.pieces c p.offsetInBlock p.data).map crc32c

/-- Matching checksums are one for each piece. -/
theorem ChecksumsMatch.length_eq {c : Nat} {p : OutPacket} (h : ChecksumsMatch c p) :
    p.checksums.length = (Chunks.pieces c p.offsetInBlock p.data).length := by
  rw [h, List.length_map]

/-! ## The running checksum and the buffer -/

theorem SWCrc32c.update_update (s : SWCrc32c) (a b : List UInt8) :
    (s.update a).update b = s.update (a ++ b) := by
  simp [SWCrc32c.update, List.foldl_append]

@[simp] theorem SWCrc32c.update_nil (s : SWCrc32c) : s.update [] = s := rfl

theorem take_overwrite {l chunk : List UInt8} {pos : Nat} (h : pos + chunk.length ≤ l.length) :
    (overwrite l pos chunk).take (pos + chunk.length) = l.take pos ++ chunk := by
  rw [overwrite, List.take_left' (by simp; omega)]

/-! ## Packets -/

/-- A chunk that fits after the data of a packet whose data ends at a chunk boundary keeps the
checksums matched. -/
theorem ChecksumsMatch.addChunk {c : Nat} (hc : 0 < c) {p : OutPacket} (hp : ChecksumsMatch c p)
    {F : List UInt8} (hF : F ≠ [])
    (hlen : F.length ≤ c - (p.offsetInBlock + p.data.length) % c)
    (halign : p.data ≠ [] → (p.offsetInBlock + p.data.length) % c = 0) :
    ChecksumsMatch c (p.addChunk (crc32c F) F) := by
  unfold ChecksumsMatch at hp ⊢
  simp only [OutPacket.addChunk]
  by_cases hd : p.data = []
  · rw [hd] at hp hlen ⊢
    rw [hp, List.nil_append, Chunks.pieces_of_le hF hc (by simpa using hlen)]
    simp
  · rw [Chunks.pieces_append hc _ _ _ (halign hd), List.map_append, ← hp,
      Chunks.pieces_of_le hF hc hlen]
    rfl

namespace OutputStreamImpl

/-- The state once a whole chunk `F` has gone into the packet, with the checksum reset and the
buffer `b` empty again. -/
def completed (s : OutputStreamImpl) (F b : List UInt8) : OutputStreamImpl :=
  { s with
    nextSeqNo := if s.currentPacket.isSome then s.nextSeqNo else s.nextSeqNo + 1
    packets := s.poolOf
    currentPacket := some (s.packetOf.addChunk (crc32c F) F)
    bytesWritten := s.bytesWritten + F.length
    checksum := SWCrc32c.init
    position := 0
    buffer := b }

/-- A chunk that starts at `bytesWritten` and fills the chunk slot ends at a chunk boundary. -/
theorem add_sub_mod_mod (c w : Nat) (hc : 0 < c) : (w + (c - w % c)) % c = 0 := by
  have hlt : w % c < c := Nat.mod_lt w hc
  have hw : w + (c - w % c) = c * (w / c + 1) := by
    have := Nat.div_add_mod w c
    rw [Nat.mul_add, Nat.mul_one]
    omega
  rw [hw, Nat.mul_mod_right]

/-! ## The invariant -/

section Invariant

variable (c : Nat) (E : List UInt8)

/-- What the current packet holds: whole chunks of the block's content `C`, from its offset up to
`bytesWritten`, with their checksums, in a packet with room for one more chunk. -/
structure PacketOk (s : OutputStreamImpl) (C img : List UInt8) (p : OutPacket) : Prop where
  offset_le : p.offsetInBlock ≤ img.length
  end_eq : p.offsetInBlock + p.data.length = s.bytesWritten
  data_eq : (C.drop p.offsetInBlock).take p.data.length = p.data
  checksums : ChecksumsMatch c p
  packetSize_le : s.packetSize ≤ p.pktSize
  maxChunks_eq : p.maxChunks = s.chunksPerPacket
  length_checksums : p.checksums.length = p.numChunks
  numChunks_lt : p.numChunks < p.maxChunks
  length_data : p.data.length = p.numChunks * s.chunkSize
  aligned : p.data ≠ [] → s.bytesWritten % c = 0
  ne_blockSize : s.bytesWritten ≠ s.blockSize

/-- **The invariant**, for the bytes `D` appended so far and the content `C` of the current block:
the blocks replayed, then `C`, are `base` and `D`; the image of the current block is a front part
of `C`, and reaches `bytesWritten` when no packet is pending; `buffer` holds the rest of `C` and the
running checksum covers it; the chunk slot ends at a chunk boundary; every packet sent carries
matching checksums. -/
structure Core (D C : List UInt8) (s : OutputStreamImpl) : Prop where
  blocks : (replay E s.sent).1.flatten ++ C = E ++ D
  length_current : C.length = s.bytesWritten + s.position
  image : (replay E s.sent).2 <+: C
  buffer_take : s.buffer.take s.position = C.drop s.bytesWritten
  position_lt : s.position < s.buffer.length
  buffer_length : s.buffer.length = s.chunkSize
  chunkSize_eq : s.chunkSize = c - s.bytesWritten % c
  restore : s.chunkSize ≠ c → s.isAppend = true ∧ s.chunksPerPacket = 1
  packetSize_eq : s.packetSize = s.chunksPerPacket * (s.chunkSize + checksumSize) + pkgHeaderSize
  chunksPerPacket_pos : 0 < s.chunksPerPacket
  checksum_eq : s.checksum = SWCrc32c.init.update (s.buffer.take s.position)
  idle : s.currentPacket = none → s.bytesWritten ≤ (replay E s.sent).2.length
  packet : ∀ p, s.currentPacket = some p → PacketOk c s C (replay E s.sent).2 p
  sent_ok : ∀ op ∈ s.sent, ChecksumsMatch c op.packet

variable {c E}
variable {D C : List UInt8} {s : OutputStreamImpl}

theorem Core.bytesWritten_le (h : Core c E D C s) : s.bytesWritten ≤ C.length := by
  rw [h.length_current]
  exact Nat.le_add_right _ _

/-- What is appended extends the current block, past the place of every chunk already there. -/
theorem take_drop_append {C chunk data : List UInt8} {off : Nat}
    (hle : off + data.length ≤ C.length) :
    ((C ++ chunk).drop off).take data.length = (C.drop off).take data.length := by
  rw [List.drop_append_of_le_length (by omega), List.take_append_of_le_length (by simp; omega)]

/-- **A batch that leaves the chunk partial** goes into the buffer and the running checksum. -/
theorem Core.appendPartial (h : Core c E D C s) (chunk : List UInt8)
    (hlen : s.position + chunk.length < s.buffer.length) :
    Core c E (D ++ chunk) (C ++ chunk) { s with
      checksum := s.checksum.update chunk
      buffer := overwrite s.buffer s.position chunk
      position := s.position + chunk.length } where
  blocks := by rw [← List.append_assoc, h.blocks, List.append_assoc]
  length_current := by rw [List.length_append, h.length_current, Nat.add_assoc]
  image := h.image.trans (List.prefix_append C chunk)
  buffer_take := by
    rw [take_overwrite (by omega), h.buffer_take, List.drop_append_of_le_length h.bytesWritten_le]
  position_lt := by rw [length_overwrite (by omega)]; exact hlen
  buffer_length := by rw [length_overwrite (by omega)]; exact h.buffer_length
  chunkSize_eq := h.chunkSize_eq
  restore := h.restore
  packetSize_eq := h.packetSize_eq
  chunksPerPacket_pos := h.chunksPerPacket_pos
  checksum_eq := by
    rw [h.checksum_eq, SWCrc32c.update_update, take_overwrite (by omega)]
  idle := h.idle
  packet := fun p hp => by
    have hok := h.packet p hp
    exact { hok with
      data_eq := by
        rw [take_drop_append (by rw [hok.end_eq]; exact h.bytesWritten_le)]
        exact hok.data_eq }
  sent_ok := h.sent_ok

/-- The invariant carries the room in the packets. -/
theorem Core.ready (h : Core c E D C s) : Ready s where
  packetSize_eq := h.packetSize_eq
  chunksPerPacket_pos := h.chunksPerPacket_pos
  buffer_length := h.buffer_length
  current := fun p hp => by
    have hok := h.packet p hp
    refine ⟨?_, hok.length_checksums, hok.numChunks_lt.le, hok.length_data.le⟩
    rw [hok.maxChunks_eq, ← h.packetSize_eq]
    exact hok.packetSize_le
  notFull := fun p hp => (h.packet p hp).numChunks_lt

/-- There is room in the packet for one more chunk. -/
theorem Core.room (h : Core c E D C s) (buf : List UInt8) (hbuf : buf.length ≤ s.chunkSize) :
    s.packetOf.checksums.length < s.packetOf.maxChunks ∧
      (buf.length : Int) + (pkgHeaderSize + s.packetOf.maxChunks * checksumSize +
        s.packetOf.data.length) ≤ s.packetOf.pktSize := by
  obtain ⟨hfits, hlt⟩ := h.ready.packetOf_fits
  exact hfits.room hlt hbuf

/-- The chunk slot is never empty. -/
theorem Core.chunkSize_pos (h : Core c E D C s) (hc : 0 < c) : 0 < s.chunkSize := by
  rw [h.chunkSize_eq]
  exact Nat.sub_pos_of_lt (Nat.mod_lt _ hc)

/-- The whole chunk that goes out: the buffer, then the rest of the batch, which is the rest of the
chunk slot in the content. -/
theorem Core.chunk_eq (h : Core c E D C s) {chunk : List UInt8}
    (hfill : s.position + chunk.length = s.buffer.length) :
    s.buffer.take s.position ++ chunk = (C ++ chunk).drop s.bytesWritten ∧
      (s.buffer.take s.position ++ chunk).length = s.chunkSize := by
  refine ⟨by rw [h.buffer_take, List.drop_append_of_le_length h.bytesWritten_le], ?_⟩
  rw [List.length_append, List.length_take_of_le (Nat.le_of_lt h.position_lt), hfill,
    h.buffer_length]

/-- The packet the next chunk goes into holds whole chunks of `C` from its offset up to
`bytesWritten`, with matching checksums. -/
theorem Core.packetOf_ok (h : Core c E D C s) :
    s.packetOf.offsetInBlock ≤ (replay E s.sent).2.length ∧
      s.packetOf.offsetInBlock + s.packetOf.data.length = s.bytesWritten ∧
      (C.drop s.packetOf.offsetInBlock).take s.packetOf.data.length = s.packetOf.data ∧
      ChecksumsMatch c s.packetOf ∧ s.packetSize ≤ s.packetOf.pktSize ∧
      s.packetOf.maxChunks = s.chunksPerPacket ∧
      s.packetOf.checksums.length = s.packetOf.numChunks ∧
      s.packetOf.data.length = s.packetOf.numChunks * s.chunkSize ∧
      (s.packetOf.data ≠ [] → s.bytesWritten % c = 0) := by
  cases hcur : s.currentPacket with
  | none =>
    -- a new packet at `bytesWritten`, which the image of the block reaches
    simp only [packetOf, hcur, PacketPool.getPacket_offsetInBlock, PacketPool.getPacket_data,
      PacketPool.getPacket_maxChunks, PacketPool.getPacket_checksums,
      PacketPool.getPacket_numChunks, List.length_nil, Nat.add_zero, List.take_zero, Nat.zero_mul,
      ne_eq, not_true_eq_false, IsEmpty.forall_iff, and_true, true_and]
    exact ⟨h.idle hcur, by simp [ChecksumsMatch], PacketPool.le_getPacket_pktSize ..⟩
  | some p =>
    have hok := h.packet p hcur
    simp only [packetOf, hcur]
    exact ⟨hok.offset_le, hok.end_eq, hok.data_eq, hok.checksums, hok.packetSize_le,
      hok.maxChunks_eq, hok.length_checksums, hok.length_data, hok.aligned⟩

/-- The packet with a piece `F` of the content `C'` added at `bytesWritten`, inside the chunk slot:
it ends after `F`, holds the content up to there, and its checksums match. -/
theorem Core.addChunk_ok (h : Core c E D C s) (hc : 0 < c) {C' F : List UInt8} (hC : C <+: C')
    (hF : (C'.drop s.bytesWritten).take F.length = F) (hne : F ≠ [])
    (hlen : F.length ≤ s.chunkSize) :
    (s.packetOf.addChunk (crc32c F) F).offsetInBlock +
        (s.packetOf.addChunk (crc32c F) F).data.length = s.bytesWritten + F.length ∧
      (C'.drop (s.packetOf.addChunk (crc32c F) F).offsetInBlock).take
        (s.packetOf.addChunk (crc32c F) F).data.length = (s.packetOf.addChunk (crc32c F) F).data ∧
      ChecksumsMatch c (s.packetOf.addChunk (crc32c F) F) := by
  obtain ⟨-, hend, hdata, hcs, -, -, -, -, halign⟩ := h.packetOf_ok
  obtain ⟨t, rfl⟩ := hC
  refine ⟨?_, ?_, ?_⟩
  · simp only [OutPacket.addChunk]
    rw [List.length_append, ← Nat.add_assoc, hend]
  · simp only [OutPacket.addChunk]
    -- the old data, then `F` at `bytesWritten`
    rw [List.length_append, List.take_add, take_drop_append (by rw [hend]; exact h.bytesWritten_le),
      hdata, List.drop_drop, hend, hF]
  · refine hcs.addChunk hc hne ?_ (by rw [hend]; exact halign)
    rw [hend, ← h.chunkSize_eq]
    exact hlen

/-- The packet with the whole chunk `F` added: it ends at the next chunk boundary, at
`bytesWritten + chunkSize`, and holds the content up to there with matching checksums. -/
theorem Core.packet_completed (h : Core c E D C s) (hc : 0 < c) {chunk : List UInt8}
    (hfill : s.position + chunk.length = s.buffer.length) :
    let F := s.buffer.take s.position ++ chunk
    let p' := s.packetOf.addChunk (crc32c F) F
    p'.offsetInBlock ≤ (replay E s.sent).2.length ∧
      p'.offsetInBlock + p'.data.length = s.bytesWritten + s.chunkSize ∧
      (((C ++ chunk).drop p'.offsetInBlock).take p'.data.length = p'.data) ∧
      ChecksumsMatch c p' ∧ s.packetSize ≤ p'.pktSize ∧ p'.maxChunks = s.chunksPerPacket ∧
      p'.checksums.length = p'.numChunks ∧ p'.data.length = p'.numChunks * s.chunkSize := by
  obtain ⟨hF, hFlen⟩ := h.chunk_eq hfill
  have hne : s.buffer.take s.position ++ chunk ≠ [] := by
    intro hnil
    have := congrArg List.length hnil
    rw [hFlen] at this
    exact absurd this (Nat.pos_iff_ne_zero.mp (h.chunkSize_pos hc))
  obtain ⟨hoff, -, -, -, hsize, hmax, hlcs, hldata, -⟩ := h.packetOf_ok
  obtain ⟨hend, hdata, hcs⟩ := h.addChunk_ok hc (List.prefix_append C chunk)
    (by rw [← hF, List.take_length]) hne hFlen.le
  refine ⟨hoff, by rw [hend, hFlen], hdata, hcs, hsize, hmax, ?_, ?_⟩
  · simp only [OutPacket.addChunk, List.length_append, List.length_singleton]
    rw [hlcs]
  · simp only [OutPacket.addChunk]
    rw [List.length_append, hldata, hFlen, Nat.succ_mul]

/-- A full packet with room for one chunk only: the first packet of an append with a partial last
chunk. -/
theorem Core.isFull_of_chunkSize_ne (h : Core c E D C s) (hne : s.chunkSize ≠ c) (v : BitVec 32)
    (F : List UInt8) : (s.packetOf.addChunk v F).isFull = true := by
  obtain ⟨-, hone⟩ := h.restore hne
  have hmax : s.packetOf.maxChunks = 1 := by
    cases hp : s.currentPacket with
    | none => simp [packetOf, hp, hone]
    | some p => simp only [packetOf, hp]; rw [(h.packet p hp).maxChunks_eq, hone]
  simp [OutPacket.isFull, OutPacket.addChunk, hmax]

theorem Core.completed_length (h : Core c E D C s) {chunk : List UInt8}
    (hfill : s.position + chunk.length = s.buffer.length) :
    (C ++ chunk).length = s.bytesWritten + (s.buffer.take s.position ++ chunk).length := by
  rw [(h.chunk_eq hfill).2, List.length_append, h.length_current, ← h.buffer_length, ← hfill,
    Nat.add_assoc]

/-- **A whole chunk kept in a packet with room left**, before the end of the block. -/
theorem Core.keepCompleted (h : Core c E D C s) (hc : 0 < c) {chunk b : List UInt8}
    (hfill : s.position + chunk.length = s.buffer.length) (hb : b.length = s.buffer.length)
    (hkeep : ¬ ((s.packetOf.addChunk (crc32c (s.buffer.take s.position ++ chunk))
        (s.buffer.take s.position ++ chunk)).isFull = true ∨
      s.bytesWritten + (s.buffer.take s.position ++ chunk).length = s.blockSize)) :
    Core c E (D ++ chunk) (C ++ chunk) (s.completed (s.buffer.take s.position ++ chunk) b) := by
  obtain ⟨hF, hFlen⟩ := h.chunk_eq hfill
  obtain ⟨hoff, hend, hdata, hcs, hsize, hmax, hlcs, hldata⟩ := h.packet_completed hc hfill
  have hlen := h.completed_length hfill
  -- a packet with room left means the slot was a whole chunk
  have hchunk : s.chunkSize = c := by
    by_contra hne
    exact hkeep (.inl (h.isFull_of_chunkSize_ne hne _ _))
  have hmod : (s.bytesWritten + (s.buffer.take s.position ++ chunk).length) % c = 0 := by
    rw [hFlen, h.chunkSize_eq]
    exact add_sub_mod_mod c _ hc
  exact {
    blocks := by simp only [completed]; rw [← List.append_assoc, h.blocks, List.append_assoc]
    length_current := by simp only [completed]; rw [hlen, Nat.add_zero]
    image := h.image.trans (List.prefix_append C chunk)
    buffer_take := by
      simp only [completed, List.take_zero]
      rw [List.drop_eq_nil_of_le (by rw [hlen])]
    position_lt := by simp only [completed]; rw [hb, h.buffer_length]; exact h.chunkSize_pos hc
    buffer_length := by simp only [completed]; rw [hb, h.buffer_length]
    chunkSize_eq := by simp only [completed]; rw [hmod, Nat.sub_zero, hchunk]
    restore := fun hne => absurd hchunk hne
    packetSize_eq := h.packetSize_eq
    chunksPerPacket_pos := h.chunksPerPacket_pos
    checksum_eq := by simp [completed]
    idle := by simp [completed]
    packet := by
      intro p hp
      simp only [completed, Option.some.injEq] at hp
      subst hp
      exact {
        offset_le := hoff
        end_eq := by simp only [completed]; rw [hend, hFlen]
        data_eq := hdata
        checksums := hcs
        packetSize_le := hsize
        maxChunks_eq := hmax
        length_checksums := hlcs
        numChunks_lt := by
          have hnf := fun hf => hkeep (.inl hf)
          simpa [OutPacket.isFull] using hnf
        length_data := hldata
        aligned := fun _ => hmod
        ne_blockSize := fun he => hkeep (.inr he) }
    sent_ok := h.sent_ok }

/-- **Sending a whole chunk's packet**, and after the first packet of an append, the default sizes:
the image of the block is then the whole content. -/
theorem Core.sendCompleted (h : Core c E D C s) (hc : 0 < c) (conf : SessionConfig)
    (hconf : conf.defaultChunkSize = c) {chunk b : List UInt8}
    (hfill : s.position + chunk.length = s.buffer.length) (hb : b.length = s.buffer.length) :
    let F := s.buffer.take s.position ++ chunk
    let s₂ := (s.completed F b).sendPacket (s.packetOf.addChunk (crc32c F) F)
    let s₃ := if s₂.isAppend then restoreDefaults conf s₂ else s₂
    Core c E (D ++ chunk) (C ++ chunk) s₃ ∧ (replay E s₃.sent).2 = C ++ chunk ∧
      s₃.pipeline = true ∧ s₃.position = 0 ∧ s₃.currentPacket = none ∧ s₃.chunkSize = c ∧
      s₃.bytesWritten = s.bytesWritten + F.length ∧ s₃.blockSize = s.blockSize := by
  intro F s₂ s₃
  obtain ⟨hF, hFlen⟩ := h.chunk_eq hfill
  obtain ⟨hoff, hend, hdata, hcs, -, -, -, -⟩ := h.packet_completed hc hfill
  have hlen := h.completed_length hfill
  -- the image of the block after the packet: the content up to `bytesWritten`, that is all of it
  have himg : (replay E s₂.sent).2 = C ++ chunk := by
    simp only [s₂, sendPacket, completed, replay_send]
    have hle : (replay E s.sent).2.length ≤ (C ++ chunk).length :=
      (h.image.trans (List.prefix_append C chunk)).length_le
    rw [Chunks.writeAt_prefix (h.image.trans (List.prefix_append C chunk)) hoff hdata, hend,
      Nat.max_eq_right (by omega), ← hFlen, ← hlen, List.take_length]
  have hmod : (s.bytesWritten + F.length) % c = 0 := by
    rw [hFlen, h.chunkSize_eq]
    exact add_sub_mod_mod c _ hc
  -- the fields that the size reset leaves alone
  have hsame : s₃.sent = s₂.sent ∧ s₃.pipeline = true ∧ s₃.position = 0 ∧
      s₃.currentPacket = none ∧ s₃.bytesWritten = s.bytesWritten + F.length ∧
      s₃.blockSize = s.blockSize ∧ s₃.checksum = SWCrc32c.init := by
    simp only [s₃, s₂]
    split <;> simp [restoreDefaults, computePacketChunkSize, sendPacket, completed]
  obtain ⟨hsent, hpipe, hpos, hcur, hbw, hbs, hck⟩ := hsame
  -- the chunk size is the default again, and the buffer holds one chunk
  have hsizes : s₃.chunkSize = c ∧ s₃.buffer.length = c ∧
      s₃.packetSize = s₃.chunksPerPacket * (s₃.chunkSize + checksumSize) + pkgHeaderSize ∧
      0 < s₃.chunksPerPacket := by
    simp only [s₃]
    split
    · have hspec := computePacketChunkSize_spec
        { s₂ with
          isAppend := false
          chunkSize := conf.defaultChunkSize
          packetSize := conf.defaultPacketSize }
      refine ⟨by simp [restoreDefaults, computePacketChunkSize, hconf], by
        simp [restoreDefaults, computePacketChunkSize, hconf], hspec⟩
    · rename_i happ
      have hchunk : s.chunkSize = c := by
        by_contra hne
        exact happ (h.restore hne).1
      refine ⟨hchunk, by simp [s₂, sendPacket, completed, hb, h.buffer_length, hchunk],
        h.packetSize_eq, h.chunksPerPacket_pos⟩
  obtain ⟨hchunk, hblen, hpkt, hcpp⟩ := hsizes
  refine ⟨{
    blocks := by
      rw [hsent]
      simp only [s₂, sendPacket, completed, replay_send]
      rw [← List.append_assoc, h.blocks, List.append_assoc]
    length_current := by rw [hbw, hpos, hlen, Nat.add_zero]
    image := by rw [hsent, himg]
    buffer_take := by rw [hpos, hbw, List.take_zero, List.drop_eq_nil_of_le (by rw [hlen])]
    position_lt := by rw [hpos, hblen]; exact hc
    buffer_length := by rw [hblen, hchunk]
    chunkSize_eq := by rw [hchunk, hbw, hmod, Nat.sub_zero]
    restore := fun hne => absurd hchunk hne
    packetSize_eq := hpkt
    chunksPerPacket_pos := hcpp
    checksum_eq := by rw [hck, hpos, List.take_zero, SWCrc32c.update_nil]
    idle := fun _ => by rw [hsent, himg, hbw, hlen]
    packet := fun p hp => absurd (hcur ▸ hp) (by simp)
    sent_ok := by
      rw [hsent]
      simp only [s₂, sendPacket, completed, List.mem_append, List.mem_singleton]
      rintro op (hop | rfl)
      · exact h.sent_ok op hop
      · exact hcs }, by rw [hsent, himg], hpipe, hpos, hcur, hchunk, hbw, hbs⟩

/-- **The end of a block**: with the image of the block the whole content and nothing pending,
`closePipeline` closes it and starts the next block empty. -/
theorem Core.closePipeline (h : Core c E D C s) (hpipe : s.pipeline = true)
    (hcur : s.currentPacket = none) (hpos : s.position = 0) (himg : (replay E s.sent).2 = C)
    (hchunk : s.chunkSize = c) : Core c E D [] s.closePipeline := by
  have hlen : C.length = s.bytesWritten := by rw [h.length_current, hpos, Nat.add_zero]
  -- the empty last packet leaves the image as it is
  have hlast : Chunks.writeAt 0 C s.bytesWritten [] = C := Chunks.writeAt_nil h.bytesWritten_le
  have hsent : s.closePipeline.sent =
      s.sent ++ [.close (PacketPool.getPacket s.packets s.packetSize s.chunksPerPacket
        s.bytesWritten s.nextSeqNo).1] := by
    simp [OutputStreamImpl.closePipeline, hpipe, hcur]
  have hfields : s.closePipeline.bytesWritten = 0 ∧ s.closePipeline.position = s.position ∧
      s.closePipeline.buffer = s.buffer ∧ s.closePipeline.chunkSize = s.chunkSize ∧
      s.closePipeline.packetSize = s.packetSize ∧
      s.closePipeline.chunksPerPacket = s.chunksPerPacket ∧
      s.closePipeline.checksum = s.checksum ∧ s.closePipeline.currentPacket = none := by
    simp [OutputStreamImpl.closePipeline, hpipe, hcur]
  obtain ⟨hbw, hpos', hbuf, hcs, hps, hcpp, hck, hcur'⟩ := hfields
  exact {
    blocks := by
      rw [hsent, replay_close, himg]
      simp only [PacketPool.getPacket_offsetInBlock, PacketPool.getPacket_data]
      rw [hlast, List.flatten_append, List.flatten_singleton, List.append_nil, h.blocks]
    length_current := by rw [hbw, hpos', hpos, List.length_nil]
    image := by rw [hsent, replay_close]
    buffer_take := by rw [hpos', hpos, hbw, List.take_zero, List.drop_nil]
    position_lt := by rw [hpos', hbuf]; exact h.position_lt
    buffer_length := by rw [hbuf, hcs]; exact h.buffer_length
    chunkSize_eq := by rw [hcs, hbw, hchunk, Nat.zero_mod, Nat.sub_zero]
    restore := fun hne => absurd (hcs ▸ hchunk) hne
    packetSize_eq := by rw [hps, hcpp, hcs]; exact h.packetSize_eq
    chunksPerPacket_pos := by rw [hcpp]; exact h.chunksPerPacket_pos
    checksum_eq := by rw [hck, hpos', hbuf]; exact h.checksum_eq
    idle := fun _ => by rw [hbw]; exact Nat.zero_le _
    packet := fun p hp => absurd (hcur' ▸ hp) (by simp)
    sent_ok := by
      rw [hsent]
      simp only [List.mem_append, List.mem_singleton]
      rintro op (hop | rfl)
      · exact h.sent_ok op hop
      · simp [ChecksumsMatch, PipelineOp.packet] }

/-- **Nothing to send after a partial batch**: the packet pending, if any, has room and ends before
the end of the block. -/
theorem Core.afterBatch_eq (h : Core c E D C s) (conf : SessionConfig) : afterBatch conf s = s := by
  cases hp : s.currentPacket with
  | none => simp only [afterBatch, hp]
  | some p =>
    have hok := h.packet p hp
    have hnf : ¬ (p.isFull = true ∨ s.bytesWritten = s.blockSize) := by
      rintro (hf | hb)
      · simp only [OutPacket.isFull, decide_eq_true_eq] at hf
        exact absurd hok.numChunks_lt (Nat.not_lt.mpr hf)
      · exact hok.ne_blockSize hb
    simp only [afterBatch, hp]
    rw [if_neg hnf]

/-- **A batch that fills the chunk slot**, past the buffer or through it: the whole chunk goes into
the packet, and the buffer is empty again. -/
theorem Core.appendBatch_full (h : Core c E D C s) {chunk : List UInt8} {bypass : Bool}
    (hfill : s.position + chunk.length = s.buffer.length) (hbyp : bypass = true → s.position = 0) :
    ∃ b, b.length = s.buffer.length ∧
      s.appendBatch chunk bypass = .ok (s.completed (s.buffer.take s.position ++ chunk) b) := by
  have hroom := h.room (s.buffer.take s.position ++ chunk) (by rw [(h.chunk_eq hfill).2])
  cases bypass with
  | true =>
    -- the buffer is empty: the chunk goes straight into the packet
    have hpos := hbyp rfl
    have hck : s.checksum = SWCrc32c.init := by rw [h.checksum_eq, hpos, List.take_zero]; rfl
    rw [hpos, List.take_zero, List.nil_append] at hroom
    refine ⟨s.buffer, rfl, ?_⟩
    simp only [appendBatch, if_true]
    rw [appendChunkToPacket_eq { s with checksum := s.checksum.update chunk } _ hroom.1 hroom.2]
    cases s
    simp only at hpos hck
    subst hpos hck
    rfl
  | false =>
    have hlen : (overwrite s.buffer s.position chunk).length = s.buffer.length :=
      length_overwrite (by omega)
    -- the buffer, once full, is the whole chunk
    have hbuf : overwrite s.buffer s.position chunk = s.buffer.take s.position ++ chunk := by
      rw [← take_overwrite (by omega), hfill, ← hlen, List.take_length]
    refine ⟨overwrite s.buffer s.position chunk, hlen, ?_⟩
    simp only [appendBatch, Bool.false_eq_true, if_false]
    rw [if_pos (by rw [hlen]; exact hfill)]
    rw [hbuf]
    rw [appendChunkToPacket_eq { s with
      checksum := s.checksum.update chunk
      buffer := s.buffer.take s.position ++ chunk
      position := s.position + chunk.length } _ hroom.1 hroom.2]
    have hck : (s.checksum.update chunk).getValue = crc32c (s.buffer.take s.position ++ chunk) := by
      rw [h.checksum_eq, SWCrc32c.update_update]; rfl
    simp only [Except.map, completed, hck, SWCrc32c.reset]
    rfl

/-- **A batch that leaves the chunk partial** goes into the buffer only. -/
theorem appendBatch_partial (s : OutputStreamImpl) {chunk : List UInt8}
    (hlen : s.position + chunk.length < s.buffer.length) :
    s.appendBatch chunk false = .ok { s with
      checksum := s.checksum.update chunk
      buffer := overwrite s.buffer s.position chunk
      position := s.position + chunk.length } := by
  simp only [appendBatch, Bool.false_eq_true, if_false]
  rw [if_neg (by rw [length_overwrite (by omega)]; omega)]

/-- The loop of `appendInternal` leaves the counters of the calls, `cursor` and `lastFlushed`,
alone. -/
theorem closePipeline_counters (s : OutputStreamImpl) :
    s.closePipeline.cursor = s.cursor ∧ s.closePipeline.lastFlushed = s.lastFlushed := by
  unfold closePipeline
  split
  · exact ⟨rfl, rfl⟩
  · cases s.currentPacket <;> exact ⟨rfl, rfl⟩

theorem afterBatch_counters (conf : SessionConfig) (s : OutputStreamImpl) :
    (afterBatch conf s).cursor = s.cursor ∧ (afterBatch conf s).lastFlushed = s.lastFlushed := by
  -- the block may close once the packet is sent
  have hclose : ∀ t : OutputStreamImpl,
      (if t.bytesWritten = t.blockSize then t.closePipeline else t).cursor = t.cursor ∧
        (if t.bytesWritten = t.blockSize then t.closePipeline else t).lastFlushed =
          t.lastFlushed := fun t => by
    split
    · exact closePipeline_counters t
    · exact ⟨rfl, rfl⟩
  unfold afterBatch
  split
  · split
    · dsimp only
      rw [(hclose _).1, (hclose _).2]
      split <;> exact ⟨rfl, rfl⟩
    · exact ⟨rfl, rfl⟩
  · exact ⟨rfl, rfl⟩

/-- The block ends when `bytesWritten` reaches `blockSize`, and goes on otherwise. -/
theorem Core.closeAtEnd (h : Core c E D C s) (hpipe : s.pipeline = true)
    (hcur : s.currentPacket = none) (hpos : s.position = 0) (himg : (replay E s.sent).2 = C)
    (hchunk : s.chunkSize = c) :
    ∃ C', Core c E D C' (if s.bytesWritten = s.blockSize then s.closePipeline else s) := by
  split
  · exact ⟨[], h.closePipeline hpipe hcur hpos himg hchunk⟩
  · exact ⟨C, h⟩

@[simp] theorem currentPacket_completed (s : OutputStreamImpl) (F b : List UInt8) :
    (s.completed F b).currentPacket = some (s.packetOf.addChunk (crc32c F) F) := rfl

/-- **After a whole chunk**: the packet is kept, or sent, with the default sizes back after the
first packet of an append, and the block is closed at its end. -/
theorem Core.afterBatch_completed (h : Core c E D C s) (hc : 0 < c) (conf : SessionConfig)
    (hconf : conf.defaultChunkSize = c) {chunk b : List UInt8}
    (hfill : s.position + chunk.length = s.buffer.length) (hb : b.length = s.buffer.length) :
    ∃ C', Core c E (D ++ chunk) C'
      (afterBatch conf (s.completed (s.buffer.take s.position ++ chunk) b)) := by
  simp only [afterBatch, currentPacket_completed]
  split
  · rename_i hsend
    obtain ⟨hcore, himg, hpipe, hpos, hcur, hchunk, -, -⟩ :=
      h.sendCompleted hc conf hconf hfill hb
    exact hcore.closeAtEnd hpipe hcur hpos himg hchunk
  · rename_i hkeep
    exact ⟨C ++ chunk, h.keepCompleted hc hfill hb hkeep⟩

/-- **One round of the loop**: a batch that fits in the chunk slot, past the buffer only when it
fills the whole of an empty slot. -/
theorem Core.appendRound (h : Core c E D C s) (hc : 0 < c) (conf : SessionConfig)
    (hconf : conf.defaultChunkSize = c) (chunk : List UInt8) (bypass : Bool)
    (hlen : s.position + chunk.length ≤ s.buffer.length)
    (hbyp : bypass = true → s.position = 0 ∧ s.position + chunk.length = s.buffer.length) :
    ∃ s₁ C₁, s.appendBatch chunk bypass = .ok s₁ ∧ Core c E (D ++ chunk) C₁ (afterBatch conf s₁) ∧
      s₁.cursor = s.cursor ∧ s₁.lastFlushed = s.lastFlushed := by
  rcases Nat.lt_or_eq_of_le hlen with hlt | hfill
  · -- the chunk stays partial: into the buffer, and nothing to send
    have hb : bypass = false := by
      cases bypass with
      | false => rfl
      | true => exact absurd (hbyp rfl).2 (Nat.ne_of_lt hlt)
    subst hb
    have hcore := h.appendPartial chunk hlt
    refine ⟨_, C ++ chunk, appendBatch_partial s hlt, ?_, rfl, rfl⟩
    rw [hcore.afterBatch_eq conf]
    exact hcore
  · obtain ⟨b, hb, heq⟩ := h.appendBatch_full hfill (fun hb => (hbyp hb).1)
    obtain ⟨C', hC'⟩ := h.afterBatch_completed hc conf hconf hfill hb
    exact ⟨_, C', heq, hC', rfl, rfl⟩

/-- **The loop of `appendInternal`**: with more fuel than bytes to go, every round takes its batch
of the last `todo` bytes of `buf`, and the invariant holds for the content with all of them. -/
theorem Core.appendLoop_ok (hc : 0 < c) (conf : SessionConfig) (hconf : conf.defaultChunkSize = c)
    (buf : List UInt8) :
    ∀ (fuel todo : Nat) {D C : List UInt8} {s : OutputStreamImpl}, Core c E D C s →
      todo < fuel → todo ≤ buf.length →
      ∃ s' C', appendLoop conf buf fuel todo s = .ok s' ∧
        Core c E (D ++ buf.drop (buf.length - todo)) C' s' ∧
        s'.cursor = s.cursor ∧ s'.lastFlushed = s.lastFlushed
  | 0, _, _, _, _, _, hfuel, _ => absurd hfuel (Nat.not_lt_zero _)
  | fuel + 1, todo, D, C, s, h, hfuel, htodo => by
    by_cases h0 : todo = 0
    · subst h0
      refine ⟨s, C, by simp [appendLoop], ?_, rfl, rfl⟩
      rw [Nat.sub_zero, List.drop_length, List.append_nil]
      exact h
    · -- the batch: up to the end of the chunk slot, or the rest of the bytes
      have hposlt := h.position_lt
      have hclen : ((buf.drop (buf.length - todo)).take
          (min (s.buffer.length - s.position) todo)).length =
          min (s.buffer.length - s.position) todo := by
        simp only [List.length_take, List.length_drop]
        omega
      have hsplit : buf.drop (buf.length - todo) =
          (buf.drop (buf.length - todo)).take (min (s.buffer.length - s.position) todo) ++
            buf.drop (buf.length - (todo - min (s.buffer.length - s.position) todo)) := by
        rw [show buf.length - (todo - min (s.buffer.length - s.position) todo) =
          buf.length - todo + min (s.buffer.length - s.position) todo by omega, ← List.drop_drop,
          List.take_append_drop]
      obtain ⟨s₁, C₁, hround, hcore₁, hcur₁, hlf₁⟩ := h.appendRound hc conf hconf
        ((buf.drop (buf.length - todo)).take (min (s.buffer.length - s.position) todo))
        (decide (s.position = 0 ∧ todo ≥ s.buffer.length))
        (by rw [hclen]; omega) (fun hb => by simp only [decide_eq_true_eq] at hb; omega)
      obtain ⟨s', C', hrun, hcore', hcur', hlf'⟩ :=
        Core.appendLoop_ok hc conf hconf buf fuel (todo - min (s.buffer.length - s.position) todo)
          hcore₁ (by omega) (by omega)
      obtain ⟨hcur₂, hlf₂⟩ := afterBatch_counters conf s₁
      refine ⟨s', C', ?_, ?_, by rw [hcur', hcur₂, hcur₁], by rw [hlf', hlf₂, hlf₁]⟩
      · simp only [appendLoop, if_neg h0]
        rw [hround]
        exact hrun
      · rw [hsplit, ← List.append_assoc]
        exact hcore'

/-- `cursor` and `lastFlushed` are not part of `Core`. -/
theorem Core.counters (h : Core c E D C s) (n m : Nat) :
    Core c E D C { s with cursor := n, lastFlushed := m } :=
  { h with packet := fun p hp => { h.packet p hp with } }

/-- With the buffer empty and no packet pending, the image of the block is the whole content. -/
theorem Core.image_eq_of_idle (h : Core c E D C s) (hpos : s.position = 0)
    (hcur : s.currentPacket = none) : (replay E s.sent).2 = C := by
  have hlen : C.length = s.bytesWritten := by rw [h.length_current, hpos, Nat.add_zero]
  exact h.image.eq_of_length (Nat.le_antisymm h.image.length_le (hlen ▸ h.idle hcur))

/-- **Sending a packet that reaches the end of the content**: the image of the block is then the
whole content, and nothing is pending. -/
theorem Core.sendWhole (h : Core c E D C s) {p : OutPacket}
    (hoff : p.offsetInBlock ≤ (replay E s.sent).2.length)
    (hdata : (C.drop p.offsetInBlock).take p.data.length = p.data)
    (hend : p.offsetInBlock + p.data.length = C.length) (hcs : ChecksumsMatch c p) (n : Nat)
    (pool : List OutPacket) :
    Core c E D C { s with
      nextSeqNo := n, packets := pool, pipeline := true, sent := s.sent ++ [.send p],
      currentPacket := none } ∧
      (replay E (s.sent ++ [.send p])).2 = C := by
  have himg : (replay E (s.sent ++ [.send p])).2 = C := by
    rw [replay_send, Chunks.writeAt_prefix h.image hoff hdata, hend,
      Nat.max_eq_right h.image.length_le, List.take_length]
  refine ⟨{ h with
    blocks := by
      show (replay E (s.sent ++ [.send p])).1.flatten ++ C = E ++ D
      rw [replay_send]
      exact h.blocks
    image := by
      show (replay E (s.sent ++ [.send p])).2 <+: C
      rw [himg]
    idle := fun _ => by
      show s.bytesWritten ≤ (replay E (s.sent ++ [.send p])).2.length
      rw [himg]
      exact h.bytesWritten_le
    packet := fun q hq => absurd hq (by simp)
    sent_ok := by
      show ∀ op ∈ s.sent ++ [.send p], ChecksumsMatch c op.packet
      simp only [List.mem_append, List.mem_singleton]
      rintro op (hop | rfl)
      · exact h.sent_ok op hop
      · exact hcs }, himg⟩

/-- **Sending the packet pending** with the buffer empty. -/
theorem Core.sendCurrent (h : Core c E D C s) (hpos : s.position = 0) {p : OutPacket}
    (hp : s.currentPacket = some p) :
    Core c E D C (s.sendPacket p) ∧ (replay E (s.sendPacket p).sent).2 = C := by
  have hok := h.packet p hp
  have hlen : C.length = s.bytesWritten := by rw [h.length_current, hpos, Nat.add_zero]
  exact h.sendWhole hok.offset_le hok.data_eq (by rw [hok.end_eq, hlen]) hok.checksums s.nextSeqNo
    s.packets

/-- **Sending the partial chunk** (`flush`, `sync` and `close`): the bytes of the buffer go into the
packet, with the running checksum, and the packet goes out. The image of the block is then the
whole content; the bytes stay in the buffer, to go again in the whole chunk. -/
theorem Core.sendPartial (h : Core c E D C s) (hc : 0 < c) (hpos : 0 < s.position) :
    ∃ t, s.appendChunkToPacket (s.buffer.take s.position) = .ok t ∧ ∃ p,
      t.currentPacket = some p ∧ Core c E D C (t.sendPacket p) ∧
        (replay E (t.sendPacket p).sent).2 = C ∧ t.cursor = s.cursor ∧
        t.lastFlushed = s.lastFlushed := by
  have hPlen : (s.buffer.take s.position).length = s.position :=
    List.length_take_of_le (Nat.le_of_lt h.position_lt)
  have hPle : (s.buffer.take s.position).length ≤ s.chunkSize := by
    rw [hPlen, ← h.buffer_length]
    exact Nat.le_of_lt h.position_lt
  have hne : s.buffer.take s.position ≠ [] := by
    intro hnil
    rw [hnil, List.length_nil] at hPlen
    omega
  have hck : s.checksum.getValue = crc32c (s.buffer.take s.position) := by
    rw [h.checksum_eq]
    rfl
  have hroom := h.room _ hPle
  obtain ⟨hoff, -⟩ := h.packetOf_ok
  obtain ⟨hend, hdata, hcs⟩ := h.addChunk_ok hc (List.prefix_refl C)
    (by rw [← h.buffer_take, List.take_length]) hne hPle
  refine ⟨_, appendChunkToPacket_eq s _ hroom.1 hroom.2, _, rfl, ?_⟩
  rw [hck]
  obtain ⟨hcore, himg⟩ := h.sendWhole
    (p := s.packetOf.addChunk (crc32c (s.buffer.take s.position)) (s.buffer.take s.position))
    hoff hdata (by rw [hend, hPlen, h.length_current]) hcs
    (if s.currentPacket.isSome then s.nextSeqNo else s.nextSeqNo + 1) s.poolOf
  exact ⟨hcore, himg, rfl, rfl⟩

/-- **The end of the stream**: with the whole content in the image of the block and nothing
pending, `closePipeline` closes the block, and the blocks replayed are the whole content. -/
theorem Core.replay_closePipeline (h : Core c E D C s) (himg : (replay E s.sent).2 = C)
    (hcur : s.currentPacket = none) :
    (replay E s.closePipeline.sent).1.flatten ++ (replay E s.closePipeline.sent).2 = E ++ D ∧
      ∀ op ∈ s.closePipeline.sent, ChecksumsMatch c op.packet := by
  unfold OutputStreamImpl.closePipeline
  split
  · -- no pipeline: nothing was sent in this block
    exact ⟨by rw [himg]; exact h.blocks, h.sent_ok⟩
  · simp only [hcur]
    refine ⟨?_, ?_⟩
    · rw [replay_close, himg]
      simp only [PacketPool.getPacket_offsetInBlock, PacketPool.getPacket_data]
      rw [Chunks.writeAt_nil h.bytesWritten_le, List.flatten_append, List.flatten_singleton,
        List.append_nil, h.blocks]
    · simp only [List.mem_append, List.mem_singleton]
      rintro op (hop | rfl)
      · exact h.sent_ok op hop
      · simp [ChecksumsMatch, PipelineOp.packet]

end Invariant

/-! ## Between calls -/

section Calls

variable (c : Nat) (E : List UInt8)

/-- **The invariant between calls**: `Core`, with `lastFlushed` behind `cursor`; right after a
flush, the whole content is in the image of the block and no packet is pending. -/
structure Inv (D C : List UInt8) (s : OutputStreamImpl) : Prop extends Core c E D C s where
  lastFlushed_le : s.lastFlushed ≤ s.cursor
  flushed : s.lastFlushed = s.cursor → (replay E s.sent).2 = C ∧ s.currentPacket = none

variable {c E}
variable {D C : List UInt8} {s : OutputStreamImpl}

/-- A state that has just flushed. -/
theorem Inv.of_flushed (h : Core c E D C s) (hlf : s.lastFlushed = s.cursor)
    (himg : (replay E s.sent).2 = C) (hcur : s.currentPacket = none) : Inv c E D C s :=
  ⟨h, hlf.le, fun _ => ⟨himg, hcur⟩⟩

/-- **`appendInternal`** never fails, and appends `buf` to the content. -/
theorem Inv.appendInternal_inv (h : Inv c E D C s) (hc : 0 < c) (conf : SessionConfig)
    (hconf : conf.defaultChunkSize = c) (buf : List UInt8) :
    ∃ s' C', s.appendInternal conf buf = .ok s' ∧ Inv c E (D ++ buf) C' s' := by
  by_cases hbuf : buf = []
  · -- nothing to append: the cursor moves by nothing
    subst hbuf
    refine ⟨_, C, rfl, ?_⟩
    rw [List.append_nil]
    exact h
  · have hlen : 0 < buf.length := List.length_pos_iff.mpr hbuf
    obtain ⟨s₁, C₁, hloop, hcore, hcur, hlf⟩ :=
      Core.appendLoop_ok hc conf hconf buf (buf.length + 1) buf.length h.toCore
        (Nat.lt_succ_self _) le_rfl
    rw [Nat.sub_self, List.drop_zero] at hcore
    refine ⟨{ s₁ with cursor := s₁.cursor + buf.length }, C₁, by rw [appendInternal, hloop]; rfl,
      ⟨hcore.counters _ _, ?_, ?_⟩⟩
    · show s₁.lastFlushed ≤ s₁.cursor + buf.length
      rw [hcur, hlf]
      exact Nat.le_add_right_of_le h.lastFlushed_le
    · -- the cursor has moved past `lastFlushed`
      intro heq
      have hmoved : s₁.lastFlushed = s₁.cursor + buf.length := heq
      rw [hcur, hlf] at hmoved
      have := h.lastFlushed_le
      omega

/-- **`flush` and `sync`** never fail: what is pending goes out, and the image of the block is then
the whole content. -/
theorem Inv.flushInternal_inv (h : Inv c E D C s) (hc : 0 < c) (needSync : Bool) :
    ∃ s', s.flushInternal needSync = .ok s' ∧ Inv c E D C s' := by
  by_cases hskip : s.lastFlushed = s.cursor ∧ needSync = false
  · exact ⟨s, by rw [flushInternal, if_pos hskip], h⟩
  rw [flushInternal, if_neg hskip]
  dsimp only
  have hcore := h.toCore.counters s.cursor s.cursor
  by_cases hpos : 0 < s.position
  · -- the partial chunk goes out
    obtain ⟨t, ht, p, hp, hsent, himg, hcur, hlf⟩ := hcore.sendPartial hc hpos
    rw [if_pos hpos, ht]
    refine ⟨t.sendPacket p, ?_, Inv.of_flushed hsent (hlf.trans hcur.symm) himg rfl⟩
    simp [Except.map, hp]
  have hpos0 : s.position = 0 := Nat.eq_zero_of_not_pos hpos
  rw [if_neg hpos]
  cases hcur : s.currentPacket with
  | some p =>
    -- the packet pending goes out
    obtain ⟨hsent, himg⟩ := hcore.sendCurrent hpos0 (p := p) hcur
    refine ⟨_, ?_, Inv.of_flushed hsent rfl himg rfl⟩
    simp [Except.map, hcur]
  | none =>
    by_cases hsync : needSync = true ∧ s.pipeline = true
    · -- `sync` with nothing to send sends an empty packet
      obtain ⟨hsent, himg⟩ := hcore.sendWhole
        (p := (PacketPool.getPacket s.packets s.packetSize s.chunksPerPacket s.bytesWritten
          s.nextSeqNo).1)
        (by simpa using h.idle hcur) (by simp)
        (by simp [h.length_current, hpos0]) (by simp [ChecksumsMatch])
        (s.nextSeqNo + 1)
        (PacketPool.getPacket s.packets s.packetSize s.chunksPerPacket s.bytesWritten s.nextSeqNo).2
      refine ⟨_, ?_, Inv.of_flushed hsent rfl himg rfl⟩
      simp [Except.map, hsync, sendPacket]
    · refine ⟨_, ?_, Inv.of_flushed hcore rfl (h.image_eq_of_idle hpos0 hcur) hcur⟩
      simp [Except.map, hcur, hsync]

/-- **`close`** never fails; afterwards the blocks replayed are the whole content, and every packet
handed over carries matching checksums. -/
theorem Inv.close_replay (h : Inv c E D C s) (hc : 0 < c) :
    ∃ s', s.close = .ok s' ∧ (replay E s'.sent).1.flatten ++ (replay E s'.sent).2 = E ++ D ∧
      ∀ op ∈ s'.sent, ChecksumsMatch c op.packet := by
  -- before `closePipeline` everything has gone out, so that the image is the whole content
  suffices hpre : ∃ u, s.close = .ok u.closePipeline ∧ Core c E D C u ∧
      (replay E u.sent).2 = C ∧ u.currentPacket = none by
    obtain ⟨u, hclose, hcore, himg, hcur⟩ := hpre
    exact ⟨_, hclose, hcore.replay_closePipeline himg hcur⟩
  by_cases hfl : s.lastFlushed = s.cursor
  · obtain ⟨himg, hcur⟩ := h.flushed hfl
    exact ⟨s, by simp [close, hfl, Except.map], h.toCore, himg, hcur⟩
  by_cases hpos : 0 < s.position
  · obtain ⟨t, ht, p, hp, hsent, himg, hcur, hlf⟩ := h.toCore.sendPartial hc hpos
    refine ⟨t.sendPacket p, ?_, hsent, himg, rfl⟩
    rw [close, if_pos ⟨hfl, hpos⟩, ht]
    simp [Except.map, hp, hcur, hlf, hfl]
  have hpos0 : s.position = 0 := Nat.eq_zero_of_not_pos hpos
  rw [close, if_neg (fun hsend => hpos hsend.2)]
  cases hcur : s.currentPacket with
  | some p =>
    obtain ⟨hsent, himg⟩ := h.toCore.sendCurrent hpos0 hcur
    exact ⟨_, by simp [Except.map, hfl, hcur], hsent, himg, rfl⟩
  | none =>
    exact ⟨s, by simp [Except.map, hfl, hcur], h.toCore, h.toCore.image_eq_of_idle hpos0 hcur, hcur⟩

/-- The bytes a call appends. -/
def StreamCall.data : StreamCall → List UInt8
  | .append buf => buf
  | .flush => []
  | .sync => []

/-- **A run of calls** never fails, and appends the bytes of its `append` calls. -/
theorem Inv.run_inv (hc : 0 < c) (conf : SessionConfig) (hconf : conf.defaultChunkSize = c) :
    ∀ (calls : List StreamCall) {D C : List UInt8} {s : OutputStreamImpl}, Inv c E D C s →
      ∃ s' C', s.run conf calls = .ok s' ∧
        Inv c E (D ++ (calls.map StreamCall.data).flatten) C' s'
  | [], D, C, s, h => ⟨s, C, rfl, by rw [List.map_nil, List.flatten_nil, List.append_nil]; exact h⟩
  | call :: calls, D, C, s, h => by
    -- the first call, then the others
    obtain ⟨s₁, C₁, h₁, hinv₁⟩ : ∃ s₁ C₁, s.apply conf call = .ok s₁ ∧
        Inv c E (D ++ call.data) C₁ s₁ := by
      cases call with
      | append buf => exact h.appendInternal_inv hc conf hconf buf
      | flush =>
        obtain ⟨s', hs', hi⟩ := h.flushInternal_inv hc false
        exact ⟨s', C, hs', by rw [StreamCall.data, List.append_nil]; exact hi⟩
      | sync =>
        obtain ⟨s', hs', hi⟩ := h.flushInternal_inv hc true
        exact ⟨s', C, hs', by rw [StreamCall.data, List.append_nil]; exact hi⟩
    obtain ⟨s', C', hrun, hinv⟩ := Inv.run_inv hc conf hconf calls hinv₁
    refine ⟨s', C', ?_, ?_⟩
    · rw [OutputStreamImpl.run, h₁]
      exact hrun
    · rw [List.map_cons, List.flatten_cons, ← List.append_assoc]
      exact hinv

end Calls

/-! ## Opening the stream -/

/-- A quotient rounded toward zero of less than the divisor is not positive. -/
theorem tdiv_nonpos_of_lt {n d : Int} (hd : 0 < d) (h : n < d) : n.tdiv d ≤ 0 := by
  by_cases hn : 0 ≤ n
  · rw [Int.tdiv_eq_ediv_of_nonneg hn, Int.ediv_eq_zero_of_lt hn h]
  · -- a negative quotient, rounded up to zero at most
    have hneg := Int.tdiv_nonneg (show 0 ≤ -n by omega) (Int.le_of_lt hd)
    rw [Int.neg_tdiv] at hneg
    omega

/-- Asked for no room beyond the header, `computePacketChunkSize` makes room for one chunk. -/
theorem computePacketChunkSize_of_packetSize_zero (s : OutputStreamImpl)
    (hp : s.packetSize = 0) : s.computePacketChunkSize.chunksPerPacket = 1 := by
  simp only [computePacketChunkSize, hp]
  have hle := tdiv_nonpos_of_lt (n := 0 - pkgHeaderSize + (s.chunkSize + checksumSize) - 1)
    (d := s.chunkSize + checksumSize) (by simp only [checksumSize]; omega)
    (by simp only [pkgHeaderSize]; omega)
  rw [if_neg (by omega)]
  rfl

/-- **A stream just opened** holds the bytes `E` of the block it appends to, with its chunk slot
ending at a chunk boundary. -/
theorem inv_computePacketChunkSize {c : Nat} {E : List UInt8} (hc : 0 < c) {t : OutputStreamImpl}
    (hsent : t.sent = []) (hbw : t.bytesWritten = E.length) (hpos : t.position = 0)
    (hchunk : t.chunkSize = c - E.length % c)
    (hrestore : t.chunkSize ≠ c → t.isAppend = true ∧ t.packetSize = 0)
    (hck : t.checksum = SWCrc32c.init) (hcur : t.currentPacket = none) (hlf : t.lastFlushed = 0) :
    Inv c E [] E t.computePacketChunkSize := by
  have hk : 0 < t.chunkSize := by
    rw [hchunk]
    exact Nat.sub_pos_of_lt (Nat.mod_lt _ hc)
  have hrep : replay E t.computePacketChunkSize.sent = ([], E) := by
    show replay E t.sent = ([], E)
    rw [hsent]
    rfl
  obtain ⟨hpkt, hcpp⟩ := computePacketChunkSize_spec t
  exact {
    blocks := by rw [hrep, List.flatten_nil, List.nil_append, List.append_nil]
    length_current := by
      show E.length = t.bytesWritten + t.position
      rw [hbw, hpos, Nat.add_zero]
    image := by rw [hrep]
    buffer_take := by
      show (resize t.buffer t.chunkSize).take t.position = E.drop t.bytesWritten
      rw [hpos, hbw, List.take_zero, List.drop_length]
    position_lt := by
      show t.position < (resize t.buffer t.chunkSize).length
      rw [length_resize, hpos]
      exact hk
    buffer_length := length_resize _ _
    chunkSize_eq := by
      show t.chunkSize = c - t.bytesWritten % c
      rw [hbw, hchunk]
    restore := fun hne =>
      ⟨(hrestore hne).1, computePacketChunkSize_of_packetSize_zero t (hrestore hne).2⟩
    packetSize_eq := hpkt
    chunksPerPacket_pos := hcpp
    checksum_eq := by
      show t.checksum = SWCrc32c.init.update ((resize t.buffer t.chunkSize).take t.position)
      rw [hck, hpos, List.take_zero, SWCrc32c.update_nil]
    idle := fun _ => by
      rw [hrep]
      show t.bytesWritten ≤ E.length
      rw [hbw]
    packet := fun p hp => absurd (hcur ▸ hp : none = some p) (by simp)
    sent_ok := by
      show ∀ op ∈ t.sent, ChecksumsMatch c op.packet
      rw [hsent]
      simp
    lastFlushed_le := by
      show t.lastFlushed ≤ t.cursor
      rw [hlf]
      exact Nat.zero_le _
    flushed := fun _ => ⟨by rw [hrep], hcur⟩ }

/-- How a stream starts: a new file, or a new block, starts empty; the last block of a file holds
`E`, and its length and the file's agree modulo the chunk size. -/
def Aligned (c : Nat) : OpenMode → List UInt8 → Prop
  | .create, E => E = []
  | .append info, E =>
    match info.lastBlock with
    | none => E = []
    | some numBytes => E.length = numBytes ∧ numBytes % c = info.length % c

/-- **Opening** a stream that starts aligned gives the invariant, over the bytes of the block it
appends to. -/
theorem openInternal_inv {conf : SessionConfig} (hc : 0 < conf.defaultChunkSize)
    {mode : OpenMode} {E : List UInt8} (hmode : Aligned conf.defaultChunkSize mode E)
    {blockSize : Nat} {s : OutputStreamImpl} (hopen : openInternal conf mode blockSize = .ok s) :
    Inv conf.defaultChunkSize E [] E s := by
  unfold openInternal at hopen
  generalize (if blockSize = 0 then conf.defaultBlockSize else blockSize) = b at hopen
  dsimp only at hopen
  -- the checks of the packet and block sizes passed
  by_cases hsizes : conf.defaultPacketSize < conf.defaultChunkSize
  · rw [if_pos hsizes] at hopen
    cases hopen
  rw [if_neg hsizes] at hopen
  by_cases hdiv : b % conf.defaultChunkSize ≠ 0
  · rw [if_pos hdiv] at hopen
    cases hopen
  rw [if_neg hdiv] at hopen
  cases mode with
  | create =>
    rw [Aligned] at hmode
    subst hmode
    dsimp only at hopen
    rw [Except.ok.injEq] at hopen
    subst hopen
    exact inv_computePacketChunkSize hc rfl rfl rfl (by simp) (fun hne => absurd rfl hne) rfl rfl rfl
  | append info =>
    dsimp only [initAppend] at hopen
    cases hlb : info.lastBlock with
    | none =>
      simp only [Aligned, hlb] at hmode
      subst hmode
      simp only [hlb, Except.ok.injEq] at hopen
      subst hopen
      exact inv_computePacketChunkSize hc rfl rfl rfl (by simp) (fun hne => absurd rfl hne) rfl rfl
        rfl
    | some n =>
      simp only [Aligned, hlb] at hmode
      obtain ⟨hE, halign⟩ := hmode
      simp only [hlb] at hopen
      by_cases hfull : info.blockSize - info.length % info.blockSize = info.blockSize
      · rw [if_pos hfull] at hopen
        cases hopen
      rw [if_neg hfull, Except.ok.injEq] at hopen
      subst hopen
      by_cases hused : info.length % conf.defaultChunkSize > 0 ∧
          conf.defaultChunkSize - info.length % conf.defaultChunkSize > 0
      · -- the free part of the last chunk first, in a packet of its own
        rw [if_pos hused]
        exact inv_computePacketChunkSize hc rfl hE.symm rfl (by rw [hE, halign])
          (fun _ => ⟨rfl, rfl⟩) rfl rfl rfl
      · -- the last chunk is full
        have hzero : info.length % conf.defaultChunkSize = 0 := by
          have := Nat.mod_lt info.length hc
          omega
        rw [if_neg hused]
        exact inv_computePacketChunkSize hc rfl hE.symm rfl
          (by show conf.defaultChunkSize = _; rw [hE, halign, hzero, Nat.sub_zero])
          (fun hne => absurd rfl hne) rfl rfl rfl

set_option maxRecDepth 20000 in
/-- **A checksum across a chunk boundary.** The namenode reports a file of 1100 bytes in blocks of
1000 bytes, not a multiple of the 512-byte chunk: the last block holds 100 bytes, and the file
ends 76 bytes into a chunk. The stream fills the 436 bytes up to the file's next chunk boundary in
a first packet at offset 100 of the block, with one checksum; but those bytes cross the chunk
boundary at offset 512 of the block, and are two pieces. -/
theorem append_checksum_spans_chunk_boundary :
    ∃ s p, ((openInternal ⟨512, 65536, 67108864⟩ (.append ⟨some 100, 1000, 1100⟩) 0).bind
        fun s => (s.run ⟨512, 65536, 67108864⟩ [.append (List.replicate 436 0)]).bind close) =
          .ok s ∧
      s.sent.head? = some (.send p) ∧ p.offsetInBlock = 100 ∧ p.data = List.replicate 436 0 ∧
      p.checksums.length = 1 ∧ ¬ ChecksumsMatch 512 p := by
  have hfirst : Chunks.pieces 512 100 (List.replicate 436 (0 : UInt8)) =
      (List.replicate 436 0).take 412 :: Chunks.pieces 512 512 (List.replicate 24 0) :=
    Chunks.pieces_cons_eq (by simp) (by decide)
  have hrest : Chunks.pieces 512 512 (List.replicate 24 (0 : UInt8)) = [List.replicate 24 0] :=
    Chunks.pieces_of_le (by simp) (by decide) (by simp)
  -- one checksum, two pieces
  have hsplit : ∀ p : OutPacket, p.offsetInBlock = 100 → p.data = List.replicate 436 0 →
      p.checksums.length = 1 → p.offsetInBlock = 100 ∧ p.data = List.replicate 436 0 ∧
        p.checksums.length = 1 ∧ ¬ ChecksumsMatch 512 p := by
    intro p hoff hdata hcs
    refine ⟨hoff, hdata, hcs, fun hm => ?_⟩
    have hlen := hm.length_eq
    rw [hoff, hdata, hcs, hfirst, hrest] at hlen
    exact absurd hlen (by decide)
  exact ⟨_, _, rfl, rfl, hsplit _ rfl rfl rfl⟩

end OutputStreamImpl

end HdfsClient
