import HdfsClient.Client.RemoteBlockReader
import Mathlib.Data.List.Infix

/-!
# The remote block reader over a datanode that follows the protocol

A datanode that follows the read protocol answers with a response, then sends the block from
`firstChunkOffset` on in packets (`sendPackets`): each a header with the next sequence number and the
packet's offset in the block, the CRC32C of each of its chunks (none for `CHECKSUM_NULL`) and its
data; after the data it was asked for, a packet without data that is marked the last one.

**The invariant** (`Follows`). The bytes of the buffer between `position` and `size` are the block's
from the cursor on; while they end before `endOffset`, the stream holds the packets of the block from
where they end, the next one reaching past that point.

**Steps.** On a used-up buffer `readNextPacket` reads one packet and, when the packet reaches
`endOffset`, the header after it (`Follows.readNextPacket`); `read` and each round of `skip` then
move `position` and the cursor together (`Follows.advance`). So calls that stay below `endOffset`
answer as a cursor over the block does (`RangeRun`, `Follows.run`).

Main results: `new_reads_requested_range`, when the first packet holds the byte at `start`, as it
does when the datanode sends whole chunks; and `new_first_packet_before_start`, a first packet that
ends before `start`, which the first `read` does not survive.
-/

namespace HdfsClient

namespace RemoteBlockReader

/-! ## What the datanode sends -/

/-- The checksums a datanode sends with `data`: the CRC32C of each of its chunks of `c` bytes, or
none for `CHECKSUM_NULL`. -/
def checksumsOf (c : Nat) (crc : Bool) (data : List UInt8) : List UInt8 :=
  if crc then metaChecksums c data else []

/-- The header of a packet of `data` at `offset` in the block, behind the checksums `sums`. -/
def dataPacketHeader (offset seqno : Nat) (sums data : List UInt8) : PacketHeader :=
  PacketHeader.new (Int32.ofNat (4 + data.length + sums.length)) (Int64.ofNat offset)
    (Int64.ofNat seqno) false (Int32.ofNat data.length)

/-- The header of the empty last packet. -/
def lastPacketHeader (offset seqno : Nat) : PacketHeader :=
  PacketHeader.new 4 (Int64.ofNat offset) (Int64.ofNat seqno) true 0

/-- **What a datanode that follows the protocol sends** after its response: the packets `pkts` of the
block from `offset` on, with sequence numbers from `seqno`, then the empty last packet. -/
def sendPackets (pb : PacketHeaderProtobuf) (c : Nat) (crc : Bool) :
    Nat → Nat → List (List UInt8) → List UInt8
  | seqno, offset, [] => (lastPacketHeader offset seqno).writeInBuffer pb 31
  | seqno, offset, data :: pkts =>
    (dataPacketHeader offset seqno (checksumsOf c crc data) data).writeInBuffer pb 31 ++
      (checksumsOf c crc data ++ data) ++ sendPackets pb c crc (seqno + 1) (offset + data.length) pkts

/-- **Packets of `block` from `offset` on**: their data is the block from there, each holds some,
each fits an `int` with its checksums, and the length of each plus the bytes per checksum is below
`2 ^ 31`, since `readNextPacket` adds them as `int`s. -/
structure Sends (c : Nat) (crc : Bool) (block : List UInt8) (offset : Nat)
    (pkts : List (List UInt8)) : Prop where
  inBlock : pkts.flatten <+: block.drop offset
  nonempty : ∀ d ∈ pkts, d ≠ []
  fits : ∀ d ∈ pkts, d.length + c < 2 ^ 31 ∧ 4 + d.length + (checksumsOf c crc d).length < 2 ^ 31

section Sends

variable {pb : PacketHeaderProtobuf} {c : Nat} {crc : Bool} {block : List UInt8} {offset seqno : Nat}
  {sums d : List UInt8}
  {pkts : List (List UInt8)}

theorem length_checksumsOf (c : Nat) (crc : Bool) (data : List UInt8) :
    (checksumsOf c crc data).length = (data.length + c - 1) / c * (if crc then (4 : Int) else 0).toNat := by
  cases crc
  · simp [checksumsOf]
  · simp [checksumsOf, length_metaChecksums, Nat.mul_comm]

theorem dataPacketHeader_packetLen (h : 4 + d.length + sums.length < 2 ^ 31) :
    (dataPacketHeader offset seqno sums d).packetLen.toInt = 4 + d.length + sums.length := by
  have := Int32.toInt_ofNat_of_lt h
  push_cast at this
  exact this

theorem dataPacketHeader_dataLen (h : d.length < 2 ^ 31) :
    (dataPacketHeader offset seqno sums d).proto.dataLen.toInt = d.length :=
  Int32.toInt_ofNat_of_lt h

theorem dataPacketHeader_offsetInBlock (h : offset < 2 ^ 63) :
    (dataPacketHeader offset seqno sums d).proto.offsetInBlock.toInt = offset :=
  Int64.toInt_ofNat_of_lt h

theorem dataPacketHeader_seqno (h : seqno < 2 ^ 63) :
    (dataPacketHeader offset seqno sums d).proto.seqno.toInt = seqno :=
  Int64.toInt_ofNat_of_lt h

/-- The front packet holds the block's bytes from `offset`. -/
theorem Sends.head (h : Sends c crc block offset (d :: pkts)) :
    (block.drop offset).take d.length = d ∧ offset + d.length ≤ block.length := by
  obtain ⟨t, ht⟩ := h.inBlock
  rw [List.flatten_cons, List.append_assoc] at ht
  have hlen := congrArg List.length ht
  rw [List.length_append, List.length_drop] at hlen
  have hd := List.length_pos_iff.mpr (h.nonempty d List.mem_cons_self)
  exact ⟨by rw [← ht, List.take_left], by omega⟩

/-- The packets after the front one are the block's from where it ends. -/
theorem Sends.tail (h : Sends c crc block offset (d :: pkts)) :
    Sends c crc block (offset + d.length) pkts where
  inBlock := by
    obtain ⟨t, ht⟩ := h.inBlock
    rw [List.flatten_cons, List.append_assoc] at ht
    exact ⟨t, by rw [← List.drop_drop, ← ht, List.drop_left]⟩
  nonempty d' hd' := h.nonempty d' (List.mem_cons_of_mem d hd')
  fits d' hd' := h.fits d' (List.mem_cons_of_mem d hd')

/-- Whatever packets are left, the stream goes on with a header whose packet length is at least
four: the next packet's, or the last one's. -/
theorem sendPackets_header (seqno offset : Nat)
    (h : ∀ d ∈ pkts, 4 + d.length + (checksumsOf c crc d).length < 2 ^ 31) :
    ∃ (hdr : PacketHeader) (tail : List UInt8),
      sendPackets pb c crc seqno offset pkts = hdr.writeInBuffer pb 31 ++ tail ∧ 4 ≤ hdr.packetLen.toInt := by
  cases pkts with
  | nil => exact ⟨_, [], (List.append_nil _).symm, show 4 ≤ (4 : Int32).toInt by decide⟩
  | cons d pkts =>
    refine ⟨_, _, by rw [sendPackets, List.append_assoc], ?_⟩
    rw [dataPacketHeader_packetLen (h d List.mem_cons_self)]
    omega

end Sends

/-! ## The reader follows the block -/

/-- What the buffer holds: the chunk and checksum sizes of the response, and between `position` and
`size` the block's bytes from the cursor on. -/
structure Buffered (c : Nat) (crc : Bool) (block : List UInt8) (r : RemoteBlockReader) : Prop where
  chunkSize_eq : r.chunkSize = c
  checksumSize_eq : r.checksumSize = if crc then 4 else 0
  verify_crc : r.verify = true → crc = true
  cursor_nonneg : 0 ≤ r.cursor
  position_nonneg : 0 ≤ r.position
  position_le : r.position ≤ r.size
  size_eq : r.size = r.buffer.length
  size_lt : r.size < 2 ^ 31
  buffered : r.buffer.drop r.position.toNat =
    (block.drop r.cursor.toNat).take (r.size - r.position).toNat

/-- **The reader follows the block.** While the buffered bytes end before `endOffset`, the stream
holds the packets of the block from some `offset` at or before where they end, the first reaching
past that point, with the next sequence number, and the packets cover `endOffset`. -/
structure Follows (pb : PacketHeaderProtobuf) (c : Nat) (crc : Bool) (block : List UInt8)
    (r : RemoteBlockReader) : Prop
    extends Buffered c crc block r where
  next : r.cursor + (r.size - r.position) < r.endOffset → ∃ seqno offset d pkts rest,
    r.stream = sendPackets pb c crc seqno offset (d :: pkts) ++ rest ∧ r.lastSeqNo + 1 = seqno ∧
      seqno ≤ offset ∧ r.lastHeaderIsLast = false ∧ Sends c crc block offset (d :: pkts) ∧
      offset ≤ r.cursor + (r.size - r.position) ∧
      r.cursor + (r.size - r.position) < offset + d.length ∧
      r.endOffset ≤ offset + (d :: pkts).flatten.length

/-- Once the buffered bytes reach `endOffset`, nothing more is said of the stream. -/
theorem Buffered.follows {pb : PacketHeaderProtobuf} {c : Nat} {crc : Bool} {block : List UInt8} {r : RemoteBlockReader}
    (h : Buffered c crc block r) (hend : r.endOffset ≤ r.cursor + (r.size - r.position)) :
    Follows pb c crc block r :=
  ⟨h, fun he => absurd he (not_lt.mpr hend)⟩

section Steps

variable {pb : PacketHeaderProtobuf} {parse : List UInt8 → Option PacketHeaderProto} {c : Nat}
  {crc : Bool}
  {block : List UInt8} {r : RemoteBlockReader}

/-- The data of a packet at `offset`, from the cursor on, behind its checksums. -/
theorem drop_checksums_packet {sums d : List UInt8} {offset : Nat} {cursor : Int}
    (hd : (block.drop offset).take d.length = d) (hoff : offset ≤ cursor)
    (hlt : cursor < offset + d.length) :
    (sums ++ d).drop ((sums.length : Int) + (cursor - offset)).toNat =
      (block.drop cursor.toNat).take
        ((sums.length + d.length : Int) - (sums.length + (cursor - offset))).toNat := by
  obtain ⟨k, rfl⟩ : ∃ k : Nat, cursor = offset + k := ⟨(cursor - offset).toNat, by omega⟩
  rw [show ((sums.length : Int) + (offset + k - offset)).toNat = sums.length + k by omega,
    ← List.drop_drop, List.drop_left, show ((offset : Int) + k).toNat = offset + k by omega,
    show ((sums.length + d.length : Int) - (sums.length + (offset + k - offset))).toNat =
      d.length - k by omega, ← hd, List.drop_take, List.drop_drop, hd]

/-- **A packet read.** On a used-up buffer before `endOffset`, `readNextPacket` reads the next packet
of the block and, when it reaches `endOffset`, the header after it; the buffer then holds the block
from the cursor on, and the reader follows the block still. -/
theorem Follows.readNextPacket (h : Follows pb c crc block r) (hc : 0 < c)
    (hblock : block.length < 2 ^ 62) (hparse : ∀ p, parse (pb.SerializeToArray p) = some p)
    (hpos : r.size ≤ r.position) (hcur : r.cursor < r.endOffset) :
    ∃ r', r.readNextPacket pb parse = .ok r' ∧ Follows pb c crc block r' ∧ r'.position < r'.size ∧
      r'.cursor = r.cursor ∧ r'.endOffset = r.endOffset := by
  have hsize : r.size = r.position := le_antisymm hpos h.position_le
  obtain ⟨seqno, offset, d, pkts, rest, hstream, hseq, hseqoff, hlast, hsends, hoff, hlt, hend⟩ :=
    h.next (by omega)
  obtain ⟨hhead, hin⟩ := hsends.head
  have hd0 : 0 < d.length := List.length_pos_iff.mpr (hsends.nonempty d List.mem_cons_self)
  obtain ⟨hdc, hfit⟩ := hsends.fits d List.mem_cons_self
  have hsums := length_checksumsOf c crc d
  have hlen : (dataPacketHeader offset seqno (checksumsOf c crc d) d).proto.dataLen.toInt =
      d.length := dataPacketHeader_dataLen (by omega)
  have hoffset : (dataPacketHeader offset seqno (checksumsOf c crc d) d).proto.offsetInBlock.toInt =
      offset := dataPacketHeader_offsetInBlock (by omega)
  have hseqno : (dataPacketHeader offset seqno (checksumsOf c crc d) d).proto.seqno.toInt = seqno :=
    dataPacketHeader_seqno (by omega)
  have hstream' : r.stream = (dataPacketHeader offset seqno (checksumsOf c crc d) d).writeInBuffer pb 31 ++
      (checksumsOf c crc d ++ d) ++ (sendPackets pb c crc (seqno + 1) (offset + d.length) pkts ++ rest) := by
    rw [hstream, sendPackets]
    simp only [List.append_assoc]
  have hverify : r.verify = true →
      r.checksumSize = 4 ∧ checksumsOf c crc d = metaChecksums c d := by
    intro hv
    have hcrc := h.verify_crc hv
    rw [h.checksumSize_eq, hcrc]
    exact ⟨rfl, rfl⟩
  have hnext := readNextPacket_data hlast hstream' (hparse _)
    (PacketHeader.sanityCheck_data (by omega) rfl (by omega)) hlen hd0 h.chunkSize_eq hc hdc
    (by rw [h.checksumSize_eq]; exact hsums) (by rw [h.checksumSize_eq]; split <;> decide)
    (dataPacketHeader_packetLen hfit) hverify h.cursor_nonneg (by omega) (by omega)
  -- `pendingAhead` is the distance from the packet's offset to the cursor
  have hahead : (if r.cursor - offset > 0 then r.cursor - offset else 0) = r.cursor - offset := by
    split <;> omega
  have hposition : ((checksumsOf c crc d).length + (r.cursor - offset)).bmod (2 ^ 32) =
      (checksumsOf c crc d).length + (r.cursor - offset) :=
    Int.bmod_eq_of_le (by omega) (by omega)
  rw [hnext]
  dsimp only
  rw [hoffset, hseqno, hahead, hposition]
  -- the buffer holds the packet, whatever comes after it in the stream
  have hbuf : ∀ sent stream, Buffered c crc block { r with
      sentStatus := sent, position := (checksumsOf c crc d).length + (r.cursor - offset)
      size := (checksumsOf c crc d).length + d.length, lastSeqNo := seqno
      lastHeader := some (dataPacketHeader offset seqno (checksumsOf c crc d) d)
      buffer := checksumsOf c crc d ++ d, stream := stream } := fun _ _ =>
    { chunkSize_eq := h.chunkSize_eq, checksumSize_eq := h.checksumSize_eq
      verify_crc := h.verify_crc, cursor_nonneg := h.cursor_nonneg
      position_nonneg := by dsimp only; omega
      position_le := by dsimp only; omega
      size_eq := by dsimp only; rw [List.length_append]; push_cast; rfl
      size_lt := by dsimp only; omega
      buffered := drop_checksums_packet hhead (by omega) (by omega) }
  by_cases hreach : r.cursor + d.length - (r.cursor - offset) ≥ r.endOffset
  · -- the packet reaches `endOffset`: the header after it is read too
    rw [if_pos hreach]
    obtain ⟨hdr, tail, htail, h4⟩ :=
      sendPackets_header (seqno + 1) (offset + d.length) fun d' hd' => (hsends.tail.fits d' hd').2
    have hhdr := readPacketHeader_writeInBuffer (r := { r with
      position := (checksumsOf c crc d).length + (r.cursor - offset)
      size := (checksumsOf c crc d).length + d.length, lastSeqNo := seqno
      lastHeader := some (dataPacketHeader offset seqno (checksumsOf c crc d) d)
      buffer := checksumsOf c crc d ++ d
      stream := sendPackets pb c crc (seqno + 1) (offset + d.length) pkts ++ rest })
      rfl (by dsimp only; rw [htail, List.append_assoc]) (hparse _) h4
    simp only [readTrailingEmptyPacket, hhdr, bind, ok_bind, pure, Except.pure]
    refine ⟨_, rfl, ?_⟩
    have hreached : r.endOffset ≤ r.cursor + (((checksumsOf c crc d).length + d.length : Int) -
        ((checksumsOf c crc d).length + (r.cursor - offset))) := by omega
    have hinside : ((checksumsOf c crc d).length + (r.cursor - offset) : Int) <
        (checksumsOf c crc d).length + d.length := by omega
    split
    · exact ⟨(hbuf true _).follows hreached, hinside, rfl, rfl⟩
    · exact ⟨(hbuf r.sentStatus _).follows hreached, hinside, rfl, rfl⟩
  · -- the packet ends before `endOffset`: the next one is in the stream
    rw [if_neg hreach]
    refine ⟨_, rfl, ⟨hbuf r.sentStatus _, fun he => ?_⟩, by dsimp only; omega, rfl, rfl⟩
    dsimp only at he ⊢
    cases pkts with
    | nil =>
      simp only [List.flatten_cons, List.flatten_nil, List.append_nil] at hend
      omega
    | cons d' pkts =>
      have hd' : 0 < d'.length := List.length_pos_iff.mpr (hsends.tail.nonempty d' List.mem_cons_self)
      simp only [List.flatten_cons, List.length_append] at hend
      refine ⟨seqno + 1, offset + d.length, d', pkts, rest, rfl, by omega, by omega, rfl, hsends.tail,
        by omega, by omega, ?_⟩
      simp only [List.flatten_cons, List.length_append]
      omega

/-- **Moving on inside the buffer.** Moving `position` and the cursor on together by `m`, at most to
`size`, keeps the reader following the block. -/
theorem Follows.advance (h : Follows pb c crc block r) {m : Int} (hm : 0 ≤ m)
    (hle : m ≤ r.size - r.position) :
    Follows pb c crc block { r with position := r.position + m, cursor := r.cursor + m } := by
  have hc := h.cursor_nonneg
  have hp := h.position_nonneg
  -- the buffered bytes end where they did
  have he : r.cursor + m + (r.size - (r.position + m)) = r.cursor + (r.size - r.position) := by omega
  refine ⟨{ h.toBuffered with
    cursor_nonneg := by dsimp only; omega
    position_nonneg := by dsimp only; omega
    position_le := by dsimp only; omega
    buffered := ?_ }, fun hlt => ?_⟩
  · dsimp only
    rw [show (r.position + m).toNat = r.position.toNat + m.toNat by omega, ← List.drop_drop,
      h.buffered, List.drop_take, List.drop_drop,
      show r.cursor.toNat + m.toNat = (r.cursor + m).toNat by omega,
      show (r.size - r.position).toNat - m.toNat = (r.size - (r.position + m)).toNat by omega]
  · dsimp only at hlt ⊢
    rw [he] at hlt ⊢
    exact h.next hlt

/-- Before `endOffset`, the buffer `read` and `skip` copy from: a packet when it is used up. Stated
for what comes after it, as `do` puts the rest of the call in both branches. -/
theorem Follows.fill (h : Follows pb c crc block r) (hc : 0 < c) (hblock : block.length < 2 ^ 62)
    (hparse : ∀ p, parse (pb.SerializeToArray p) = some p) (hcur : r.cursor < r.endOffset) :
    ∃ r', (∀ {β : Type} (k : RemoteBlockReader → Except RemoteReadError β),
        (if r.position ≥ r.size then r.readNextPacket pb parse >>= k else pure r >>= k) = k r') ∧
      Follows pb c crc block r' ∧ r'.position < r'.size ∧ r'.cursor = r.cursor ∧
      r'.endOffset = r.endOffset := by
  by_cases hpos : r.position ≥ r.size
  · obtain ⟨r', hread, h', hlt, hcur', hend'⟩ := h.readNextPacket hc hblock hparse hpos hcur
    exact ⟨r', fun k => by rw [if_pos hpos, hread]; rfl, h', hlt, hcur', hend'⟩
  · exact ⟨r, fun k => by rw [if_neg hpos]; rfl, h, by omega, rfl, rfl⟩

/-- **A read.** Before `endOffset`, `read(n)` hands over the next `k` bytes of the block, no more
than asked for and at least one when asked for one, and moves the cursor on by `k`. -/
theorem Follows.read (h : Follows pb c crc block r) (hc : 0 < c) (hblock : block.length < 2 ^ 62)
    (hparse : ∀ p, parse (pb.SerializeToArray p) = some p) {n : Int} (hn : 0 ≤ n)
    (hcur : r.cursor < r.endOffset) :
    ∃ (k : Nat) (r' : RemoteBlockReader),
      r.read pb parse n = .ok ((block.drop r.cursor.toNat).take k, r') ∧ (k : Int) ≤ n ∧
        (0 < n → 0 < k) ∧ r'.cursor = r.cursor + k ∧ r'.endOffset = r.endOffset ∧
        Follows pb c crc block r' := by
  obtain ⟨r₁, hfill, h₁, hlt, hcur₁, hend₁⟩ := h.fill hc hblock hparse hcur
  have hsize := h₁.size_lt
  have hp := h₁.position_nonneg
  have havail : intOp (r₁.size - r₁.position) = .ok (r₁.size - r₁.position) :=
    intOp_ok (by omega) (by omega)
  -- `read` copies `min(n, size - position)` bytes
  obtain ⟨todo, htodo⟩ : ∃ todo, todo = if n < r₁.size - r₁.position then n else r₁.size - r₁.position :=
    ⟨_, rfl⟩
  have htodo0 : 0 ≤ todo := by split at htodo <;> omega
  have htodo1 : todo ≤ n ∧ todo ≤ r₁.size - r₁.position := by split at htodo <;> omega
  have htodo2 : 0 < n → 0 < todo := by split at htodo <;> omega
  have hcopy : ¬ (todo < 0 ∨ r₁.position < 0 ∨ r₁.position + todo > r₁.buffer.length) := by
    rw [← h₁.size_eq]
    omega
  have hbytes : (r₁.buffer.drop r₁.position.toNat).take todo.toNat =
      (block.drop r.cursor.toNat).take todo.toNat := by
    rw [h₁.buffered, List.take_take, hcur₁, Nat.min_eq_left (by omega)]
  refine ⟨todo.toNat, { r₁ with position := r₁.position + todo, cursor := r₁.cursor + todo }, ?_,
    by omega, fun hn' => by have := htodo2 hn'; omega, by dsimp only; omega, hend₁,
    h₁.advance htodo0 htodo1.2⟩
  rw [RemoteBlockReader.read, if_neg (by omega)]
  dsimp only
  rw [hfill]
  simp only [bind, ok_bind, havail, ← htodo, hcopy, if_false, hbytes, pure, Except.pure]
  rfl

/-- **The rounds of `skip`.** Before `endOffset`, `todo` bytes are skipped in at most `todo` rounds,
each a packet when the buffer is used up and then at least one byte. -/
theorem Follows.skipLoop (hc : 0 < c) (hblock : block.length < 2 ^ 62)
    (hparse : ∀ p, parse (pb.SerializeToArray p) = some p) (fuel : Nat) :
    ∀ (todo : Nat) (r : RemoteBlockReader), Follows pb c crc block r → todo ≤ fuel →
      r.cursor + todo ≤ r.endOffset →
      ∃ r', RemoteBlockReader.skipLoop pb parse fuel r todo = .ok r' ∧ r'.cursor = r.cursor + todo ∧
        r'.endOffset = r.endOffset ∧ Follows pb c crc block r' := by
  -- induction on the rounds left, the batch of a round at least one byte
  induction fuel with
  | zero =>
    intro todo r h hle _
    obtain rfl : todo = 0 := by omega
    exact ⟨r, by rw [RemoteBlockReader.skipLoop, if_pos (by omega)]; rfl, by omega, rfl, h⟩
  | succ fuel ih =>
    intro todo r h hle hend
    rcases Nat.eq_zero_or_pos todo with rfl | htodo
    · exact ⟨r, by rw [RemoteBlockReader.skipLoop, if_pos (by omega)]; rfl, by omega, rfl, h⟩
    have hcur : r.cursor < r.endOffset := by omega
    obtain ⟨r₁, hfill, h₁, hlt, hcur₁, hend₁⟩ := h.fill hc hblock hparse hcur
    have hsize := h₁.size_lt
    have hp := h₁.position_nonneg
    have hbatch : intOp (r₁.size - r₁.position) = .ok (r₁.size - r₁.position) :=
      intOp_ok (by omega) (by omega)
    obtain ⟨batch, hb⟩ : ∃ batch, batch = if r₁.size - r₁.position < (todo : Int) then
        r₁.size - r₁.position else (todo : Int) := ⟨_, rfl⟩
    have hb0 : 0 < batch ∧ batch ≤ todo ∧ batch ≤ r₁.size - r₁.position := by
      split at hb <;> omega
    obtain ⟨r', hloop, hcur', hend', h'⟩ := ih (todo - batch.toNat) _ (h₁.advance hb0.1.le hb0.2.2)
      (by omega) (by dsimp only; omega)
    refine ⟨r', ?_, by dsimp only at hcur'; omega, by rw [hend']; exact hend₁, h'⟩
    rw [RemoteBlockReader.skipLoop, if_neg (by omega)]
    dsimp only
    rw [if_neg (not_le.mpr hcur), hfill]
    simp only [bind, ok_bind, hbatch, ← hb]
    rw [show (todo : Int) - batch = ((todo - batch.toNat : Nat) : Int) by omega]
    exact hloop

/-- **A skip.** Up to `endOffset`, `skip(len)` moves the cursor on by `len`. -/
theorem Follows.skip (h : Follows pb c crc block r) (hc : 0 < c) (hblock : block.length < 2 ^ 62)
    (hparse : ∀ p, parse (pb.SerializeToArray p) = some p) {len : Int} (hlen : 0 ≤ len)
    (hend : r.cursor + len ≤ r.endOffset) :
    ∃ r', r.skip pb parse len = .ok r' ∧ r'.cursor = r.cursor + len ∧ r'.endOffset = r.endOffset ∧
      Follows pb c crc block r' := by
  obtain ⟨r', hloop, hcur', hend', h'⟩ := Follows.skipLoop hc hblock hparse
    (len.toNat + (r.stream.length + 2) * 2 ^ 32) len.toNat r h (by omega) (by omega)
  rw [Int.toNat_of_nonneg hlen] at hloop hcur'
  exact ⟨r', by rw [RemoteBlockReader.skip, hloop]; rfl, hcur', hend', h'⟩

end Steps

end RemoteBlockReader

/-! ## Runs -/

/-- A call that stays below `endOffset` from the cursor `c`: a read of `n ≥ 0` bytes from before
`endOffset` up to at most `endOffset`, or a skip of `len ≥ 0` bytes to at most `endOffset`. -/
def BlockReaderCall.Within (endOffset c : Int) : BlockReaderCall → Prop
  | .read n => 0 ≤ n ∧ c < endOffset ∧ c + n ≤ endOffset
  | .skip len => 0 ≤ len ∧ c + len ≤ endOffset

instance (endOffset c : Int) : (call : BlockReaderCall) → Decidable (call.Within endOffset c)
  | .read _ => inferInstanceAs (Decidable (_ ∧ _ ∧ _))
  | .skip _ => inferInstanceAs (Decidable (_ ∧ _))

/-- **Calls on a cursor over `block` below `endOffset`**, with their answers: a read of `n` bytes
hands over the next `k ≤ n` bytes of the block, at least one when asked for one, and a skip hands
over nothing; each moves the cursor on by what it hands over or skips. Nothing is said from the first
call that does not stay below `endOffset` on. -/
inductive RangeRun (block : List UInt8) (endOffset : Int) :
    Int → List BlockReaderCall → List (Except RemoteReadError (List UInt8)) → Prop
  | nil {c : Int} : RangeRun block endOffset c [] []
  | read {c n : Int} {k : Nat} {calls : List BlockReaderCall}
      {answers : List (Except RemoteReadError (List UInt8))} :
      (BlockReaderCall.read n).Within endOffset c → (k : Int) ≤ n → (0 < n → 0 < k) →
      RangeRun block endOffset (c + k) calls answers →
      RangeRun block endOffset c (.read n :: calls) (.ok ((block.drop c.toNat).take k) :: answers)
  | skip {c len : Int} {calls : List BlockReaderCall}
      {answers : List (Except RemoteReadError (List UInt8))} :
      (BlockReaderCall.skip len).Within endOffset c →
      RangeRun block endOffset (c + len) calls answers →
      RangeRun block endOffset c (.skip len :: calls) (.ok [] :: answers)
  | leave {c : Int} {call : BlockReaderCall} {calls : List BlockReaderCall}
      {answers : List (Except RemoteReadError (List UInt8))} :
      ¬ call.Within endOffset c → RangeRun block endOffset c (call :: calls) answers

namespace RemoteBlockReader

section Run

variable {pb : PacketHeaderProtobuf} {parse : List UInt8 → Option PacketHeaderProto} {c : Nat}
  {crc : Bool}
  {block : List UInt8} {r : RemoteBlockReader}

/-- **A run follows the block.** From a reader that follows the block, calls that stay below
`endOffset` answer as a cursor over the block does, and none of them fails. -/
theorem Follows.run (h : Follows pb c crc block r) (hc : 0 < c) (hblock : block.length < 2 ^ 62)
    (hparse : ∀ p, parse (pb.SerializeToArray p) = some p) (calls : List BlockReaderCall) :
    RangeRun block r.endOffset r.cursor calls (r.run pb parse calls).1 := by
  -- induction on the calls, the read or skip lemma at each
  induction calls generalizing r with
  | nil => exact .nil
  | cons call calls ih =>
    by_cases hw : call.Within r.endOffset r.cursor
    swap
    · exact .leave hw
    cases call with
    | read n =>
      obtain ⟨k, r', hread, hkn, hpos, hcur', hend', h'⟩ := h.read hc hblock hparse hw.1 hw.2.1
      have hrun := ih h'
      rw [hcur', hend'] at hrun
      rw [RemoteBlockReader.run, apply, hread]
      exact .read hw hkn hpos hrun
    | skip len =>
      obtain ⟨r', hskip, hcur', hend', h'⟩ := h.skip hc hblock hparse hw.1 hw.2
      have hrun := ih h'
      rw [hcur', hend'] at hrun
      rw [RemoteBlockReader.run, apply, hskip]
      exact .skip hw hrun

end Run

/-! ## Opening the reader -/

section New

variable {parseResponse : List UInt8 → Option BlockOpResponseProto} {c fco : Nat} {crc : Bool}
  {block : List UInt8} {pkts : List (List UInt8)}

/-- **The reader opens following the block.** After a response that passes `checkResponse`, with
the datanode's packets from `firstChunkOffset` on covering `[start, start + len)` and the first one
holding the byte at `start`, the reader follows the block from `start`. -/
theorem new_follows {pre rest : List UInt8} {resp : BlockOpResponseProto}
    {info : ReadOpChecksumInfoProto} {start len : Int} (verify : Bool)
    (hpre : Responds parseResponse resp pre) (hstatus : resp.status = .success)
    (hinfo : resp.readOpChecksumInfo = some info)
    (htype : info.checksum.type = if crc then .crc32c else .null)
    (hbpc : info.checksum.bytesPerChecksum.toNat = c) (hoffset : info.chunkOffset.toNat = fco)
    (hc : c < 2 ^ 31) (hfco : (fco : Int) ≤ start) (hstart : start < fco + c)
    (hsends : Sends c crc block fco pkts) (hblock : block.length < 2 ^ 62)
    (hfirst : ∃ d pkts', pkts = d :: pkts' ∧ start < fco + d.length)
    (hcover : start + len ≤ fco + pkts.flatten.length) :
    ∃ r, new parseResponse (pre ++ sendPackets pb c crc 0 fco pkts ++ rest) start len verify = .ok r ∧
      Follows pb c crc block r ∧ r.cursor = start ∧ r.endOffset = start + len := by
  obtain ⟨d, pkts', rfl, hd⟩ := hfirst
  have hin := hsends.head.2
  have hresp := checkResponse_ok
    (r := ⟨false, verify, 0, 0, 0, 0, start, len + start, -1, none, [],
      pre ++ sendPackets pb c crc 0 fco (d :: pkts') ++ rest⟩)
    hpre (List.append_assoc _ _ _) hstatus hinfo htype hbpc hoffset hc hfco hstart
    (show start < 2 ^ 63 by omega)
  refine ⟨_, hresp, ⟨?_, fun _ => ?_⟩, rfl, by dsimp only; omega⟩
  · -- nothing is buffered yet
    exact { chunkSize_eq := rfl, checksumSize_eq := rfl
            verify_crc := fun hv => (Bool.and_eq_true _ _ ▸ hv).2
            cursor_nonneg := by dsimp only; omega, position_nonneg := le_refl _
            position_le := le_refl _, size_eq := rfl, size_lt := show (0 : Int) < 2 ^ 31 by decide
            buffered := rfl }
  · -- the stream is at the first packet
    refine ⟨0, fco, d, pkts', rest, rfl, rfl, Nat.zero_le _, rfl, hsends, by dsimp only; omega,
      by dsimp only; omega, by dsimp only; omega⟩

/-- **A datanode that follows the protocol is read as its block.** For a successful response with
`CHECKSUM_CRC32C` or `CHECKSUM_NULL`, a bytes per checksum `c` that is positive and fits an `int`, and
a first chunk offset in `(start - c, start]`, followed by packets of the block with sequence numbers
`0, 1, …` and offsets contiguous from the first chunk offset, their checksums right, covering
`[start, start + len)`, and the empty last packet, the reader opens; when the first packet holds the
byte at `start`, every sequence of `read` and `skip` calls that stays below `start + len` answers as a
cursor over the block from `start`: each read hands over the block's bytes at the cursor, each call
moves the cursor on by what it hands over or skips, and none fails, with a checksum error or any other. -/
theorem new_reads_requested_range {pb : PacketHeaderProtobuf}
    {parse : List UInt8 → Option PacketHeaderProto}
    {pre rest : List UInt8} {resp : BlockOpResponseProto} {info : ReadOpChecksumInfoProto}
    {start len : Int} (verify : Bool)
    (hpre : Responds parseResponse resp pre) (hstatus : resp.status = .success)
    (hinfo : resp.readOpChecksumInfo = some info)
    (htype : info.checksum.type = if crc then .crc32c else .null)
    (hbpc : info.checksum.bytesPerChecksum.toNat = c) (hoffset : info.chunkOffset.toNat = fco)
    (hc : 0 < c) (hc' : c < 2 ^ 31) (hfco : (fco : Int) ≤ start) (hstart : start < fco + c)
    (hsends : Sends c crc block fco pkts) (hblock : block.length < 2 ^ 62)
    (hfirst : ∃ d pkts', pkts = d :: pkts' ∧ start < fco + d.length)
    (hcover : start + len ≤ fco + pkts.flatten.length)
    (hparse : ∀ p, parse (pb.SerializeToArray p) = some p) :
    ∃ r, new parseResponse (pre ++ sendPackets pb c crc 0 fco pkts ++ rest) start len verify = .ok r ∧
      ∀ calls, RangeRun block (start + len) start calls (r.run pb parse calls).1 := by
  obtain ⟨r, hnew, h, hcur, hend⟩ := new_follows verify hpre hstatus hinfo htype hbpc hoffset hc' hfco
    hstart hsends hblock hfirst hcover
  refine ⟨r, hnew, fun calls => ?_⟩
  rw [← hend, ← hcur]
  exact h.run hc hblock hparse calls

/-- A verifying read of `[1, 3)` of a block of four bytes, sent as one packet of a whole chunk with
its CRC32C. -/
theorem new_reads_requested_range_in_one_chunk :
    ∃ r, new (fun _ => some ⟨.success, none, some ⟨⟨.crc32c, 4⟩, 0⟩⟩)
        ([1] ++ [0] ++ sendPackets PacketHeaderProtobuf.wire 4 true 0 0 [[7, 8, 9, 10]] ++ []) 1 2
          true = .ok r ∧
      ∀ calls, RangeRun [7, 8, 9, 10] (1 + 2) 1 calls
        (r.run PacketHeaderProtobuf.wire PacketHeaderProto.parseCanonical calls).1 :=
  new_reads_requested_range true (@Responds.mk _ _ [1] [0] (by decide) (by decide) (by decide)
    (by decide) rfl) rfl rfl rfl rfl rfl (by decide) (by decide) (by decide) (by decide)
    ⟨by decide, by decide, by decide⟩ (by decide) ⟨_, _, rfl, by decide⟩ (by decide)
    PacketHeaderProto.parseCanonical_wire

/-- **A first packet that ends before `start`.** Packets that are not whole chunks follow the
protocol as well: a first packet of one byte at the first chunk offset `0`, for a read from `3` in
chunks of four bytes, puts `position` two bytes past `size`, and the first `read` copies `-2`
bytes. -/
theorem new_first_packet_before_start :
    ∃ r, new (fun _ => some ⟨.success, none, some ⟨⟨.null, 4⟩, 0⟩⟩)
        ([1] ++ [0] ++ sendPackets PacketHeaderProtobuf.wire 4 false 0 0 [[7], [8, 9, 10]] ++ []) 3 1
          true = .ok r ∧
      r.read PacketHeaderProtobuf.wire PacketHeaderProto.parseCanonical 1 = .error .copyOutsideBuffer := by
  refine ⟨_, checkResponse_ok (@Responds.mk _ _ [1] [0] (by decide) (by decide) (by decide)
    (by decide) rfl) rfl rfl rfl (show _ = if false then _ else _ from rfl) rfl rfl (by decide)
    (by decide) (by decide) (by decide), ?_⟩
  decide +kernel

end New

end RemoteBlockReader

end HdfsClient
