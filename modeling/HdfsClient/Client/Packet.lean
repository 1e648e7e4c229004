import HdfsClient.Client.OutputStream
import HdfsClient.Lib.Chunks

/-!
# Packets on the wire

A `Wire.Packet` (`Packet`, `client/Packet.cpp`) is a buffer laid out as room for the header, room for
`chunksPerPkt` checksums, then the data. `addChecksum` writes a checksum, most significant byte
first, after those already written; `addData` copies data after the data already there. `getBuffer`
hands over the bytes to send: when fewer checksums than `chunksPerPkt` were added, it first moves
them forward so that they end where the data starts, and puts the header just before them. The
header (`PacketHeader`) is the packet length and the length of the header protobuf, both most
significant byte first, then the protobuf, whose fields all have fixed lengths.

The protobuf code is not part of the client. Its `SerializeToArray` for the header is a parameter
(`PacketHeaderProtobuf`), with what the packets assume of it, that every header takes 25 bytes, and
so is its parser, of which `readFields` asks only that it parse what `SerializeToArray` writes.
`PacketHeaderProtobuf.wire` writes the four fields with their tags in field order, as protobuf does
for fields that are set, and `parseCanonical` parses that. The optional `syncBlock` field is never set:
`Packet::setSyncFlag` records the flag, but `getBuffer` does not pass it to the header.

Positions in the buffer are `Int`: `int` in the source, they stay far below `2 ^ 31` in packets that
fit in the buffer.

* `GetPkgHeaderSize_eq` — the header takes 31 bytes.
* `Filling` — the layout of a packet being filled, kept by every call (`Filling.run`).
* `Filling.getBuffer`, `Ready.getBuffer` — the bytes handed over, and the same bytes again at every
  later call.
* `getBuffer_header_checksums_data` — after `Packet(...)` or `reset(...)` and any additions that fit,
  `getBuffer` hands over the header, the checksums and the data, `readFields` reads the header back,
  and a second `getBuffer` hands over the same bytes.
-/

namespace HdfsClient

/-- `PacketHeaderProto` (`datatransfer.proto`): where the packet's data starts in the block, its
sequence number, whether it is the last packet of the block, and the length of its data. -/
structure PacketHeaderProto where
  offsetInBlock : Int64
  seqno : Int64
  lastPacketInBlock : Bool
  dataLen : Int32
  deriving DecidableEq, Repr

/-- What the client uses of the protobuf code generated for `PacketHeaderProto`: `SerializeToArray`,
and what the packets assume of it, that every header takes 25 bytes. The four fields are set and
of fixed length, so the wire format gives each a tag byte and 8, 8, 1 and 4 bytes. -/
structure PacketHeaderProtobuf where
  SerializeToArray : PacketHeaderProto → List UInt8
  length_SerializeToArray : ∀ p, (SerializeToArray p).length = 25

/-- The wire format: the fields with their tags, in field order: `offsetInBlock` and `seqno` as
`sfixed64` (tags `0x09` and `0x11`, eight bytes, least significant first), `lastPacketInBlock` as a
`bool` (tag `0x18`, one byte), `dataLen` as `sfixed32` (tag `0x25`, four bytes). -/
def PacketHeaderProtobuf.wire : PacketHeaderProtobuf where
  SerializeToArray p :=
    0x09 :: Endian.leBytes p.offsetInBlock.toBitVec.toNat 8 ++
    0x11 :: Endian.leBytes p.seqno.toBitVec.toNat 8 ++
    [0x18, if p.lastPacketInBlock then 1 else 0] ++
    0x25 :: Endian.leBytes p.dataLen.toBitVec.toNat 4
  length_SerializeToArray p := by simp

namespace PacketHeaderProto

/-- `ByteSize()`: the length of what `SerializeToArray` writes. -/
def byteSize (pb : PacketHeaderProtobuf) (p : PacketHeaderProto) : Nat := (pb.SerializeToArray p).length

/-- A parser for headers in the wire format: the four fields with their tags, in field order. -/
def parseCanonical : List UInt8 → Option PacketHeaderProto
  | [] => none
  | t1 :: rest =>
    match rest.drop 8 with
    | [] => none
    | t2 :: rest' =>
      match rest'.drop 8 with
      | [t3, flag, t4, c0, c1, c2, c3] =>
        if t1 = 0x09 ∧ t2 = 0x11 ∧ t3 = 0x18 ∧ t4 = 0x25 ∧ flag.toNat ≤ 1 then
          some ⟨Int64.ofBitVec (BitVec.ofNat 64 (Endian.leDecode (rest.take 8))),
            Int64.ofBitVec (BitVec.ofNat 64 (Endian.leDecode (rest'.take 8))), flag = 1,
            Int32.ofBitVec (BitVec.ofNat 32 (Endian.leDecode [c0, c1, c2, c3]))⟩
        else none
      | _ => none

end PacketHeaderProto

/-- `PacketHeader`: the packet length and the header protobuf. -/
structure PacketHeader where
  packetLen : Int32
  proto : PacketHeaderProto
  deriving DecidableEq, Repr

/-- The exceptions of `readFields`, both `HdfsIOException`. -/
inductive PacketHeaderError
  /-- "Invalid PacketHeader, packetLen is %d, protoLen is %hd, buf size is %zu" -/
  | invalid (packetLen protoLen : Int) (size : Nat)
  /-- "PacketHeader cannot parse PacketHeaderProto from datanode response." -/
  | cannotParse
  deriving DecidableEq, Repr

namespace PacketHeader

variable (pb : PacketHeaderProtobuf)

/-- `PacketHeader::GetPkgHeaderSize()`, computed once by `CalcPkgHeaderSize()`: the header protobuf
with its fields at zero, the packet length and the length of the protobuf. -/
def GetPkgHeaderSize : Int := (pb.SerializeToArray ⟨0, 0, false, 0⟩).length + 4 + 2

/-- `PacketHeader(packetLen, offsetInBlock, seqno, lastPacketInBlock, dataLen)`. -/
def new (packetLen : Int32) (offsetInBlock seqno : Int64) (lastPacketInBlock : Bool)
    (dataLen : Int32) : PacketHeader :=
  ⟨packetLen, ⟨offsetInBlock, seqno, lastPacketInBlock, dataLen⟩⟩

/-- `writeInBuffer(buf, size)`: the bytes written. The packet length and the length of the protobuf,
most significant byte first, then the protobuf when it fits in the rest of `size` bytes
(`SerializeToArray` writes nothing otherwise). -/
def writeInBuffer (h : PacketHeader) (size : Nat) : List UInt8 :=
  Endian.beBytes h.packetLen.toBitVec.toNat 4 ++ Endian.beBytes (h.proto.byteSize pb) 2 ++
    if h.proto.byteSize pb ≤ size - 6 then pb.SerializeToArray h.proto else []

/-- `readFields(buf, size)`: the packet length and the length of the protobuf, most significant
byte first, then the protobuf, parsed by `parse`. -/
def readFields (parse : List UInt8 → Option PacketHeaderProto) (buf : List UInt8) (size : Nat) :
    Except PacketHeaderError PacketHeader :=
  let packetLen := Int32.ofBitVec (BitVec.ofNat 32 (Endian.beDecode (buf.take 4)))
  let protoLen := Int16.ofBitVec (BitVec.ofNat 16 (Endian.beDecode ((buf.drop 4).take 2)))
  if packetLen.toInt < 4 ∨ protoLen.toInt < 0 ∨ 6 + protoLen.toInt > size then
    .error (.invalid packetLen.toInt protoLen.toInt size)
  else
    match parse ((buf.drop 6).take protoLen.toInt.toNat) with
    | none => .error .cannotParse
    | some proto => .ok ⟨packetLen, proto⟩

/-- `sanityCheck(lastSeqNo)`: only the last packet may have no data, and it has none; each
sequence number is one more than the one before. -/
def sanityCheck (h : PacketHeader) (lastSeqNo : Int) : Bool :=
  if h.proto.dataLen.toInt ≤ 0 ∧ h.proto.lastPacketInBlock = false then false
  else if h.proto.lastPacketInBlock = true ∧ h.proto.dataLen.toInt ≠ 0 then false
  else if h.proto.seqno.toInt ≠ lastSeqNo + 1 then false
  else true

end PacketHeader

/-! ## The header round trip -/

namespace PacketHeaderProto

@[simp] theorem byteSize_eq (pb : PacketHeaderProtobuf) (p : PacketHeaderProto) :
    p.byteSize pb = 25 :=
  pb.length_SerializeToArray p

theorem parseCanonical_wire (p : PacketHeaderProto) :
    parseCanonical (PacketHeaderProtobuf.wire.SerializeToArray p) = some p := by
  have hA := Endian.length_leBytes p.offsetInBlock.toBitVec.toNat 8
  have hB := Endian.length_leBytes p.seqno.toBitVec.toNat 8
  have hs : PacketHeaderProtobuf.wire.SerializeToArray p =
      0x09 :: (Endian.leBytes p.offsetInBlock.toBitVec.toNat 8 ++
      0x11 :: (Endian.leBytes p.seqno.toBitVec.toNat 8 ++
        0x18 :: (if p.lastPacketInBlock then 1 else 0) :: 0x25 ::
          Endian.leBytes p.dataLen.toBitVec.toNat 4)) := by
    simp [PacketHeaderProtobuf.wire]
  rw [hs, parseCanonical]
  simp only [List.drop_left' hA, List.drop_left' hB, List.take_left' hA, List.take_left' hB]
  -- the four bytes of `dataLen` are matched one by one
  have hC : Endian.leBytes p.dataLen.toBitVec.toNat 4 = [UInt8.ofNat p.dataLen.toBitVec.toNat,
      UInt8.ofNat (p.dataLen.toBitVec.toNat / 256), UInt8.ofNat (p.dataLen.toBitVec.toNat / 256 / 256),
      UInt8.ofNat (p.dataLen.toBitVec.toNat / 256 / 256 / 256)] := rfl
  rw [hC]
  dsimp only
  have hflag : (if p.lastPacketInBlock then (1 : UInt8) else 0).toNat ≤ 1 := by
    split <;> decide
  have hflag' : decide ((if p.lastPacketInBlock then (1 : UInt8) else 0) = 1) = p.lastPacketInBlock := by
    cases p.lastPacketInBlock <;> decide
  rw [if_pos ⟨trivial, trivial, rfl, rfl, hflag⟩, ← hC, hflag',
    Endian.leDecode_leBytes _ _ (by simpa using p.offsetInBlock.toBitVec.isLt),
    Endian.leDecode_leBytes _ _ (by simpa using p.seqno.toBitVec.isLt),
    Endian.leDecode_leBytes _ _ (by simpa using p.dataLen.toBitVec.isLt)]
  simp

end PacketHeaderProto

namespace PacketHeader

variable (pb : PacketHeaderProtobuf)

/-- The header takes 31 bytes. -/
theorem GetPkgHeaderSize_eq : GetPkgHeaderSize pb = pkgHeaderSize := by
  simp [GetPkgHeaderSize, pkgHeaderSize, pb.length_SerializeToArray]

@[simp] theorem length_writeInBuffer (h : PacketHeader) : (h.writeInBuffer pb 31).length = 31 := by
  simp [writeInBuffer, pb.length_SerializeToArray]

/-- **The header is read back.** From the bytes `writeInBuffer` writes, whatever follows them,
`readFields` reads the header, for a parser that parses what `SerializeToArray` writes and a packet
length of at least four. -/
theorem readFields_writeInBuffer {parse : List UInt8 → Option PacketHeaderProto} {h : PacketHeader}
    (hparse : parse (pb.SerializeToArray h.proto) = some h.proto) (hlen : 4 ≤ h.packetLen.toInt)
    {size : Nat} (hsize : 31 ≤ size) (rest : List UInt8) :
    readFields parse (h.writeInBuffer pb 31 ++ rest) size = .ok h := by
  have hL := Endian.length_beBytes h.packetLen.toBitVec.toNat 4
  have hP := Endian.length_beBytes (h.proto.byteSize pb) 2
  have hbytes : h.writeInBuffer pb 31 ++ rest = Endian.beBytes h.packetLen.toBitVec.toNat 4 ++
      (Endian.beBytes (h.proto.byteSize pb) 2 ++ (pb.SerializeToArray h.proto ++ rest)) := by
    simp [writeInBuffer]
  have hpacketLen : Int32.ofBitVec (BitVec.ofNat 32
      (Endian.beDecode (Endian.beBytes h.packetLen.toBitVec.toNat 4))) = h.packetLen := by
    rw [Endian.beDecode_beBytes _ _ (by simpa using h.packetLen.toBitVec.isLt)]
    simp
  have hprotoLen : (Int16.ofBitVec (BitVec.ofNat 16
      (Endian.beDecode (Endian.beBytes (h.proto.byteSize pb) 2)))).toInt = 25 := by
    rw [PacketHeaderProto.byteSize_eq, Endian.beDecode_beBytes _ _ (by decide)]
    decide
  rw [readFields, hbytes, List.take_left' hL, List.drop_left' hL, List.take_left' hP]
  rw [hpacketLen, hprotoLen, if_neg (by omega), show ((25 : Int).toNat) = 25 from rfl,
    show (6 : Nat) = 4 + 2 from rfl, ← List.drop_drop, List.drop_left' hL, List.drop_left' hP,
    List.take_left' (pb.length_SerializeToArray _), hparse]

/-- A packet with data that is not the last one passes the sanity check after the packet before it. -/
theorem sanityCheck_data {h : PacketHeader} {lastSeqNo : Int} (hd : 0 < h.proto.dataLen.toInt)
    (hlast : h.proto.lastPacketInBlock = false) (hseqno : h.proto.seqno.toInt = lastSeqNo + 1) :
    h.sanityCheck lastSeqNo = true := by
  simp [sanityCheck, hlast, hseqno, Int.not_le.mpr hd]

end PacketHeader

/-! The buffer of a packet. `HdfsClient.Packet` of the pipeline keeps only what the pipeline reads
of a packet; `Wire.Packet` is the whole object, with its buffer. -/

namespace Wire

/-- A `Packet`: whether it is the last of its block, the positions in the buffer of the next
checksum, the first checksum, the next data byte, the first data byte and the header, the size of
a checksum, the most chunks and the chunks so far, its offset in the block and its sequence number,
and the buffer. -/
structure Packet where
  lastPacketInBlock : Bool
  checksumPos : Int
  checksumSize : Int
  checksumStart : Int
  dataPos : Int
  dataStart : Int
  headerStart : Int
  maxChunks : Int
  numChunks : Int
  offsetInBlock : Int64
  seqno : Int64
  buffer : List UInt8
  deriving DecidableEq, Repr

namespace Packet

variable (pb : PacketHeaderProtobuf)

/-- `Packet(pktSize, chunksPerPkt, offsetInBlock, seqno, checksumSize)`: a zeroed buffer of
`pktSize` bytes, the checksums right after the header's room and the data after room for
`chunksPerPkt` checksums. -/
def new (pktSize chunksPerPkt : Int32) (offsetInBlock seqno : Int64) (checksumSize : Int32) : Packet :=
  { lastPacketInBlock := false
    checksumPos := PacketHeader.GetPkgHeaderSize pb
    checksumSize := checksumSize.toInt
    checksumStart := PacketHeader.GetPkgHeaderSize pb
    dataPos := PacketHeader.GetPkgHeaderSize pb + chunksPerPkt.toInt * checksumSize.toInt
    dataStart := PacketHeader.GetPkgHeaderSize pb + chunksPerPkt.toInt * checksumSize.toInt
    headerStart := 0
    maxChunks := chunksPerPkt.toInt
    numChunks := 0
    offsetInBlock := offsetInBlock
    seqno := seqno
    buffer := List.replicate pktSize.toInt.toNat 0 }

/-- `reset(pktSize, chunksPerPkt, offsetInBlock, seqno, checksumSize)`: the same layout, in the
buffer the packet has, grown to `pktSize` bytes when it is smaller. -/
def reset (p : Packet) (pktSize chunksPerPkt : Int32) (offsetInBlock seqno : Int64)
    (checksumSize : Int32) : Packet :=
  { lastPacketInBlock := false
    checksumPos := PacketHeader.GetPkgHeaderSize pb
    checksumSize := checksumSize.toInt
    checksumStart := PacketHeader.GetPkgHeaderSize pb
    dataPos := PacketHeader.GetPkgHeaderSize pb + chunksPerPkt.toInt * checksumSize.toInt
    dataStart := PacketHeader.GetPkgHeaderSize pb + chunksPerPkt.toInt * checksumSize.toInt
    headerStart := 0
    maxChunks := chunksPerPkt.toInt
    numChunks := 0
    offsetInBlock := offsetInBlock
    seqno := seqno
    buffer := if pktSize.toInt > p.buffer.length then resize p.buffer pktSize.toInt.toNat
      else p.buffer }

/-- `addChecksum(checksum)`: four bytes, most significant first, at `checksumPos`, inside the room
for checksums. -/
def addChecksum (p : Packet) (checksum : UInt32) : Except OutputError Packet :=
  if p.checksumPos + 4 > p.dataStart then .error .checksumTooLarge
  else .ok { p with
    buffer := Chunks.writeAt 0 p.buffer p.checksumPos.toNat (Endian.beBytes checksum.toNat 4)
    checksumPos := p.checksumPos + p.checksumSize }

/-- `addData(buf, size)`: `size` bytes of `buf` at `dataPos`, inside the buffer. -/
def addData (p : Packet) (buf : List UInt8) (size : Int) : Except OutputError Packet :=
  if size + p.dataPos > p.buffer.length then .error .packetSizeTooSmall
  else .ok { p with
    buffer := Chunks.writeAt 0 p.buffer p.dataPos.toNat (buf.take size.toNat)
    dataPos := p.dataPos + size }

/-- `setLastPacketInBlock(lastPacket)`. -/
def setLastPacketInBlock (p : Packet) (lastPacket : Bool) : Packet :=
  { p with lastPacketInBlock := lastPacket }

/-- `increaseNumChunks()`. -/
def increaseNumChunks (p : Packet) : Packet := { p with numChunks := p.numChunks + 1 }

/-- `isFull()`. -/
def isFull (p : Packet) : Bool := decide (p.numChunks ≥ p.maxChunks)

/-- `getDataSize()`. -/
def getDataSize (p : Packet) : Int := p.dataPos - p.dataStart

/-- The `if (checksumPos != dataStart)` block of `getBuffer`: when the checksums stop short of the
data, move them (`memmove`) to end where the data starts; the header goes just before them. -/
def moveChecksums (p : Packet) : Packet :=
  if p.checksumPos ≠ p.dataStart then
    let checksumLen := p.checksumPos - p.checksumStart
    { p with
      buffer := Chunks.writeAt 0 p.buffer (p.dataStart - checksumLen).toNat
        ((p.buffer.drop p.checksumStart.toNat).take checksumLen.toNat)
      headerStart := p.dataStart - p.checksumPos
      checksumStart := p.checksumStart + (p.dataStart - p.checksumPos)
      checksumPos := p.dataStart }
  else p

/-- `getBuffer()`: the bytes to send, from `headerStart`, after the checksums are moved next to the
data. The header is written again at every call. -/
def getBuffer (p : Packet) : List UInt8 × Packet :=
  let dataLen := p.dataPos - p.dataStart
  let checksumLen := p.checksumPos - p.checksumStart
  let p := p.moveChecksums
  let pktLen := dataLen + checksumLen
  let header := PacketHeader.new (Int32.ofInt (pktLen + 4)) p.offsetInBlock p.seqno
    p.lastPacketInBlock (Int32.ofInt dataLen)
  let p := { p with
    buffer := Chunks.writeAt 0 p.buffer p.headerStart.toNat
      (header.writeInBuffer pb (PacketHeader.GetPkgHeaderSize pb).toNat) }
  ((p.buffer.drop p.headerStart.toNat).take (PacketHeader.GetPkgHeaderSize pb + pktLen).toNat, p)

end Packet

/-! ## Filling a packet -/

/-- The calls that fill a packet: `addChecksum`, `addData` of all of a buffer,
`setLastPacketInBlock` and `increaseNumChunks`. -/
inductive PacketOp
  | addChecksum (checksum : UInt32)
  | addData (buf : List UInt8)
  | setLastPacketInBlock (lastPacket : Bool)
  | increaseNumChunks
  deriving DecidableEq, Repr

namespace PacketOp

/-- The checksum a call adds. -/
def checksums : PacketOp → List UInt32
  | .addChecksum c => [c]
  | _ => []

/-- The data a call adds. -/
def bytes : PacketOp → List UInt8
  | .addData buf => buf
  | _ => []

/-- Whether the packet is the last of its block after a call. -/
def last (b : Bool) : PacketOp → Bool
  | .setLastPacketInBlock l => l
  | _ => b

end PacketOp

/-- The checksums as they lie in the buffer: four bytes each, most significant first. -/
def checksumBytes (cs : List UInt32) : List UInt8 := cs.flatMap fun c => Endian.beBytes c.toNat 4

@[simp] theorem length_checksumBytes (cs : List UInt32) : (checksumBytes cs).length = 4 * cs.length := by
  induction cs with
  | nil => rfl
  | cons c cs ih =>
    simp only [checksumBytes, List.flatMap_cons, List.length_append, Endian.length_beBytes] at ih ⊢
    rw [ih, List.length_cons]
    omega

theorem checksumBytes_append (cs cs' : List UInt32) :
    checksumBytes (cs ++ cs') = checksumBytes cs ++ checksumBytes cs' := by
  simp [checksumBytes]

namespace Packet

variable (pb : PacketHeaderProtobuf)

/-- One call. -/
def apply (p : Packet) : PacketOp → Except OutputError Packet
  | .addChecksum c => p.addChecksum c
  | .addData buf => p.addData buf buf.length
  | .setLastPacketInBlock l => .ok (p.setLastPacketInBlock l)
  | .increaseNumChunks => .ok p.increaseNumChunks

/-- Calls one after the other, up to the first that throws. -/
def run (p : Packet) : List PacketOp → Except OutputError Packet
  | [] => .ok p
  | op :: ops =>
    match p.apply op with
    | .error e => .error e
    | .ok p => run p ops

/-- The header `getBuffer` writes: the packet length counts itself, the checksums and the data. -/
def header (p : Packet) : PacketHeader :=
  PacketHeader.new (Int32.ofInt (p.dataPos - p.dataStart + (p.checksumPos - p.checksumStart) + 4))
    p.offsetInBlock p.seqno p.lastPacketInBlock (Int32.ofInt (p.dataPos - p.dataStart))

/-- The layout of a packet being filled with the checksums `cs` and the data `data`: room for the
header, the checksums after it, room for `maxChunks` of them, then the data, all inside the
buffer. -/
structure Filling (p : Packet) (cs : List UInt32) (data : List UInt8) : Prop where
  checksumSize_eq : p.checksumSize = 4
  headerStart_eq : p.headerStart = 0
  checksumStart_eq : p.checksumStart = pkgHeaderSize
  checksumPos_eq : p.checksumPos = pkgHeaderSize + 4 * cs.length
  dataStart_eq : p.dataStart = pkgHeaderSize + 4 * p.maxChunks
  dataPos_eq : p.dataPos = p.dataStart + data.length
  count_le : cs.length ≤ p.maxChunks
  fits : p.dataPos ≤ p.buffer.length
  checksums_at : (p.buffer.drop 31).take (4 * cs.length) = checksumBytes cs
  data_at : (p.buffer.drop p.dataStart.toNat).take data.length = data

/-- What the filling calls leave alone. -/
structure Keeps (p p' : Packet) : Prop where
  maxChunks_eq : p'.maxChunks = p.maxChunks
  length_eq : p'.buffer.length = p.buffer.length
  offsetInBlock_eq : p'.offsetInBlock = p.offsetInBlock
  seqno_eq : p'.seqno = p.seqno

theorem Keeps.refl (p : Packet) : Keeps p p := ⟨rfl, rfl, rfl, rfl⟩

theorem Keeps.trans {p p' p'' : Packet} (h : Keeps p p') (h' : Keeps p' p'') : Keeps p p'' :=
  ⟨h'.1.trans h.1, h'.2.trans h.2, h'.3.trans h.3, h'.4.trans h.4⟩

section Filling

variable {p : Packet} {cs : List UInt32} {data : List UInt8}

theorem Filling.addChecksum (h : Filling p cs data) (hk : cs.length < p.maxChunks) (c : UInt32) :
    ∃ p', p.addChecksum c = .ok p' ∧ Filling p' (cs ++ [c]) data ∧ Keeps p p' ∧
      p'.lastPacketInBlock = p.lastPacketInBlock := by
  have hpos := h.checksumPos_eq
  have hds := h.dataStart_eq
  have hdp := h.dataPos_eq
  have hfits := h.fits
  simp only [pkgHeaderSize] at hpos hds
  have hoff : p.checksumPos.toNat = 31 + 4 * cs.length := by omega
  have hlen := Endian.length_beBytes c.toNat 4
  rw [Packet.addChecksum, if_neg (by omega)]
  refine ⟨_, rfl, ?_, ?_, rfl⟩
  · refine { h with
      checksumPos_eq := ?_
      count_le := ?_
      fits := ?_
      checksums_at := ?_
      data_at := ?_ }
    · simp only [List.length_append, List.length_singleton, h.checksumSize_eq, pkgHeaderSize]
      omega
    · simp only [List.length_append, List.length_singleton]
      omega
    · rw [Chunks.length_writeAt (by rw [hoff, hlen]; omega)]
      exact hfits
    · -- the checksums before are where they were, and the new one follows them
      dsimp only
      have hbefore : ((Chunks.writeAt 0 p.buffer p.checksumPos.toNat (Endian.beBytes c.toNat 4)).drop
          31).take (4 * cs.length) = (p.buffer.drop 31).take (4 * cs.length) :=
        Chunks.take_drop_writeAt_of_le (by omega) (by omega)
      have hnew : ((Chunks.writeAt 0 p.buffer p.checksumPos.toNat (Endian.beBytes c.toNat 4)).drop
          p.checksumPos.toNat).take 4 = Endian.beBytes c.toNat 4 := by
        rw [← hlen]
        exact Chunks.take_drop_writeAt_self (by omega)
      rw [List.length_append, List.length_singleton, Nat.mul_add, Nat.mul_one, List.take_add,
        hbefore, h.checksums_at, List.drop_drop, show 31 + 4 * cs.length = p.checksumPos.toNat by omega,
        hnew, checksumBytes_append]
      rfl
    · dsimp only
      rw [Chunks.drop_writeAt_of_le (by omega) (by rw [hlen]; omega)]
      exact h.data_at
  · exact ⟨rfl, Chunks.length_writeAt (by rw [hoff, hlen]; omega), rfl, rfl⟩

theorem Filling.addData (h : Filling p cs data) (buf : List UInt8)
    (hroom : p.dataPos + buf.length ≤ p.buffer.length) :
    ∃ p', p.addData buf buf.length = .ok p' ∧ Filling p' cs (data ++ buf) ∧ Keeps p p' ∧
      p'.lastPacketInBlock = p.lastPacketInBlock := by
  have hpos := h.checksumPos_eq
  have hds := h.dataStart_eq
  have hdp := h.dataPos_eq
  have hk := h.count_le
  simp only [pkgHeaderSize] at hpos hds
  have hoff : p.dataPos.toNat = p.dataStart.toNat + data.length := by omega
  rw [Packet.addData, if_neg (by omega), Int.toNat_natCast, List.take_length]
  refine ⟨_, rfl, ?_, ?_, rfl⟩
  · refine { h with
      dataPos_eq := ?_
      fits := ?_
      checksums_at := ?_
      data_at := ?_ }
    · simp only [List.length_append]
      omega
    · rw [Chunks.length_writeAt (by omega)]
      omega
    · -- the checksums lie before the data
      dsimp only
      rw [Chunks.take_drop_writeAt_of_le (by omega) (by omega)]
      exact h.checksums_at
    · -- the data before are where they were, and the new data follow them
      dsimp only
      have hbefore : ((Chunks.writeAt 0 p.buffer p.dataPos.toNat buf).drop p.dataStart.toNat).take
          data.length = (p.buffer.drop p.dataStart.toNat).take data.length :=
        Chunks.take_drop_writeAt_of_le (by omega) (by omega)
      rw [List.length_append, List.take_add, hbefore, h.data_at, List.drop_drop, ← hoff,
        Chunks.take_drop_writeAt_self (by omega)]
  · exact ⟨rfl, Chunks.length_writeAt (by omega), rfl, rfl⟩

theorem Filling.setLastPacketInBlock (h : Filling p cs data) (l : Bool) :
    Filling (p.setLastPacketInBlock l) cs data := { h with }

theorem Filling.increaseNumChunks (h : Filling p cs data) : Filling p.increaseNumChunks cs data :=
  { h with }

/-- **One call keeps the layout.** A call that adds a checksum inside the room for them, or data
inside the buffer, succeeds and adds it. -/
theorem Filling.apply (h : Filling p cs data) (op : PacketOp)
    (hk : cs.length + op.checksums.length ≤ p.maxChunks)
    (hd : p.dataPos + op.bytes.length ≤ p.buffer.length) :
    ∃ p', p.apply op = .ok p' ∧ Filling p' (cs ++ op.checksums) (data ++ op.bytes) ∧ Keeps p p' ∧
      p'.lastPacketInBlock = op.last p.lastPacketInBlock := by
  cases op with
  | addChecksum c =>
    simp only [Packet.apply, PacketOp.checksums, PacketOp.bytes, PacketOp.last, List.append_nil,
      List.length_singleton] at hk ⊢
    exact h.addChecksum (by omega) c
  | addData buf =>
    simp only [Packet.apply, PacketOp.checksums, PacketOp.bytes, PacketOp.last, List.append_nil]
      at hd ⊢
    exact h.addData buf hd
  | setLastPacketInBlock l =>
    simp only [Packet.apply, PacketOp.checksums, PacketOp.bytes, PacketOp.last, List.append_nil]
    exact ⟨_, rfl, h.setLastPacketInBlock l, ⟨rfl, rfl, rfl, rfl⟩, rfl⟩
  | increaseNumChunks =>
    simp only [Packet.apply, PacketOp.checksums, PacketOp.bytes, PacketOp.last, List.append_nil]
    exact ⟨_, rfl, h.increaseNumChunks, ⟨rfl, rfl, rfl, rfl⟩, rfl⟩

/-- **A run of calls keeps the layout.** Calls that add checksums inside the room for them and
data inside the buffer all succeed, and add them in order. -/
theorem Filling.run (h : Filling p cs data) (ops : List PacketOp)
    (hk : cs.length + (ops.flatMap PacketOp.checksums).length ≤ p.maxChunks)
    (hd : p.dataPos + (ops.flatMap PacketOp.bytes).length ≤ p.buffer.length) :
    ∃ p', p.run ops = .ok p' ∧
      Filling p' (cs ++ ops.flatMap PacketOp.checksums) (data ++ ops.flatMap PacketOp.bytes) ∧
      Keeps p p' ∧ p'.lastPacketInBlock = ops.foldl PacketOp.last p.lastPacketInBlock := by
  induction ops generalizing p cs data with
  | nil => exact ⟨p, rfl, by simpa using h, Keeps.refl p, rfl⟩
  | cons op ops ih =>
    simp only [List.flatMap_cons, List.length_append] at hk hd
    obtain ⟨p₁, happ, h₁, hkeep₁, hlast₁⟩ := h.apply op (by omega) (by omega)
    have hdp₁ := h₁.dataPos_eq
    have hds₁ := h₁.dataStart_eq
    obtain ⟨p₂, hrun, h₂, hkeep₂, hlast₂⟩ := ih h₁
      (by rw [hkeep₁.maxChunks_eq]; simp only [List.length_append]; omega)
      (by
        rw [hkeep₁.length_eq]
        have := h.dataPos_eq
        have := h.dataStart_eq
        simp only [List.length_append, hkeep₁.maxChunks_eq] at hdp₁ hds₁ ⊢
        omega)
    refine ⟨p₂, by rw [Packet.run, happ]; exact hrun, by simpa using h₂, hkeep₁.trans hkeep₂, ?_⟩
    rw [hlast₂, hlast₁, List.foldl_cons]

theorem Filling.new {pktSize chunksPerPkt : Int32} (offsetInBlock seqno : Int64)
    (hfit : pkgHeaderSize + 4 * chunksPerPkt.toInt ≤ pktSize.toInt) (hk : 0 ≤ chunksPerPkt.toInt) :
    Filling (Packet.new pb pktSize chunksPerPkt offsetInBlock seqno 4) [] [] where
  checksumSize_eq := rfl
  headerStart_eq := rfl
  checksumStart_eq := PacketHeader.GetPkgHeaderSize_eq pb
  checksumPos_eq := by simp [Packet.new, PacketHeader.GetPkgHeaderSize_eq pb]
  dataStart_eq := by simp only [Packet.new, PacketHeader.GetPkgHeaderSize_eq pb]; simp; omega
  dataPos_eq := by simp [Packet.new]
  count_le := by simpa [Packet.new] using hk
  fits := by
    simp only [Packet.new, PacketHeader.GetPkgHeaderSize_eq pb, List.length_replicate, pkgHeaderSize,
      show (4 : Int32).toInt = 4 from rfl] at hfit ⊢
    omega
  checksums_at := by simp [checksumBytes]
  data_at := by simp

theorem Filling.reset (q : Packet) {pktSize chunksPerPkt : Int32} (offsetInBlock seqno : Int64)
    (hfit : pkgHeaderSize + 4 * chunksPerPkt.toInt ≤ pktSize.toInt) (hk : 0 ≤ chunksPerPkt.toInt) :
    Filling (q.reset pb pktSize chunksPerPkt offsetInBlock seqno 4) [] [] where
  checksumSize_eq := rfl
  headerStart_eq := rfl
  checksumStart_eq := PacketHeader.GetPkgHeaderSize_eq pb
  checksumPos_eq := by simp [Packet.reset, PacketHeader.GetPkgHeaderSize_eq pb]
  dataStart_eq := by simp only [Packet.reset, PacketHeader.GetPkgHeaderSize_eq pb]; simp; omega
  dataPos_eq := by simp [Packet.reset]
  count_le := by simpa [Packet.reset] using hk
  fits := by
    -- the buffer is grown to `pktSize` bytes when it is smaller
    simp only [Packet.reset, PacketHeader.GetPkgHeaderSize_eq pb, pkgHeaderSize,
      show (4 : Int32).toInt = 4 from rfl] at hfit ⊢
    split
    · simp only [resize, List.length_append, List.length_take, List.length_replicate]
      omega
    · omega
  checksums_at := by simp [checksumBytes]
  data_at := by simp

end Filling

/-! ## Handing the bytes over -/

@[simp] theorem moveChecksums_dataPos (p : Packet) : p.moveChecksums.dataPos = p.dataPos := by
  unfold moveChecksums; split <;> rfl

@[simp] theorem moveChecksums_dataStart (p : Packet) : p.moveChecksums.dataStart = p.dataStart := by
  unfold moveChecksums; split <;> rfl

@[simp] theorem moveChecksums_offsetInBlock (p : Packet) :
    p.moveChecksums.offsetInBlock = p.offsetInBlock := by
  unfold moveChecksums; split <;> rfl

@[simp] theorem moveChecksums_seqno (p : Packet) : p.moveChecksums.seqno = p.seqno := by
  unfold moveChecksums; split <;> rfl

@[simp] theorem moveChecksums_lastPacketInBlock (p : Packet) :
    p.moveChecksums.lastPacketInBlock = p.lastPacketInBlock := by
  unfold moveChecksums; split <;> rfl

theorem moveChecksums_of_eq {p : Packet} (h : p.checksumPos = p.dataStart) : p.moveChecksums = p := by
  rw [moveChecksums, if_neg (not_not.mpr h)]

/-- `getBuffer` in three steps: move the checksums, write the header of the packet before the
move, and hand over the bytes from `headerStart`. -/
theorem getBuffer_eq (p : Packet) :
    p.getBuffer pb =
      let q := p.moveChecksums
      let buffer := Chunks.writeAt 0 q.buffer q.headerStart.toNat (p.header.writeInBuffer pb 31)
      let q' := { q with buffer := buffer }
      ((q'.buffer.drop q.headerStart.toNat).take
        (pkgHeaderSize + (p.dataPos - p.dataStart) + (p.checksumPos - p.checksumStart)).toNat, q') := by
  simp only [getBuffer, header, PacketHeader.GetPkgHeaderSize_eq pb, moveChecksums_offsetInBlock,
    moveChecksums_seqno, moveChecksums_lastPacketInBlock, Int.add_assoc]
  rfl

/-- A packet whose bytes `out` are ready in its buffer: the checksums end where the data starts,
and `out`, from `headerStart` to the end of the data, starts with the header `header` gives. -/
structure Ready (p : Packet) (out : List UInt8) : Prop where
  checksumPos_eq : p.checksumPos = p.dataStart
  headerStart_nonneg : 0 ≤ p.headerStart
  checksumStart_eq : p.checksumStart = p.headerStart + pkgHeaderSize
  checksumStart_le : p.checksumStart ≤ p.dataStart
  dataStart_le : p.dataStart ≤ p.dataPos
  fits : p.dataPos ≤ p.buffer.length
  out_eq : (p.buffer.drop p.headerStart.toNat).take (p.dataPos - p.headerStart).toNat = out
  header_eq : out.take 31 = p.header.writeInBuffer pb 31

/-- **`getBuffer` again.** On a packet whose bytes are ready, `getBuffer` hands over the same bytes
and changes nothing: the checksums are not moved again, and the header is written over itself. -/
theorem Ready.getBuffer {p : Packet} {out : List UInt8} (h : Ready pb p out) :
    p.getBuffer pb = (out, p) := by
  have hcs := h.checksumPos_eq
  have hst := h.checksumStart_eq
  have hle := h.checksumStart_le
  have hdp := h.dataStart_le
  have hfits := h.fits
  have hnn := h.headerStart_nonneg
  simp only [pkgHeaderSize] at hst
  -- the header is already there
  have hheader : p.header.writeInBuffer pb 31 = (p.buffer.drop p.headerStart.toNat).take 31 := by
    rw [← h.header_eq, ← h.out_eq, List.take_take, Nat.min_eq_left (by omega)]
  have hlen : (pkgHeaderSize + (p.dataPos - p.dataStart) + (p.checksumPos - p.checksumStart)).toNat =
      (p.dataPos - p.headerStart).toNat := by
    simp only [pkgHeaderSize]
    omega
  rw [getBuffer_eq, moveChecksums_of_eq hcs]
  dsimp only
  rw [hheader, Chunks.writeAt_self (by omega), hlen, h.out_eq]

/-- What `moveChecksums` does to a packet being filled: the checksums go to end where the data
starts, and the header's place is just before them. When they end there already, they are written
over themselves. -/
theorem Filling.moveChecksums {p : Packet} {cs : List UInt32} {data : List UInt8}
    (h : Filling p cs data) :
    p.moveChecksums.buffer =
      Chunks.writeAt 0 p.buffer (p.dataStart - 4 * cs.length).toNat (checksumBytes cs) ∧
    p.moveChecksums.headerStart = p.dataStart - p.checksumPos ∧
    p.moveChecksums.checksumStart = p.dataStart - 4 * cs.length ∧
    p.moveChecksums.checksumPos = p.dataStart := by
  have hpos := h.checksumPos_eq
  have hds := h.dataStart_eq
  have hst := h.checksumStart_eq
  have hhs := h.headerStart_eq
  have hk := h.count_le
  have hdp := h.dataPos_eq
  have hfits := h.fits
  simp only [pkgHeaderSize] at hpos hds hst
  unfold Packet.moveChecksums
  split
  · -- fewer checksums than room for them: they move
    have hlen : (p.checksumPos - p.checksumStart).toNat = 4 * cs.length := by omega
    have hstart : p.checksumStart.toNat = 31 := by omega
    dsimp only
    rw [hlen, hstart, h.checksums_at,
      show p.dataStart - (p.checksumPos - p.checksumStart) = p.dataStart - 4 * cs.length by omega]
    exact ⟨rfl, rfl, by omega, rfl⟩
  · -- as many checksums as room for them: they are where they go
    have hat : (p.dataStart - 4 * cs.length).toNat = 31 := by omega
    rw [hat, ← h.checksums_at, Chunks.writeAt_self (by omega)]
    exact ⟨rfl, by omega, by omega, by omega⟩

/-- **What `getBuffer` hands over.** From a packet being filled, `getBuffer` hands over the header,
the checksums and the data, and leaves the packet with these bytes ready in its buffer. -/
theorem Filling.getBuffer {p : Packet} {cs : List UInt32} {data : List UInt8}
    (h : Filling p cs data) :
    (p.getBuffer pb).1 = p.header.writeInBuffer pb 31 ++ checksumBytes cs ++ data ∧
      Ready pb (p.getBuffer pb).2 (p.getBuffer pb).1 := by
  obtain ⟨hbuf, hhs, hst', hcp'⟩ := h.moveChecksums
  have hpos := h.checksumPos_eq
  have hds := h.dataStart_eq
  have hst := h.checksumStart_eq
  have hk := h.count_le
  have hdp := h.dataPos_eq
  have hfits := h.fits
  simp only [pkgHeaderSize] at hpos hds hst
  -- the header goes at `hs`, the checksums at `hs + 31`, the data at `dataStart`
  set hs := (p.dataStart - p.checksumPos).toNat with hhs_def
  have hlayout : hs + 31 + 4 * cs.length = p.dataStart.toNat := by omega
  have hcsb := length_checksumBytes cs
  have hhdr := PacketHeader.length_writeInBuffer pb p.header
  set B := Chunks.writeAt 0 p.buffer (p.dataStart - 4 * cs.length).toNat (checksumBytes cs) with hB
  have hBlen : B.length = p.buffer.length := Chunks.length_writeAt (by rw [hcsb]; omega)
  set B' := Chunks.writeAt 0 B hs (p.header.writeInBuffer pb 31) with hB'
  have hB'len : B'.length = p.buffer.length := by
    rw [Chunks.length_writeAt (by rw [hhdr, hBlen]; omega), hBlen]
  -- the three parts, read from the buffer
  have hheader : (B'.drop hs).take 31 = p.header.writeInBuffer pb 31 := by
    have hself : (B'.drop hs).take (p.header.writeInBuffer pb 31).length =
        p.header.writeInBuffer pb 31 :=
      Chunks.take_drop_writeAt_self (by omega)
    rwa [hhdr] at hself
  have hchecksums : (B'.drop (hs + 31)).take (4 * cs.length) = checksumBytes cs := by
    rw [Chunks.drop_writeAt_of_le (by omega) (by rw [hhdr]), ← hcsb,
      show hs + 31 = (p.dataStart - 4 * cs.length).toNat by omega]
    exact Chunks.take_drop_writeAt_self (by omega)
  have hdata : (B'.drop (hs + 31 + 4 * cs.length)).take data.length = data := by
    rw [Chunks.drop_writeAt_of_le (by omega) (by rw [hhdr]; omega),
      Chunks.drop_writeAt_of_le (by omega) (by rw [hcsb]; omega), hlayout]
    exact h.data_at
  have hout : (B'.drop hs).take (31 + 4 * cs.length + data.length) =
      p.header.writeInBuffer pb 31 ++ checksumBytes cs ++ data := by
    rw [List.take_add, List.take_add, hheader, List.drop_drop, List.drop_drop, hchecksums,
      ← Nat.add_assoc, hdata, List.append_assoc]
  have hlen : (pkgHeaderSize + (p.dataPos - p.dataStart) + (p.checksumPos - p.checksumStart)).toNat =
      31 + 4 * cs.length + data.length := by
    simp only [pkgHeaderSize]
    omega
  rw [getBuffer_eq]
  dsimp only
  rw [hhs, hbuf, hlen, ← hB', hout]
  refine ⟨rfl, ?_⟩
  -- the bytes are ready, under the header of the packet before the move
  exact {
    checksumPos_eq := by simp only [hcp', moveChecksums_dataStart]
    headerStart_nonneg := by dsimp only; omega
    checksumStart_eq := by simp only [hst', pkgHeaderSize]; omega
    checksumStart_le := by simp only [hst', moveChecksums_dataStart]; omega
    dataStart_le := by simp only [moveChecksums_dataStart, moveChecksums_dataPos]; omega
    fits := by simp only [moveChecksums_dataPos, hB'len]; exact hfits
    out_eq := by
      simp only [moveChecksums_dataPos]
      rw [show (p.dataPos - (p.dataStart - p.checksumPos)).toNat = 31 + 4 * cs.length + data.length
        by omega, ← hhs_def, hout]
    header_eq := by
      rw [List.append_assoc, List.take_left' hhdr]
      simp only [header, moveChecksums_dataPos, moveChecksums_dataStart, moveChecksums_offsetInBlock,
        moveChecksums_seqno, moveChecksums_lastPacketInBlock, hst', hcp']
      rw [show p.dataPos - p.dataStart + (p.dataStart - (p.dataStart - 4 * (cs.length : Int))) + 4 =
        p.dataPos - p.dataStart + (p.checksumPos - p.checksumStart) + 4 by omega] }

/-- The packets `Packet(...)` and `reset(...)` start from: being filled, with nothing added yet. -/
theorem Filling.start {pktSize chunksPerPkt : Int32} {offsetInBlock seqno : Int64} {p₀ : Packet}
    (hp₀ : p₀ = Packet.new pb pktSize chunksPerPkt offsetInBlock seqno 4 ∨
      ∃ q : Packet, p₀ = q.reset pb pktSize chunksPerPkt offsetInBlock seqno 4)
    (hfit : pkgHeaderSize + 4 * chunksPerPkt.toInt ≤ pktSize.toInt) (hk : 0 ≤ chunksPerPkt.toInt) :
    Filling p₀ [] [] ∧ p₀.maxChunks = chunksPerPkt.toInt ∧ pktSize.toInt ≤ p₀.buffer.length ∧
      p₀.offsetInBlock = offsetInBlock ∧ p₀.seqno = seqno ∧ p₀.lastPacketInBlock = false := by
  rcases hp₀ with rfl | ⟨q, rfl⟩
  · refine ⟨Filling.new pb offsetInBlock seqno hfit hk, rfl, ?_, rfl, rfl, rfl⟩
    simp only [Packet.new, List.length_replicate, pkgHeaderSize] at hfit ⊢
    omega
  · refine ⟨Filling.reset pb q offsetInBlock seqno hfit hk, rfl, ?_, rfl, rfl, rfl⟩
    simp only [Packet.reset, pkgHeaderSize] at hfit ⊢
    split
    · simp only [resize, List.length_append, List.length_take, List.length_replicate]
      omega
    · omega

/-- **A packet on the wire.** Take a packet from `Packet(pktSize, chunksPerPkt, offsetInBlock,
seqno, 4)` or `reset` with these arguments, and calls that add at most `chunksPerPkt` checksums and
data that fit in the buffer after the room for them. The calls succeed; `getBuffer` hands over the
header, the checksums most significant byte first, and the data, `GetPkgHeaderSize() + 4k + d`
bytes; `readFields` reads back the packet length `4 + 4k + d`, the data length `d`, the offset,
the seqno and whether the packet is the last of its block; and a second `getBuffer`, as `resend`
makes, hands over the same bytes. -/
theorem getBuffer_header_checksums_data {parse : List UInt8 → Option PacketHeaderProto}
    (hparse : ∀ h, parse (pb.SerializeToArray h) = some h)
    {pktSize chunksPerPkt : Int32} {offsetInBlock seqno : Int64} {p₀ : Packet}
    (hp₀ : p₀ = Packet.new pb pktSize chunksPerPkt offsetInBlock seqno 4 ∨
      ∃ q : Packet, p₀ = q.reset pb pktSize chunksPerPkt offsetInBlock seqno 4)
    (ops : List PacketOp)
    (hk : ((ops.flatMap PacketOp.checksums).length : Int) ≤ chunksPerPkt.toInt)
    (hd : pkgHeaderSize + 4 * chunksPerPkt.toInt + (ops.flatMap PacketOp.bytes).length ≤
      pktSize.toInt) :
    let k := (ops.flatMap PacketOp.checksums).length
    let d := (ops.flatMap PacketOp.bytes).length
    let last := ops.foldl PacketOp.last false
    ∃ p, p₀.run ops = .ok p ∧
      (p.getBuffer pb).1 = (PacketHeader.new (Int32.ofInt (d + 4 * k + 4)) offsetInBlock seqno last
        (Int32.ofInt d)).writeInBuffer pb 31 ++
          checksumBytes (ops.flatMap PacketOp.checksums) ++ ops.flatMap PacketOp.bytes ∧
      (p.getBuffer pb).1.length = PacketHeader.GetPkgHeaderSize pb + 4 * k + d ∧
      (∃ h, PacketHeader.readFields parse (p.getBuffer pb).1 (p.getBuffer pb).1.length = .ok h ∧
        h.packetLen.toInt = 4 + 4 * k + d ∧ h.proto.dataLen.toInt = d ∧
        h.proto.offsetInBlock = offsetInBlock ∧ h.proto.seqno = seqno ∧
        h.proto.lastPacketInBlock = last) ∧
      ((p.getBuffer pb).2.getBuffer pb).1 = (p.getBuffer pb).1 := by
  intro k d last
  have hlt := pktSize.toInt_lt
  simp only [pkgHeaderSize] at hd
  obtain ⟨hfill₀, hmax₀, hlen₀, hoff₀, hseq₀, hlast₀⟩ :=
    Filling.start pb hp₀ (by simp only [pkgHeaderSize]; omega) (by omega)
  have hdp₀ := hfill₀.dataPos_eq
  have hds₀ := hfill₀.dataStart_eq
  simp only [pkgHeaderSize, List.length_nil, Nat.cast_zero, Int.add_zero] at hdp₀ hds₀
  obtain ⟨p, hrun, hfill, hkeep, hlast⟩ := hfill₀.run ops
    (by simp only [List.length_nil, Nat.cast_zero, Int.zero_add, hmax₀]; exact hk)
    (by omega)
  obtain ⟨hout, hready⟩ := hfill.getBuffer pb
  simp only [List.nil_append] at hfill hout
  have hmax := hkeep.maxChunks_eq
  have hkdef : k = (ops.flatMap PacketOp.checksums).length := rfl
  have hddef : d = (ops.flatMap PacketOp.bytes).length := rfl
  -- the header of the packet: its lengths fit in an `int32_t`
  have hdp := hfill.dataPos_eq
  have hcp := hfill.checksumPos_eq
  have hcs := hfill.checksumStart_eq
  have hfits := hfill.fits
  have hds := hfill.dataStart_eq
  simp only [pkgHeaderSize] at hcp hcs hds
  have hheader : p.header = PacketHeader.new (Int32.ofInt (d + 4 * k + 4)) offsetInBlock seqno last
      (Int32.ofInt d) := by
    rw [header, hkeep.offsetInBlock_eq, hkeep.seqno_eq, hoff₀, hseq₀, hlast, hlast₀,
      show p.dataPos - p.dataStart + (p.checksumPos - p.checksumStart) + 4 = d + 4 * k + 4 by omega,
      show p.dataPos - p.dataStart = d by omega]
  have hpacketLen : (Int32.ofInt ((d : Int) + 4 * k + 4)).toInt = 4 + 4 * k + d :=
    by rw [Int32.toInt_ofInt_of_le (by omega) (by omega)]; omega
  have hdataLen : (Int32.ofInt (d : Int)).toInt = d := Int32.toInt_ofInt_of_le (by omega) (by omega)
  rw [hheader] at hout
  refine ⟨p, hrun, hout, ?_, ?_, by rw [hready.getBuffer pb]⟩
  · rw [hout, PacketHeader.GetPkgHeaderSize_eq pb]
    simp only [List.length_append, PacketHeader.length_writeInBuffer, length_checksumBytes,
      pkgHeaderSize]
    omega
  · refine ⟨PacketHeader.new (Int32.ofInt (d + 4 * k + 4)) offsetInBlock seqno last (Int32.ofInt d),
      ?_, hpacketLen, hdataLen, rfl, rfl, rfl⟩
    have hsize : 31 ≤ ((PacketHeader.new (Int32.ofInt (d + 4 * k + 4)) offsetInBlock seqno last
        (Int32.ofInt d)).writeInBuffer pb 31 ++ checksumBytes (ops.flatMap PacketOp.checksums) ++
          ops.flatMap PacketOp.bytes).length := by
      simp only [List.length_append, PacketHeader.length_writeInBuffer]
      omega
    rw [hout]
    have hread := @PacketHeader.readFields_writeInBuffer pb parse
      (PacketHeader.new (Int32.ofInt (d + 4 * k + 4)) offsetInBlock seqno last (Int32.ofInt d))
      (hparse _) (by rw [PacketHeader.new, hpacketLen]; omega) _ hsize
      (checksumBytes (ops.flatMap PacketOp.checksums) ++ ops.flatMap PacketOp.bytes)
    rw [← List.append_assoc] at hread
    exact hread

/-- A packet with room for three chunks, given two checksums and four bytes of data, and marked
the last of its block. -/
theorem getBuffer_header_checksums_data_two_of_three :
    let ops := [PacketOp.addChecksum 0x01020304, .addData [10, 11, 12], .addChecksum 0xAABBCCDD,
      .addData [13], .setLastPacketInBlock true]
    ((ops.flatMap PacketOp.checksums).length : Int) ≤ (3 : Int32).toInt ∧
    pkgHeaderSize + 4 * (3 : Int32).toInt + (ops.flatMap PacketOp.bytes).length ≤ (100 : Int32).toInt ∧
    ∃ p, (Packet.new PacketHeaderProtobuf.wire 100 3 7 2 4).run ops = .ok p ∧
      (p.getBuffer PacketHeaderProtobuf.wire).1.length = 43 ∧
      ((p.getBuffer PacketHeaderProtobuf.wire).2.getBuffer PacketHeaderProtobuf.wire).1 =
        (p.getBuffer PacketHeaderProtobuf.wire).1 := by
  intro ops
  have hk : ((ops.flatMap PacketOp.checksums).length : Int) ≤ (3 : Int32).toInt := by decide
  have hd : pkgHeaderSize + 4 * (3 : Int32).toInt + (ops.flatMap PacketOp.bytes).length ≤
      (100 : Int32).toInt := by decide
  obtain ⟨p, hrun, -, hlen, -, hagain⟩ := getBuffer_header_checksums_data PacketHeaderProtobuf.wire
    PacketHeaderProto.parseCanonical_wire (Or.inl rfl) ops hk hd
  refine ⟨hk, hd, p, hrun, ?_, hagain⟩
  have h43 : PacketHeader.GetPkgHeaderSize PacketHeaderProtobuf.wire +
      4 * ((ops.flatMap PacketOp.checksums).length : Int) + (ops.flatMap PacketOp.bytes).length = 43 := by
    rw [PacketHeader.GetPkgHeaderSize_eq PacketHeaderProtobuf.wire]; decide
  omega

end Packet

end Wire

end HdfsClient
