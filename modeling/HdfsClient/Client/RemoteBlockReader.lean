import HdfsClient.Client.LocalBlockReader
import HdfsClient.Client.Packet
import HdfsClient.Network.BufferedSocketReader
import Mathlib.Algebra.Group.Int.Defs

/-!
# The remote block reader

`RemoteBlockReader` (`client/RemoteBlockReader.cpp`) reads the range `[start, start + len)` of a
block from a datanode. The constructor reads the datanode's `BlockOpResponseProto` and checks it:
the checksum type, the bytes per checksum `chunkSize`, and `firstChunkOffset`, where the first packet
starts, at the chunk boundary at or before `start`. Then the datanode sends packets, each a header
(`PacketHeader`), the checksums of its chunks and its data. `readNextPacket` reads one into
`buffer`, with `position` past the checksums and past the bytes before the cursor
(`pendingAhead = cursor - offsetInBlock`), and `size` at the end of the data. `read` copies from
`buffer[position, size)`; `skip` moves through it, reading packets as it goes.

**The model.** The datanode's bytes are `stream`, read from the front: the buffered socket reader in
front of the socket is transparent (`BufferedSocketReaderImpl.run_servesAll`), and its eight-byte
buffer decides when `readVarint32` gives up. A socket either delivers the bytes asked for or ends.
The protobuf code is not part of the client: the parsers are parameters, and so is the header's
`SerializeToArray` (`PacketHeaderProtobuf`), whose size `GetPkgHeaderSize` counts. Arithmetic is on `Int`, where the source's `int` or `int64_t`
arithmetic on a value the datanode sends can overflow, which is undefined, the model throws
`intOverflow`; a `memcpy` of a negative length or past the buffer is `copyOutsideBuffer`.
`assert`s are compiled out in the default build (`RelWithDebInfo` defines `NDEBUG`), and here too.
-/

namespace HdfsClient

/-- `Status` (`datatransfer.proto`). -/
inductive Status
  | success
  | error
  | errorChecksum
  | errorInvalid
  | errorExists
  | errorAccessToken
  | checksumOk
  | errorUnsupported
  | oobRestart
  | oobReserved1
  | oobReserved2
  | oobReserved3
  | inProgress
  deriving DecidableEq, Repr

/-- `ChecksumTypeProto`. -/
inductive ChecksumTypeProto
  | null
  | crc32
  | crc32c
  deriving DecidableEq, Repr

/-- `ChecksumProto`. -/
structure ChecksumProto where
  type : ChecksumTypeProto
  bytesPerChecksum : UInt32
  deriving DecidableEq, Repr

/-- `ReadOpChecksumInfoProto`: the checksum, and where in the block the first packet starts. -/
structure ReadOpChecksumInfoProto where
  checksum : ChecksumProto
  chunkOffset : UInt64
  deriving DecidableEq, Repr

/-- `BlockOpResponseProto`, with the fields the reader reads; an optional field that is not set is
`none`. -/
structure BlockOpResponseProto where
  status : Status
  message : Option String
  readOpChecksumInfo : Option ReadOpChecksumInfoProto
  deriving DecidableEq, Repr

/-- The exceptions of the reader, with the data of their messages, and the undefined behaviour it
can reach. -/
inductive RemoteReadError
  /-- From the socket: `HdfsEndOfStream`, or `HdfsNetworkException` for a bad varint. -/
  | socket (e : ReadError)
  /-- "RemoteBlockReader get a invalid response size: %d, ..." -/
  | invalidResponseSize (respSize : Int)
  /-- "RemoteBlockReader cannot parse BlockOpResponseProto from Datanode response, ..." -/
  | cannotParseResponse
  /-- `HdfsInvalidBlockToken`: "RemoteBlockReader: block's token is invalid. ..." -/
  | invalidBlockToken
  /-- "RemoteBlockReader: Datanode return an error when sending read request to Datanode: ..." -/
  | datanodeError (message : Option String)
  /-- "RemoteBlockReader invalid chunk size: %d, ..." -/
  | invalidChunkSize (chunkSize : Int)
  /-- "RemoteBlockReader does not support CRC32 checksum, ..." -/
  | crc32Unsupported
  /-- "RemoteBlockReader invalid first chunk offset: %lld, expected range[0, %lld], ..." -/
  | invalidFirstChunkOffset (firstChunkOffset cursor : Int)
  /-- "RemoteBlockReader: read over block end from Datanode: %s, Block: %s." -/
  | readOverBlockEnd
  /-- From `PacketHeader::readFields`. -/
  | packetHeader (e : PacketHeaderError)
  /-- "RemoteBlockReader: failed to read block header for Block: %s from Datanode: %s.", nesting
  an `HdfsIOException`. -/
  | failedToReadHeader (e : RemoteReadError)
  /-- "RemoteBlockReader: Packet failed on sanity check for block %s from Datanode %s." -/
  | sanityCheckFailed
  /-- "Invalid Packet, packetLen is %d, dataSize is %d, checksum size is %d" -/
  | invalidPacket (packetLen dataSize checksumLen : Int)
  /-- `ChecksumException`: "RemoteBlockReader: checksum not match for Block: %s, ..." -/
  | checksumMismatch
  /-- "RemoteBlockReader: skip over block end from Datanode: %s, Block: %s." -/
  | skipOverBlockEnd
  /-- "RemoteBlockReader: failed to read Block: %s from Datanode: %s.", nesting a timeout or a
  network exception. -/
  | failedToRead (e : RemoteReadError)
  /-- Undefined behaviour: signed arithmetic out of range. -/
  | intOverflow
  /-- Undefined behaviour: an integer division by zero. -/
  | divisionByZero
  /-- Undefined behaviour: `memcpy` of a negative length, or outside the buffer. -/
  | copyOutsideBuffer
  /-- The bound on `skip`'s rounds ran out. -/
  | outOfFuel
  deriving DecidableEq, Repr

namespace RemoteReadError

/-- Whether the exception is an `HdfsIOException`, which `readPacketHeader` catches:
`HdfsEndOfStream` and `HdfsNetworkException` are, timeouts, `HdfsInvalidBlockToken` and
`ChecksumException` are not. -/
def isIOException : RemoteReadError → Bool
  | .socket .endOfStream => true
  | .socket (.invalidVarint _) => true
  | .socket _ => false
  | .invalidBlockToken | .checksumMismatch => false
  | .intOverflow | .divisionByZero | .copyOutsideBuffer | .outOfFuel => false
  | _ => true

/-- Whether the exception is an `HdfsTimeoutException` or an `HdfsNetworkException`, which `read`
and `skip` catch. -/
def isTimeoutOrNetwork : RemoteReadError → Bool
  | .socket (.timeout _) => true
  | .socket (.invalidVarint _) => true
  | _ => false

end RemoteReadError

/-- An `int` computation: its value, or undefined behaviour out of `int`'s range. -/
def intOp (x : Int) : Except RemoteReadError Int :=
  if -2 ^ 31 ≤ x ∧ x < 2 ^ 31 then pure x else throw .intOverflow

/-- An `int64_t` computation. -/
def int64Op (x : Int) : Except RemoteReadError Int :=
  if -2 ^ 63 ≤ x ∧ x < 2 ^ 63 then pure x else throw .intOverflow

theorem intOp_ok {x : Int} (h₁ : -2 ^ 31 ≤ x) (h₂ : x < 2 ^ 31) : intOp x = .ok x := if_pos ⟨h₁, h₂⟩

theorem int64Op_ok {x : Int} (h₁ : -2 ^ 63 ≤ x) (h₂ : x < 2 ^ 63) : int64Op x = .ok x :=
  if_pos ⟨h₁, h₂⟩

/-- A `RemoteBlockReader`: whether it has sent the read status, whether it verifies, the sizes of
a checksum and of a chunk, `position` and `size` in `buffer`, `cursor` and `endOffset` in the block,
the last sequence number and header received, and the bytes the datanode has still to deliver. -/
structure RemoteBlockReader where
  sentStatus : Bool
  verify : Bool
  checksumSize : Int
  chunkSize : Int
  position : Int
  size : Int
  cursor : Int
  endOffset : Int
  lastSeqNo : Int
  lastHeader : Option PacketHeader
  buffer : List UInt8
  stream : List UInt8
  deriving DecidableEq, Repr

namespace RemoteBlockReader

section Model

variable (parseResponse : List UInt8 → Option BlockOpResponseProto) (pb : PacketHeaderProtobuf)
  (parse : List UInt8 → Option PacketHeaderProto)

/-- `in->readFully(buf, size)`: the next `size` bytes, or the end of the stream. -/
def readFully (r : RemoteBlockReader) (size : Int) :
    Except RemoteReadError (List UInt8 × RemoteBlockReader) :=
  if size.toNat ≤ r.stream.length then
    pure (r.stream.take size.toNat, { r with stream := r.stream.drop size.toNat })
  else throw (.socket .endOfStream)

/-- `in->readVarint32()`: a varint decoded from at most the eight bytes the buffer holds, as an
`int32_t`. -/
def readVarint32 (r : RemoteBlockReader) : Except RemoteReadError (Int × RemoteBlockReader) :=
  match varint32 (r.stream.take 8) with
  | some (v, n) => pure ((v.toNat : Int).bmod (2 ^ 32), { r with stream := r.stream.drop n })
  | none =>
    if 8 ≤ r.stream.length then throw (.socket (.invalidVarint 8))
    else throw (.socket .endOfStream)

/-- `checkResponse()`: the response, its status, the checksum type, the bytes per checksum and the
first chunk offset. -/
def checkResponse (r : RemoteBlockReader) : Except RemoteReadError RemoteBlockReader := do
  let (respSize, r) ← r.readVarint32
  if respSize ≤ 0 ∨ respSize > 10 * 1024 * 1024 then throw (.invalidResponseSize respSize)
  let (respBuffer, r) ← r.readFully respSize
  let some resp := parseResponse respBuffer | throw .cannotParseResponse
  if resp.status ≠ .success then
    if resp.status = .errorAccessToken then throw .invalidBlockToken
    else throw (.datanodeError resp.message)
  -- an unset `readOpChecksumInfo` reads as the default instance
  let checksumInfo := resp.readOpChecksumInfo.getD ⟨⟨.null, 0⟩, 0⟩
  let chunkSize := (checksumInfo.checksum.bytesPerChecksum.toNat : Int).bmod (2 ^ 32)
  if chunkSize < 0 then throw (.invalidChunkSize chunkSize)
  let r ← match checksumInfo.checksum.type with
    | .null => pure { r with chunkSize := chunkSize, verify := false, checksumSize := 0 }
    | .crc32 => throw .crc32Unsupported
    | .crc32c => pure { r with chunkSize := chunkSize, checksumSize := 4 }
  let firstChunkOffset := (checksumInfo.chunkOffset.toNat : Int).bmod (2 ^ 64)
  if firstChunkOffset < 0 ∨ firstChunkOffset > r.cursor ∨ firstChunkOffset ≤ r.cursor - r.chunkSize
  then throw (.invalidFirstChunkOffset firstChunkOffset r.cursor)
  pure r

/-- Whether the last header received was the last packet's. -/
def lastHeaderIsLast (r : RemoteBlockReader) : Bool :=
  match r.lastHeader with
  | some h => h.proto.lastPacketInBlock
  | none => false

/-- `readPacketHeader()`: nothing after the last packet; otherwise the header's bytes, read by
`readFields`. An `HdfsIOException` is nested in "failed to read block header". -/
def readPacketHeader (r : RemoteBlockReader) :
    Except RemoteReadError (PacketHeader × RemoteBlockReader) :=
  let body : Except RemoteReadError (PacketHeader × RemoteBlockReader) := do
    if r.lastHeaderIsLast then throw .readOverBlockEnd
    let (buf, r) ← r.readFully (PacketHeader.GetPkgHeaderSize pb)
    let header ← (PacketHeader.readFields parse buf (PacketHeader.GetPkgHeaderSize pb).toNat).mapError
      .packetHeader
    pure (header, r)
  body.mapError fun e => if e.isIOException then .failedToReadHeader e else e

/-- `readTrailingEmptyPacket()`: whether the next header is an empty last packet's. -/
def readTrailingEmptyPacket (r : RemoteBlockReader) :
    Except RemoteReadError (Bool × RemoteBlockReader) := do
  let (trailingHeader, r) ← r.readPacketHeader pb parse
  pure (trailingHeader.proto.lastPacketInBlock && trailingHeader.proto.dataLen.toInt == 0, r)

/-- `sendStatus()`, whose write to the socket succeeds. -/
def sendStatus (r : RemoteBlockReader) : RemoteBlockReader := { r with sentStatus := true }

/-- The loop of `verifyChecksum(chunks)`: chunk `i` of `pdata`, with `dataSize` bytes of data left,
against its checksum at the front of the buffer, for `k` more chunks. -/
def verifyChunks (r : RemoteBlockReader) (pdata : List UInt8) :
    Nat → Int → Nat → Except RemoteReadError Unit
  | _, _, 0 => pure ()
  | i, dataSize, k + 1 =>
    let size := min r.chunkSize dataSize
    let result := crc32c ((pdata.drop (i * r.chunkSize.toNat)).take size.toNat)
    let target := Endian.beDecode ((r.buffer.drop (i * r.checksumSize.toNat)).take 4)
    if result.toNat ≠ target then throw .checksumMismatch
    else r.verifyChunks pdata (i + 1) (dataSize - size) k

/-- `verifyChecksum(chunks)`: every chunk of the packet's data against its checksum. -/
def verifyChecksum (r : RemoteBlockReader) (dataLen chunks : Int) : Except RemoteReadError Unit :=
  r.verifyChunks (r.buffer.drop (chunks * r.checksumSize).toNat) 0 dataLen chunks.toNat

/-- `readNextPacket()`: the next header; for a packet with data, its checksums and data, checked
and verified, with `position` past the checksums and past the data before the cursor; then, when
the packet reaches `endOffset`, the trailing empty packet and the read status. -/
def readNextPacket (r : RemoteBlockReader) : Except RemoteReadError RemoteBlockReader := do
  let (header, r) ← r.readPacketHeader pb parse
  let r := { r with lastHeader := some header }
  let dataSize := header.proto.dataLen.toInt
  if !header.sanityCheck r.lastSeqNo then throw .sanityCheckFailed
  let (r, pendingAhead) ← if dataSize > 0 then do
      -- `(dataSize + chunkSize - 1)`: two `int` operations, each of which can overflow
      let sum ← intOp (dataSize + r.chunkSize)
      let n ← intOp (sum - 1)
      if r.chunkSize = 0 then throw .divisionByZero
      let chunks := n.tdiv r.chunkSize
      let checksumLen ← intOp (chunks * r.checksumSize)
      let size ← intOp (checksumLen + dataSize)
      let (buffer, r) ← { r with size := size }.readFully size
      let r := { r with buffer := buffer, lastSeqNo := header.proto.seqno.toInt }
      let expected ← intOp (4 + dataSize) >>= fun x => intOp (x + checksumLen)
      if header.packetLen.toInt ≠ expected then
        throw (.invalidPacket header.packetLen.toInt dataSize checksumLen)
      if r.verify then r.verifyChecksum dataSize chunks
      let pendingAhead ← int64Op (r.cursor - header.proto.offsetInBlock.toInt)
      let pendingAhead := if pendingAhead > 0 then pendingAhead else 0
      -- `position += pendingAhead` in `int64_t`, stored back in the `int` `position`
      let position ← int64Op (checksumLen + pendingAhead)
      pure ({ r with position := position.bmod (2 ^ 32) }, pendingAhead)
    else pure (r, 0)
  let reached ← int64Op (r.cursor + dataSize) >>= fun x => int64Op (x - pendingAhead)
  if reached ≥ r.endOffset then
    let (trailing, r) ← r.readTrailingEmptyPacket pb parse
    pure (if trailing then r.sendStatus else r)
  else pure r

/-- `read(buf, len)`: past `endOffset` nothing; otherwise a packet when the buffer is used up, then
a copy of `min(len, size - position)` bytes from `position`. -/
def read (r : RemoteBlockReader) (len : Int) :
    Except RemoteReadError (List UInt8 × RemoteBlockReader) :=
  let body : Except RemoteReadError (List UInt8 × RemoteBlockReader) := do
    let r ← if r.position ≥ r.size then r.readNextPacket pb parse else pure r
    let avail ← intOp (r.size - r.position)
    let todo := if len < avail then len else avail
    if todo < 0 ∨ r.position < 0 ∨ r.position + todo > r.buffer.length then throw .copyOutsideBuffer
    pure ((r.buffer.drop r.position.toNat).take todo.toNat,
      { r with position := r.position + todo, cursor := r.cursor + todo })
  if r.cursor ≥ r.endOffset then throw .readOverBlockEnd
  else body.mapError fun e => if e.isTimeoutOrNetwork then .failedToRead e else e

/-- `skip`'s loop `while (todo > 0)`, for at most `fuel` more rounds: past `endOffset` nothing; a
packet when the buffer is used up; then skip `min(size - position, todo)` bytes. -/
def skipLoop : Nat → RemoteBlockReader → Int → Except RemoteReadError RemoteBlockReader
  | fuel, r, todo =>
    if todo ≤ 0 then pure r
    else match fuel with
      | 0 => throw .outOfFuel
      | fuel + 1 => do
        if r.cursor ≥ r.endOffset then throw .skipOverBlockEnd
        let r ← if r.position ≥ r.size then r.readNextPacket pb parse else pure r
        let batch ← intOp (r.size - r.position)
        let batch := if batch < todo then batch else todo
        skipLoop fuel { r with position := r.position + batch, cursor := r.cursor + batch }
          (todo - batch)

/-- `skip(len)`. Each round skips at least one byte, or reads a packet header of 31 bytes, after
which a round may give back at most `2 ^ 31` bytes; the bound on the rounds covers that. -/
def skip (r : RemoteBlockReader) (len : Int) : Except RemoteReadError RemoteBlockReader :=
  (skipLoop pb parse (len.toNat + (r.stream.length + 2) * 2 ^ 32) r len).mapError
    fun e => if e.isTimeoutOrNetwork then .failedToRead e else e

/-- `RemoteBlockReader(eb, datanode, peerCache, start, len, token, clientName, verify, conf)`, on a
connection whose request goes out: the response is checked. -/
def new (stream : List UInt8) (start len : Int) (verify : Bool) :
    Except RemoteReadError RemoteBlockReader :=
  checkResponse parseResponse ⟨false, verify, 0, 0, 0, 0, start, len + start, -1, none, [], stream⟩

/-- A call on the reader, with the bytes it hands over: none for `skip`. -/
def apply (r : RemoteBlockReader) :
    BlockReaderCall → Except RemoteReadError (List UInt8 × RemoteBlockReader)
  | .read size => r.read pb parse size
  | .skip len => (r.skip pb parse len).map fun r => ([], r)

/-- Calls in turn, with their answers, up to the first exception. -/
def run (r : RemoteBlockReader) :
    List BlockReaderCall → List (Except RemoteReadError (List UInt8)) × RemoteBlockReader
  | [] => ([], r)
  | call :: calls =>
    match r.apply pb parse call with
    | .ok (bytes, r') => (.ok bytes :: (r'.run calls).1, (r'.run calls).2)
    | .error e => ([.error e], r)

end Model

/-! ## Reading from the stream -/

/-- **A response as the datanode sends it**: a varint of at most eight bytes with its length, which
is positive and at most 10 MiB, then the bytes that `parseResponse` parses as `resp`. -/
inductive Responds (parseResponse : List UInt8 → Option BlockOpResponseProto)
    (resp : BlockOpResponseProto) : List UInt8 → Prop
  | mk {lenBytes bytes : List UInt8} :
      varint32 lenBytes = some (UInt32.ofNat bytes.length, lenBytes.length) → lenBytes.length ≤ 8 →
      0 < bytes.length → bytes.length ≤ 10 * 1024 * 1024 → parseResponse bytes = some resp →
      Responds parseResponse resp (lenBytes ++ bytes)

section Spec

variable {parseResponse : List UInt8 → Option BlockOpResponseProto}
  {pb : PacketHeaderProtobuf} {parse : List UInt8 → Option PacketHeaderProto} {r : RemoteBlockReader}

/-- A step that succeeds hands its value on; unfolding only these binds keeps the terms small. -/
theorem ok_bind {α β ε : Type} (a : α) (f : α → Except ε β) : Except.bind (.ok a) f = f a := rfl

theorem readFully_append {bs rest : List UInt8} (h : r.stream = bs ++ rest) :
    r.readFully bs.length = .ok (bs, { r with stream := rest }) := by
  simp [readFully, h, pure, Except.pure]

/-- The length of a response, read as `readVarint32` reads it. -/
theorem readVarint32_responds {lenBytes bytes rest : List UInt8}
    (hdec : varint32 lenBytes = some (UInt32.ofNat bytes.length, lenBytes.length))
    (hlen : lenBytes.length ≤ 8) (hsize : bytes.length ≤ 10 * 1024 * 1024)
    (h : r.stream = lenBytes ++ bytes ++ rest) :
    r.readVarint32 = .ok (bytes.length, { r with stream := bytes ++ rest }) := by
  have htake : r.stream.take 8 = lenBytes.take lenBytes.length ++ (bytes ++ rest).take (8 - lenBytes.length) := by
    rw [h, List.append_assoc, List.take_append, List.take_of_length_le hlen, List.take_length]
  have hdec' := varint32_decodesPrefix.extend _ _ _ ((bytes ++ rest).take (8 - lenBytes.length)) hdec
  have hval : ((UInt32.ofNat bytes.length).toNat : Int).bmod (2 ^ 32) = bytes.length := by
    rw [UInt32.toNat_ofNat', Nat.mod_eq_of_lt (by omega)]
    exact Int.bmod_eq_of_le (by omega) (by omega)
  rw [readVarint32, htake, hdec']
  simp only [hval, h, List.append_assoc, List.drop_left, pure, Except.pure]

/-- **The response checked.** A successful response with `CHECKSUM_CRC32C` (`crc`) or
`CHECKSUM_NULL`, bytes per checksum `c` that fit an `int`, and a first chunk offset in
`(cursor - c, cursor]` passes `checkResponse`, which takes the chunk and checksum sizes from it and
stops verifying for `CHECKSUM_NULL`. -/
theorem checkResponse_ok {pre rest : List UInt8} {resp : BlockOpResponseProto}
    (hpre : Responds parseResponse resp pre) (hstream : r.stream = pre ++ rest)
    (hstatus : resp.status = .success) {info : ReadOpChecksumInfoProto}
    (hinfo : resp.readOpChecksumInfo = some info) {crc : Bool}
    (htype : info.checksum.type = if crc then .crc32c else .null) {c fco : Nat}
    (hbpc : info.checksum.bytesPerChecksum.toNat = c) (hoffset : info.chunkOffset.toNat = fco)
    (hc : c < 2 ^ 31) (hfco : (fco : Int) ≤ r.cursor) (hcur : r.cursor < fco + c)
    (hcur' : r.cursor < 2 ^ 63) :
    r.checkResponse parseResponse = .ok { r with
      stream := rest, chunkSize := c, checksumSize := if crc then 4 else 0
      verify := r.verify && crc } := by
  cases hpre with
  | @mk lenBytes bytes hdec hlen hpos hsize hparse =>
  have hvar := readVarint32_responds hdec hlen hsize hstream
  have hfull := readFully_append (r := { r with stream := bytes ++ rest }) rfl
  have hc' : (c : Int).bmod (2 ^ 32) = c := Int.bmod_eq_of_le (by omega) (by omega)
  have hfco' : (fco : Int).bmod (2 ^ 64) = fco := Int.bmod_eq_of_le (by omega) (by omega)
  have hsize' : ¬ ((bytes.length : Int) ≤ 0 ∨ (bytes.length : Int) > 10 * 1024 * 1024) := by omega
  have hc0 : ¬ (c : Int) < 0 := by omega
  have hfco'' : ¬ ((fco : Int) < 0 ∨ (fco : Int) > r.cursor ∨ (fco : Int) ≤ r.cursor - c) := by
    omega
  simp only [checkResponse, hvar, hfull, bind, ok_bind, hsize', if_false, hparse, hstatus,
    ne_eq, not_true_eq_false, hinfo, Option.getD_some, hbpc, hoffset, hc', hc0, hfco', htype]
  cases crc <;> simp only [Bool.false_eq_true, if_false, if_true, Bool.and_false, Bool.and_true,
    hfco'', pure, Except.pure, ok_bind]

/-- The header is read back from the bytes `writeInBuffer` writes, after a header that was not the
last packet's. -/
theorem readPacketHeader_writeInBuffer {h : PacketHeader} {rest : List UInt8}
    (hlast : r.lastHeaderIsLast = false) (hstream : r.stream = h.writeInBuffer pb 31 ++ rest)
    (hparse : parse (pb.SerializeToArray h.proto) = some h.proto) (hlen : 4 ≤ h.packetLen.toInt) :
    r.readPacketHeader pb parse = .ok (h, { r with stream := rest }) := by
  have hsize : PacketHeader.GetPkgHeaderSize pb = 31 := PacketHeader.GetPkgHeaderSize_eq pb
  have hread : r.readFully 31 = .ok (h.writeInBuffer pb 31, { r with stream := rest }) := by
    simpa using readFully_append hstream
  have hfields : PacketHeader.readFields parse (h.writeInBuffer pb 31) 31 = .ok h := by
    simpa using PacketHeader.readFields_writeInBuffer pb hparse hlen (le_refl 31) []
  simp only [readPacketHeader, hlast, hsize, hread, Bool.false_eq_true, if_false, bind, ok_bind,
    show (31 : Int).toNat = 31 from rfl, hfields, Except.mapError, pure, Except.pure]

end Spec

/-! ## Packets -/

section Verify

variable {r : RemoteBlockReader} {data : List UInt8} {c : Nat}

/-- The checksum of chunk `i` of a packet's data stands at `4 * i` in front of it. -/
theorem metaChecksums_checksum (data : List UInt8) {i : Nat} (hi : i < (data.length + c - 1) / c) :
    ((metaChecksums c data ++ data).drop (i * 4)).take 4 =
      Endian.beBytes (crc32c (chunkOf c data i)).toNat 4 := by
  have hlen := length_metaChecksums c data
  rw [List.drop_append_of_le_length (by omega),
    List.take_append_of_le_length (by rw [List.length_drop]; omega), Nat.mul_comm]
  exact Chunks.drop_take_flatMap_range _ (fun _ => Endian.length_beBytes _ _) hi

/-- The loop of `verifyChecksum` over a packet with the checksums of its chunks, from chunk `i` with
`dataSize` the bytes from there on. -/
theorem verifyChunks_metaChecksums (hc : 0 < c) (hcs : r.chunkSize = c) (hsum : r.checksumSize = 4)
    (hbuf : r.buffer = metaChecksums c data ++ data) :
    ∀ (k i : Nat) (dataSize : Int), i + k = (data.length + c - 1) / c →
      (0 < k → dataSize = data.length - i * c) → r.verifyChunks data i dataSize k = .ok ()
  | 0, _, _, _, _ => rfl
  | k + 1, i, dataSize, hik, hsize => by
    have hi : i < (data.length + c - 1) / c := by omega
    have hic : i * c < data.length := mul_lt_of_lt_chunks hc hi
    have hsize' := hsize (Nat.succ_pos k)
    have hchunk : (data.drop (i * r.chunkSize.toNat)).take (min r.chunkSize dataSize).toNat =
        chunkOf c data i := by
      rw [chunkOf, hcs, Int.toNat_natCast, List.take_eq_take_iff, List.length_drop]
      omega
    have hmatch : (crc32c (chunkOf c data i)).toNat =
        Endian.beDecode ((r.buffer.drop (i * r.checksumSize.toNat)).take 4) := by
      rw [hbuf, hsum, show (4 : Int).toNat = 4 from rfl, metaChecksums_checksum data hi,
        Endian.beDecode_beBytes _ _ (by simpa using (crc32c _).isLt)]
    rw [verifyChunks]
    simp only [hchunk, ← hmatch, ne_eq, not_true_eq_false, if_false]
    refine verifyChunks_metaChecksums hc hcs hsum hbuf k (i + 1) _ (by omega) fun hk => ?_
    -- a chunk after this one is whole, so this one is too
    have hnext : (i + 1) * c < data.length := mul_lt_of_lt_chunks hc (by omega)
    have hstep : ((i + 1 : Nat) : Int) * c = i * c + c := by push_cast; rw [Int.add_mul, Int.one_mul]
    rw [hcs]
    omega

/-- **Correct checksums verify.** With the checksums of its chunks of `c` bytes in front of the
packet's data, `verifyChecksum` finds every chunk right. -/
theorem verifyChecksum_metaChecksums (hc : 0 < c) (hcs : r.chunkSize = c) (hsum : r.checksumSize = 4)
    (hbuf : r.buffer = metaChecksums c data ++ data) :
    r.verifyChecksum data.length (((data.length + c - 1) / c : Nat) : Int) = .ok () := by
  have hdrop : r.buffer.drop ((((data.length + c - 1) / c : Nat) : Int) * r.checksumSize).toNat =
      data := by
    have hlen := length_metaChecksums c data
    rw [hbuf, hsum, show ((((data.length + c - 1) / c : Nat) : Int) * 4).toNat =
      (metaChecksums c data).length by omega, List.drop_left]
  rw [verifyChecksum, hdrop, Int.toNat_natCast]
  exact verifyChunks_metaChecksums hc hcs hsum hbuf _ 0 _ (Nat.zero_add _) fun _ => by simp

end Verify

section Packet

variable {pb : PacketHeaderProtobuf} {parse : List UInt8 → Option PacketHeaderProto}
  {r : RemoteBlockReader}

/-- **A data packet.** After a header that was not the last one's, a packet whose header passes the
sanity check, with `dataLen > 0` bytes of data behind the checksums of its chunks, and lengths that
fit an `int`, is read into the buffer, verified, and `position` put past the checksums and past the
`pendingAhead` bytes before the cursor; when it reaches `endOffset`, the header after it is read
too. -/
theorem readNextPacket_data {h : PacketHeader} {sums data rest : List UInt8}
    (hlast : r.lastHeaderIsLast = false)
    (hstream : r.stream = h.writeInBuffer pb 31 ++ (sums ++ data) ++ rest)
    (hparse : parse (pb.SerializeToArray h.proto) = some h.proto) (hsane : h.sanityCheck r.lastSeqNo = true)
    (hd : h.proto.dataLen.toInt = data.length) (hd0 : 0 < data.length) {c : Nat}
    (hc : r.chunkSize = c) (hc0 : 0 < c) (hdc : data.length + c < 2 ^ 31)
    (hsums : sums.length = (data.length + c - 1) / c * r.checksumSize.toNat)
    (hcs : 0 ≤ r.checksumSize) (hpl : h.packetLen.toInt = 4 + data.length + sums.length)
    (hverify : r.verify = true → r.checksumSize = 4 ∧ sums = metaChecksums c data)
    (hcur : 0 ≤ r.cursor) (hoff : 0 ≤ h.proto.offsetInBlock.toInt)
    (hcur' : r.cursor + sums.length + data.length < 2 ^ 63) :
    r.readNextPacket pb parse =
      let pendingAhead := if r.cursor - h.proto.offsetInBlock.toInt > 0 then
        r.cursor - h.proto.offsetInBlock.toInt else 0
      let r' := { r with
        stream := rest, lastHeader := some h, size := sums.length + data.length
        buffer := sums ++ data, lastSeqNo := h.proto.seqno.toInt
        position := ((sums.length : Int) + pendingAhead).bmod (2 ^ 32) }
      if r.cursor + data.length - pendingAhead ≥ r.endOffset then do
        let (trailing, r'') ← r'.readTrailingEmptyPacket pb parse
        pure (if trailing then r''.sendStatus else r'')
      else .ok r' := by
  have hhdr := readPacketHeader_writeInBuffer (r := r) hlast
    (by rw [hstream, List.append_assoc]) hparse (by omega)
  have hpl' := h.packetLen.toInt_lt
  have hoff' := h.proto.offsetInBlock.toInt_lt
  have hchunks : ((data.length : Int) + c - 1).tdiv c = (((data.length + c - 1) / c : Nat) : Int) := by
    rw [Int.tdiv_eq_ediv_of_nonneg (by omega), Int.natCast_ediv]
    congr 1
    omega
  have hsums' : (((data.length + c - 1) / c : Nat) : Int) * r.checksumSize = sums.length := by
    rw [hsums]
    push_cast
    rw [Int.toNat_of_nonneg hcs]
  have hfull : ∀ r' : RemoteBlockReader, r'.stream = sums ++ data ++ rest →
      r'.readFully ((sums.length : Int) + data.length) =
        .ok (sums ++ data, { r' with stream := rest }) := by
    intro r' h'
    simpa using readFully_append h'
  -- every `int` and `int64_t` computation stays in range
  have hc0' : ¬ (c : Int) = 0 := by omega
  have hsum : intOp ((data.length : Int) + c) = .ok ((data.length : Int) + c) :=
    intOp_ok (by omega) (by omega)
  have hn : intOp ((data.length : Int) + c - 1) = .ok ((data.length : Int) + c - 1) :=
    intOp_ok (by omega) (by omega)
  have hcl : intOp (sums.length : Int) = .ok (sums.length : Int) := intOp_ok (by omega) (by omega)
  have hsize : intOp ((sums.length : Int) + data.length) = .ok ((sums.length : Int) + data.length) :=
    intOp_ok (by omega) (by omega)
  have hexp : intOp (4 + (data.length : Int)) = .ok (4 + (data.length : Int)) :=
    intOp_ok (by omega) (by omega)
  have hexp' : intOp (4 + (data.length : Int) + sums.length) = .ok (4 + (data.length : Int) + sums.length) :=
    intOp_ok (by omega) (by omega)
  have hahead : int64Op (r.cursor - h.proto.offsetInBlock.toInt) =
      .ok (r.cursor - h.proto.offsetInBlock.toInt) :=
    int64Op_ok (by omega) (by omega)
  have hpos : int64Op ((sums.length : Int) + if 0 < r.cursor - h.proto.offsetInBlock.toInt then
      r.cursor - h.proto.offsetInBlock.toInt else 0) = .ok ((sums.length : Int) +
        if 0 < r.cursor - h.proto.offsetInBlock.toInt then r.cursor - h.proto.offsetInBlock.toInt else 0) :=
    int64Op_ok (by split <;> omega) (by split <;> omega)
  have hreach : int64Op (r.cursor + data.length) = .ok (r.cursor + data.length) :=
    int64Op_ok (by omega) (by omega)
  have hreach' : int64Op (r.cursor + data.length - if 0 < r.cursor - h.proto.offsetInBlock.toInt then
      r.cursor - h.proto.offsetInBlock.toInt else 0) = .ok (r.cursor + data.length -
        if 0 < r.cursor - h.proto.offsetInBlock.toInt then r.cursor - h.proto.offsetInBlock.toInt else 0) :=
    int64Op_ok (by split <;> omega) (by split <;> omega)
  -- a verifying reader finds the checksums right, so both branches of `if (verify)` go on alike
  have hcheck : r.verify = true → ∀ v : Bool, ({ r with
      verify := v, chunkSize := c, size := sums.length + data.length
      lastSeqNo := h.proto.seqno.toInt, lastHeader := some h, buffer := sums ++ data
      stream := rest } : RemoteBlockReader).verifyChecksum
        data.length ((data.length + c - 1) / c : Nat) = .ok () := by
    intro hv _
    obtain ⟨hsum, hmeta⟩ := hverify hv
    exact verifyChecksum_metaChecksums hc0 rfl hsum (by rw [hmeta])
  simp only [readNextPacket, hhdr, bind, ok_bind, hsane, Bool.not_true, Bool.false_eq_true, if_false,
    hd, gt_iff_lt, Nat.cast_pos, hd0, if_true, hc, hsum, hn, hc0', hchunks, hsums']
  -- from here on `rw`: `simp` rewriting these steps under the binders builds a proof term too deep
  -- for the kernel
  rw [hcl, ok_bind, hsize, ok_bind, hfull _ rfl, ok_bind, hexp, ok_bind, hexp', ok_bind, hpl,
    if_neg (not_not.mpr rfl)]
  dsimp only
  rw [hahead, ok_bind, hpos, ok_bind]
  simp only [pure, Except.pure, ok_bind, hreach, hreach']
  by_cases hv : r.verify = true
  · rw [if_pos hv, hcheck hv, ok_bind]
  · rw [if_neg hv]

end Packet

/-! ## A packet behind the cursor

`readNextPacket` puts `position` past `pendingAhead = cursor - offsetInBlock` bytes of the packet's
data, and never compares it with `dataLen`. A packet that ends before the cursor leaves `position`
past `size`, and `read` then copies `size - position < 0` bytes. -/

section Behind

variable {parseResponse : List UInt8 → Option BlockOpResponseProto} {pb : PacketHeaderProtobuf}
  {parse : List UInt8 → Option PacketHeaderProto}

theorem read_packet_behind_cursor {pre data rest : List UInt8} {resp : BlockOpResponseProto}
    {info : ReadOpChecksumInfoProto} {h : PacketHeader} {c fco : Nat} {start len n : Int}
    {verify : Bool} (hpre : Responds parseResponse resp pre) (hstatus : resp.status = .success)
    (hinfo : resp.readOpChecksumInfo = some info) (htype : info.checksum.type = .null)
    (hbpc : info.checksum.bytesPerChecksum.toNat = c) (hoffset : info.chunkOffset.toNat = fco)
    (hc : 0 < c) (hfco : (fco : Int) ≤ start) (hstart : start < fco + c) (hstart' : start < 2 ^ 31)
    (hlen : 0 < len) (hparse : parse (pb.SerializeToArray h.proto) = some h.proto)
    (hd : h.proto.dataLen.toInt = data.length) (hd0 : 0 < data.length)
    (hdc : data.length + c < 2 ^ 31) (hlast : h.proto.lastPacketInBlock = false)
    (hseqno : h.proto.seqno.toInt = 0) (hpl : h.packetLen.toInt = 4 + data.length)
    (hoff : 0 ≤ h.proto.offsetInBlock.toInt)
    (hbehind : h.proto.offsetInBlock.toInt + data.length < start) (hn : 0 < n) :
    ∃ r, new parseResponse (pre ++ h.writeInBuffer pb 31 ++ data ++ rest) start len verify = .ok r ∧
      r.read pb parse n = .error .copyOutsideBuffer := by
  have hstream : pre ++ h.writeInBuffer pb 31 ++ data ++ rest =
      pre ++ (h.writeInBuffer pb 31 ++ ([] ++ data) ++ rest) := by
    simp only [List.append_assoc, List.nil_append]
  have htype' : info.checksum.type = if false then .crc32c else .null := htype
  have hresp := checkResponse_ok
    (r := ⟨false, verify, 0, 0, 0, 0, start, len + start, -1, none, [],
      pre ++ h.writeInBuffer pb 31 ++ data ++ rest⟩)
    hpre hstream hstatus hinfo htype' hbpc hoffset (by omega) hfco hstart
    (show start < 2 ^ 63 by omega)
  refine ⟨_, hresp, ?_⟩
  have hnext := readNextPacket_data (r := { (⟨false, verify, 0, 0, 0, 0, start,
      len + start, -1, none, [], pre ++ h.writeInBuffer pb 31 ++ data ++ rest⟩ : RemoteBlockReader) with
      stream := h.writeInBuffer pb 31 ++ ([] ++ data) ++ rest, chunkSize := c
      checksumSize := if false = true then 4 else 0, verify := verify && false })
    rfl rfl hparse (PacketHeader.sanityCheck_data (by omega) hlast (by rw [hseqno]; rfl)) hd hd0 rfl hc
    hdc (by simp) (by simp) (by simpa using hpl) (by simp) (by dsimp only; omega) hoff
    (by dsimp only; rw [List.length_nil]; omega)
  dsimp only at hnext
  -- the packet ends before the cursor: it does not reach `endOffset`, and `pendingAhead` is more than
  -- its data
  have hahead : start - h.proto.offsetInBlock.toInt > 0 := by omega
  have hposition : (start - h.proto.offsetInBlock.toInt).bmod (2 ^ 32) =
      start - h.proto.offsetInBlock.toInt :=
    Int.bmod_eq_of_le (by omega) (by omega)
  simp only [Bool.false_eq_true, if_false, List.nil_append, List.length_nil, Nat.cast_zero,
    Int.zero_add] at hnext
  rw [if_pos hahead, if_neg (show ¬ start + data.length - (start - h.proto.offsetInBlock.toInt) ≥
    len + start by omega), hposition] at hnext
  have havail : intOp (data.length - (start - h.proto.offsetInBlock.toInt)) =
      .ok (data.length - (start - h.proto.offsetInBlock.toInt)) :=
    intOp_ok (by omega) (by omega)
  rw [read]
  simp only [Bool.false_eq_true, if_false, List.nil_append]
  rw [if_neg (show ¬ start ≥ len + start by omega), if_pos (le_refl 0), hnext]
  simp only [bind, ok_bind]
  rw [havail, ok_bind]
  -- `todo = size - position < 0`: the copy has a negative length
  rw [if_neg (show ¬ n < data.length - (start - h.proto.offsetInBlock.toInt) by omega),
    if_pos (.inl (by omega))]
  rfl

/-- A datanode answers a read of `[1000, 1024)` with `CHECKSUM_NULL` over chunks of 512 bytes from
`firstChunkOffset` 512, then sends 512 bytes from offset 0: the first `read` copies `-488` bytes. -/
theorem read_packet_behind_cursor_at_offset_zero :
    ∃ r, new (fun _ => some ⟨.success, none, some ⟨⟨.null, 512⟩, 512⟩⟩)
        ([1] ++ [0] ++ (PacketHeader.new 516 0 0 false 512).writeInBuffer PacketHeaderProtobuf.wire 31 ++
          List.replicate 512 0 ++ []) 1000 24 true = .ok r ∧
      r.read PacketHeaderProtobuf.wire PacketHeaderProto.parseCanonical 1 = .error .copyOutsideBuffer :=
  read_packet_behind_cursor (@Responds.mk _ _ [1] [0] (by decide) (by decide) (by decide)
    (by decide) rfl) rfl rfl rfl rfl rfl (by decide) (by decide) (by decide) (by decide)
    (by decide) (PacketHeaderProto.parseCanonical_wire _)
    (by rw [List.length_replicate]; decide) (by rw [List.length_replicate]; decide)
    (by rw [List.length_replicate]; decide) rfl (by decide) (by rw [List.length_replicate]; decide)
    (by decide) (by rw [List.length_replicate]; decide) (by decide)

end Behind

end RemoteBlockReader

end HdfsClient
