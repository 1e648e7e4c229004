import HdfsClient.Common.Crc32c
import Mathlib.Data.List.Basic

/-!
# Writing a file: chunks, packets and blocks

`OutputStreamImpl` (`client/OutputStreamImpl.cpp`) cuts the bytes appended to a file into chunks
of `chunkSize` bytes, each with its CRC32C, and gathers the chunks into packets that it hands to
the pipeline of the current block. The bytes of a chunk wait in `buffer` until it is full, and the
running checksum covers them; an append of a whole chunk at a chunk boundary bypasses the buffer.
`flush` and `sync` send the partial chunk too, without moving `bytesWritten`, so that the chunk is
sent again, whole, once it is full. When `bytesWritten` reaches `blockSize`, `closePipeline` ends
the block. An append to an existing file takes the block size and the length of the last block
from the namenode, and first fills the free part of the last chunk. Packets come from a
`PacketPool`, to which the pipeline gives back the packets it has had acknowledged: a packet taken
from the pool is reset to the current sizes, and keeps its buffer when that is larger.

The model records what the stream hands to its pipelines (`PipelineOp`), in order, and leaves the
pipeline itself to `Client/Pipeline.lean`.
-/

namespace HdfsClient

/-- The settings of `SessionConfig` the stream reads: `output.default.chunksize`,
`output.default.packetsize` and `dfs.default.blocksize`. -/
structure SessionConfig where
  defaultChunkSize : Nat
  defaultPacketSize : Int
  defaultBlockSize : Nat
  deriving DecidableEq, Repr

/-- `PacketHeader::GetPkgHeaderSize()`: the header protobuf, whose four fields have fixed lengths
(25 bytes with their tags), the packet length (four bytes) and the header length (two bytes).
`PacketHeader.GetPkgHeaderSize_eq` computes it from the header's encoding. -/
def pkgHeaderSize : Int := 31

/-- `checksumSize`: a CRC32C takes four bytes. -/
def checksumSize : Int := 4

/-- CRC32C of a list of bytes, as the stream's `checksum` computes it from a reset state. -/
def crc32c (bs : List UInt8) : BitVec 32 := (SWCrc32c.init.update bs).getValue

/-- A packet of the stream (`Packet`): the size of its buffer, its most chunks, its chunks so far,
its offset in the block and seqno, and the checksums and data added to it. -/
structure OutPacket where
  pktSize : Int
  maxChunks : Nat
  numChunks : Nat
  offsetInBlock : Nat
  seqno : Nat
  checksums : List (BitVec 32)
  data : List UInt8
  deriving DecidableEq, Repr

/-- How the stream fails, by the text of the exception the source throws. -/
inductive OutputError
  /-- "packet size %d is less than the chunk size %d." -/
  | packetSizeLessThanChunkSize
  /-- "block size %d is not the multiply of chunk size %d." -/
  | blockSizeNotMultipleOfChunkSize
  /-- "the last block for file %s is full." -/
  | lastBlockFull
  /-- "failed to add checksum into packet, checksum is too large" -/
  | checksumTooLarge
  /-- "failed add data to packet, packet size is too small" -/
  | packetSizeTooSmall
  /-- The model's fuel. -/
  | outOfFuel
  deriving DecidableEq, Repr

namespace OutPacket

/-- `Packet(pktSize, chunksPerPkt, offsetInBlock, seqno, checksumSize)`: an empty packet. -/
def new (pktSize : Int) (chunksPerPkt : Nat) (offsetInBlock seqno : Nat) : OutPacket :=
  ⟨pktSize, chunksPerPkt, 0, offsetInBlock, seqno, [], []⟩

/-- `reset(pktSize, chunksPerPkt, offsetInBlock, seqno, checksumSize)`: the packet empty again, for
the new sizes; its buffer grows to `pktSize` but never shrinks. -/
def reset (p : OutPacket) (pktSize : Int) (chunksPerPkt : Nat) (offsetInBlock seqno : Nat) :
    OutPacket :=
  ⟨if pktSize > p.pktSize then pktSize else p.pktSize, chunksPerPkt, 0, offsetInBlock, seqno, [], []⟩

/-- `addChecksum`: the checksum goes after those already there, inside the room for `maxChunks`
of them. -/
def addChecksum (p : OutPacket) (c : BitVec 32) : Except OutputError OutPacket :=
  let checksumPos := pkgHeaderSize + checksumSize * p.checksums.length
  let dataStart := pkgHeaderSize + p.maxChunks * checksumSize
  if checksumPos + 4 > dataStart then .error .checksumTooLarge
  else .ok { p with checksums := p.checksums ++ [c] }

/-- `addData`: the data goes after that already there, inside the packet's buffer. -/
def addData (p : OutPacket) (buf : List UInt8) : Except OutputError OutPacket :=
  let dataPos := pkgHeaderSize + p.maxChunks * checksumSize + p.data.length
  if buf.length + dataPos > p.pktSize then .error .packetSizeTooSmall
  else .ok { p with data := p.data ++ buf }

/-- `isFull()`. -/
def isFull (p : OutPacket) : Bool := decide (p.maxChunks ≤ p.numChunks)

end OutPacket

namespace PacketPool

/-- `PacketPool::getPacket(pktSize, chunksPerPkt, offsetInBlock, seqno, checksumSize)`: the oldest
packet of the pool, reset, or a new one when the pool is empty; and what is left of the pool. -/
def getPacket (packets : List OutPacket) (pktSize : Int) (chunksPerPkt offsetInBlock seqno : Nat) :
    OutPacket × List OutPacket :=
  match packets with
  | [] => (OutPacket.new pktSize chunksPerPkt offsetInBlock seqno, [])
  | p :: rest => (p.reset pktSize chunksPerPkt offsetInBlock seqno, rest)

/-- `PacketPool::relesePacket(packet)`: the packet goes back to the pool for reuse, unless the pool
holds `maxSize` packets already. -/
def relesePacket (maxSize : Int) (packets : List OutPacket) (packet : OutPacket) :
    List OutPacket :=
  if (packets.length : Int) ≥ maxSize then packets else packets ++ [packet]

end PacketPool

/-- What the stream hands to a pipeline: a packet to `send`, or the last packet of the block to
`close`. -/
inductive PipelineOp
  | send (p : OutPacket)
  | close (p : OutPacket)
  deriving DecidableEq, Repr

namespace PipelineOp

/-- The packet handed over. -/
def packet : PipelineOp → OutPacket
  | .send p => p
  | .close p => p

/-- Whether the packet closes the block. -/
def isClose : PipelineOp → Bool
  | .send _ => false
  | .close _ => true

/-- The block offsets the packet's data covers, and whether it closes the block. -/
def extent (op : PipelineOp) : Nat × Nat × Bool :=
  (op.packet.offsetInBlock, op.packet.offsetInBlock + op.packet.data.length, op.isClose)

end PipelineOp

/-- The stream: the chunk and packet sizes, `buffer` (of `buffer.size()` bytes) and `position`,
`blockSize`, the counters `bytesWritten`, `cursor`, `lastFlushed` and `nextSeqNo`, the running
`checksum`, `currentPacket`, the packets its `PacketPool` keeps for reuse, oldest first (`packets`),
whether a `pipeline` is open, and what the stream has handed to its pipelines (`sent`). The pool's
`maxSize` is read by `relesePacket` only, which the pipeline calls. -/
structure OutputStreamImpl where
  isAppend : Bool
  chunkSize : Nat
  packetSize : Int
  chunksPerPacket : Nat
  buffer : List UInt8
  position : Nat
  blockSize : Nat
  bytesWritten : Nat
  cursor : Nat
  lastFlushed : Nat
  nextSeqNo : Nat
  checksum : SWCrc32c
  currentPacket : Option OutPacket
  packets : List OutPacket
  pipeline : Bool
  sent : List PipelineOp

/-- `std::vector::resize`: keep the first `n` bytes, and pad with zeros. -/
def resize (l : List UInt8) (n : Nat) : List UInt8 := l.take n ++ List.replicate (n - l.length) 0

/-- `memcpy(&buffer[position], chunk, chunk.size())`. -/
def overwrite (l : List UInt8) (pos : Nat) (chunk : List UInt8) : List UInt8 :=
  l.take pos ++ chunk ++ l.drop (pos + chunk.length)

namespace OutputStreamImpl

variable (conf : SessionConfig)

/-- The stream before `openInternal` fills it in. -/
def empty : OutputStreamImpl :=
  ⟨false, 0, 0, 0, [], 0, 0, 0, 0, 0, 0, SWCrc32c.init, none, [], false, []⟩

/-- `computePacketChunkSize()`: as many chunks, with their checksums, as fit in `packetSize` after
the header, at least one; `buffer` holds one chunk. -/
def computePacketChunkSize (s : OutputStreamImpl) : OutputStreamImpl :=
  let chunkSizeWithChecksum : Int := s.chunkSize + checksumSize
  let chunksPerPacket :=
    (s.packetSize - pkgHeaderSize + chunkSizeWithChecksum - 1).tdiv chunkSizeWithChecksum
  let chunksPerPacket := if chunksPerPacket > 1 then chunksPerPacket else 1
  { s with
    chunksPerPacket := chunksPerPacket.toNat
    packetSize := chunksPerPacket * chunkSizeWithChecksum + pkgHeaderSize
    buffer := resize s.buffer s.chunkSize }

/-- What the namenode reports to `append`: the length of the last block when it is not full, and
the file's block size and length. -/
structure AppendInfo where
  lastBlock : Option Nat
  blockSize : Nat
  length : Nat
  deriving DecidableEq, Repr

/-- `initAppend()`: take the block size and the length of the file; to append to a partial last
block, fill the free part of its last chunk in a packet of its own, or make the packets no larger
than the free part of the block. -/
def initAppend (s : OutputStreamImpl) (info : AppendInfo) : Except OutputError OutputStreamImpl :=
  let s := { s with blockSize := info.blockSize, cursor := info.length }
  match info.lastBlock with
  | none => .ok s.computePacketChunkSize
  | some numBytes =>
    let s := { s with isAppend := true, bytesWritten := numBytes }
    let usedInLastBlock := info.length % s.blockSize
    let freeInLastBlock := s.blockSize - usedInLastBlock
    if freeInLastBlock = s.blockSize then .error .lastBlockFull
    else
      let usedInCksum := s.cursor % s.chunkSize
      let freeInCksum := s.chunkSize - usedInCksum
      let s := if usedInCksum > 0 ∧ freeInCksum > 0 then { s with packetSize := 0, chunkSize := freeInCksum }
        else { s with packetSize := min s.packetSize freeInLastBlock }
      .ok s.computePacketChunkSize

/-- How the file is opened: created, or appended to with what the namenode reports. -/
inductive OpenMode
  | create
  | append (info : AppendInfo)
  deriving DecidableEq, Repr

/-- `openInternal`: the block size asked for, or the default one; the default chunk and packet
sizes; the checks of the packet and block sizes; then `initAppend` or `create`. -/
def openInternal (mode : OpenMode) (blockSize : Nat) : Except OutputError OutputStreamImpl :=
  let s := { empty with
    blockSize := if blockSize = 0 then conf.defaultBlockSize else blockSize
    chunkSize := conf.defaultChunkSize
    packetSize := conf.defaultPacketSize }
  if s.packetSize < s.chunkSize then .error .packetSizeLessThanChunkSize
  -- the check is made on the block size asked for, before `initAppend` replaces it
  else if s.blockSize % s.chunkSize ≠ 0 then .error .blockSizeNotMultipleOfChunkSize
  else
    match mode with
    | .append info => s.initAppend info
    | .create => .ok s.computePacketChunkSize

/-- `appendChunkToPacket(buf, size)`: a packet from the pool at `bytesWritten` if there is none,
then the running checksum and the chunk. -/
def appendChunkToPacket (s : OutputStreamImpl) (buf : List UInt8) :
    Except OutputError OutputStreamImpl :=
  let (packet, s) := match s.currentPacket with
    | some p => (p, s)
    | none =>
      let r := PacketPool.getPacket s.packets s.packetSize s.chunksPerPacket s.bytesWritten s.nextSeqNo
      (r.1, { s with nextSeqNo := s.nextSeqNo + 1, packets := r.2 })
  (packet.addChecksum s.checksum.getValue).bind fun packet =>
    (packet.addData buf).map fun packet =>
      { s with currentPacket := some { packet with numChunks := packet.numChunks + 1 } }

/-- `sendPacket(currentPacket)`: set up the pipeline if there is none, and hand it the packet. -/
def sendPacket (s : OutputStreamImpl) (p : OutPacket) : OutputStreamImpl :=
  { s with pipeline := true, sent := s.sent ++ [.send p], currentPacket := none }

/-- `closePipeline()`: send the current packet, close the pipeline with an empty last packet at
`bytesWritten`, and start the next block. -/
def closePipeline (s : OutputStreamImpl) : OutputStreamImpl :=
  if s.pipeline = false then s
  else
    let s := match s.currentPacket with
      | some p => s.sendPacket p
      | none => s
    let last :=
      PacketPool.getPacket s.packets s.packetSize s.chunksPerPacket s.bytesWritten s.nextSeqNo
    { s with
      nextSeqNo := s.nextSeqNo + 1
      packets := last.2
      sent := s.sent ++ [.close last.1]
      currentPacket := none
      pipeline := false
      bytesWritten := 0 }

/-- One chunk's worth of `appendInternal`, `batch` bytes of `chunk`: past the buffer when it is
empty and a whole chunk is to come, else into the buffer, which goes out when full. -/
def appendBatch (s : OutputStreamImpl) (chunk : List UInt8) (bypass : Bool) :
    Except OutputError OutputStreamImpl :=
  if bypass then
    (appendChunkToPacket { s with checksum := s.checksum.update chunk } chunk).map
      fun (s : OutputStreamImpl) =>
        { s with bytesWritten := s.bytesWritten + chunk.length, checksum := s.checksum.reset }
  else
    let s := { s with
      checksum := s.checksum.update chunk
      buffer := overwrite s.buffer s.position chunk
      position := s.position + chunk.length }
    if s.position = s.buffer.length then
      (s.appendChunkToPacket s.buffer).map fun s =>
        { s with
          bytesWritten := s.bytesWritten + s.buffer.length
          checksum := s.checksum.reset
          position := 0 }
    else .ok s

/-- After the first packet of an append, the default chunk and packet sizes come back. -/
def restoreDefaults (s : OutputStreamImpl) : OutputStreamImpl :=
  { s with
    isAppend := false
    chunkSize := conf.defaultChunkSize
    packetSize := conf.defaultPacketSize }.computePacketChunkSize

/-- After a batch: a full packet, or one that reaches the end of the block, goes out; the first
packet of an append brings back the default sizes; the end of the block closes the pipeline. -/
def afterBatch (s : OutputStreamImpl) : OutputStreamImpl :=
  match s.currentPacket with
  | some p =>
    if p.isFull ∨ s.bytesWritten = s.blockSize then
      let s := s.sendPacket p
      let s := if s.isAppend then restoreDefaults conf s else s
      if s.bytesWritten = s.blockSize then s.closePipeline else s
    else s
  | none => s

/-- The loop of `appendInternal` over the `todo` last bytes of `buf`. -/
def appendLoop (buf : List UInt8) : Nat → Nat → OutputStreamImpl →
    Except OutputError OutputStreamImpl
  | 0, _, _ => .error .outOfFuel
  | fuel + 1, todo, s =>
    if todo = 0 then .ok s
    else
      let batch := min (s.buffer.length - s.position) todo
      let chunk := (buf.drop (buf.length - todo)).take batch
      (s.appendBatch chunk (s.position = 0 ∧ todo ≥ s.buffer.length)).bind fun s =>
        appendLoop buf fuel (todo - batch) (afterBatch conf s)

/-- `appendInternal(buf, size)`: the loop, with one round for each byte at most, then the cursor
moves on. -/
def appendInternal (s : OutputStreamImpl) (buf : List UInt8) :
    Except OutputError OutputStreamImpl :=
  (appendLoop conf buf (buf.length + 1) buf.length s).map fun s =>
    { s with cursor := s.cursor + buf.length }

/-- `flushInternal(needSync)`: unless nothing was appended since the last flush, send the partial
chunk, with an empty packet for a `sync` that has nothing else to send. -/
def flushInternal (s : OutputStreamImpl) (needSync : Bool) : Except OutputError OutputStreamImpl :=
  if s.lastFlushed = s.cursor ∧ needSync = false then .ok s
  else
    let s := { s with lastFlushed := s.cursor }
    (if s.position > 0 then s.appendChunkToPacket (s.buffer.take s.position) else .ok s).map
      fun s =>
        let s := if s.currentPacket = none ∧ needSync = true ∧ s.pipeline = true then
            let r :=
              PacketPool.getPacket s.packets s.packetSize s.chunksPerPacket s.bytesWritten s.nextSeqNo
            { s with
              currentPacket := some r.1
              packets := r.2
              nextSeqNo := s.nextSeqNo + 1 }
          else s
        match s.currentPacket with
        | some p => s.sendPacket p
        | none => s

/-- `close()` with no error pending: send what was appended since the last flush, and close the
pipeline. -/
def close (s : OutputStreamImpl) : Except OutputError OutputStreamImpl :=
  (if s.lastFlushed ≠ s.cursor ∧ s.position > 0 then s.appendChunkToPacket (s.buffer.take s.position)
    else .ok s).map fun s =>
      let s := if s.lastFlushed ≠ s.cursor then
          match s.currentPacket with
          | some p => s.sendPacket p
          | none => s
        else s
      s.closePipeline

/-- The calls on an open stream. -/
inductive StreamCall
  | append (buf : List UInt8)
  | flush
  | sync
  deriving DecidableEq, Repr

def apply (s : OutputStreamImpl) : StreamCall → Except OutputError OutputStreamImpl
  | .append buf => s.appendInternal conf buf
  | .flush => s.flushInternal false
  | .sync => s.flushInternal true

/-- The calls in turn; the first exception ends the run. -/
def run (s : OutputStreamImpl) : List StreamCall → Except OutputError OutputStreamImpl
  | [] => .ok s
  | c :: cs => (s.apply conf c).bind fun s => run s cs

set_option maxRecDepth 20000 in
/-- **Past the end of the block.** The caller asks for the default block size, which passes the
check of `openInternal`; the namenode reports a file with blocks of 1000 bytes, not a multiple of
the 512-byte chunk, and a last block of 100 bytes. After 924 bytes and a flush, `bytesWritten` is
1024: the block boundary fell inside a chunk, the second packet covers the offsets 512 to 1024,
and no packet has closed the block. -/
theorem append_writes_past_block_size :
    ∃ s, ((openInternal ⟨512, 65536, 67108864⟩ (.append ⟨some 100, 1000, 100⟩) 0).bind
        fun s => s.run ⟨512, 65536, 67108864⟩ [.append (List.replicate 924 0), .flush]) = .ok s ∧
      s.blockSize = 1000 ∧ s.bytesWritten = 1024 ∧
      s.sent.map PipelineOp.extent = [(100, 512, false), (512, 1024, false)] :=
  ⟨_, rfl, rfl, rfl, rfl⟩

end OutputStreamImpl

end HdfsClient
