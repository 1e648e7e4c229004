import HdfsClient.Lib.Intervals

/-!
# Reading a file: located blocks, block readers and the cursor

`InputStreamImpl` (`client/InputStreamImpl.cpp`) reads a file block by block. It asks the namenode
for the blocks from the cursor on (`updateBlockInfos`, which also asks a datanode how much of a
block being written can be read), finds the block that holds the cursor
(`LocatedBlocksImpl::findBlock`), opens a block reader there, and reads from it up to the end of
the block (`readOneBlock`). `seek` moves the cursor: forward inside the block being read, the
reader skips; otherwise the reader is dropped. An exception other than the end of the stream from
`read` or `readFully`, and any exception at all from `seek`, is kept in `lastError` and thrown again
by every later call (`checkStatus`).

The model takes from the cluster what the stream asks of it (`Cluster`): the answers of
`getBlockLocations`, the visible length of a block being written, and how many bytes each read of a
block reader hands over; a block reader hands over the bytes of its block. Datanode failures, with
the retries over replicas and the refresh of the block locations they lead to, are left out.

* `seek_past_end_breaks_stream` — after a `seek` past the end of the file, `seek` and `read` throw
  the end of the stream from anywhere.
-/

namespace HdfsClient

/-- `LocatedBlock`: a block of the file, at `offset`, of `numBytes` bytes. -/
structure LocatedBlock where
  offset : Nat
  numBytes : Nat
  deriving DecidableEq, Repr

/-- `LocatedBlocksImpl`: the length of the file without a last block being written, whether the
last block is complete, the last block, and the blocks of the range asked for. -/
structure LocatedBlocks where
  fileLength : Nat
  isLastBlockComplete : Bool
  lastBlock : Option LocatedBlock
  blocks : List LocatedBlock
  deriving DecidableEq, Repr

namespace LocatedBlocks

/-- A new `LocatedBlocksImpl`. -/
def empty : LocatedBlocks := ⟨0, false, none, []⟩

/-- `Convert(lbs, proto)`: the answer of `getBlockLocations` into `lbs`. The last block is set only
when the answer has one; the blocks are sorted by offset. -/
def convert (lbs proto : LocatedBlocks) : LocatedBlocks :=
  { fileLength := proto.fileLength
    isLastBlockComplete := proto.isLastBlockComplete
    lastBlock := proto.lastBlock.or lbs.lastBlock
    blocks := proto.blocks.mergeSort fun a b => decide (a.offset ≤ b.offset) }

/-- `findBlock(position)`: before `fileLength`, the block that holds `position` among those known:
the first that starts at `position` or after it (`std::lower_bound`), or the one before it when it
starts past `position`; from `fileLength` on, the last block. The position is an `int64_t`, which
may be negative; offsets and lengths are not. -/
def findBlock (lbs : LocatedBlocks) (position : Int) : Option LocatedBlock :=
  if position < lbs.fileLength then
    match lbs.blocks with
    | [] => none
    | first :: _ =>
      if position < first.offset then none
      else
        let bound := Intervals.lowerBound (fun b : LocatedBlock => (b.offset : Int)) lbs.blocks
          position
        let retval := match lbs.blocks[bound]? with
          | none => lbs.blocks.getLast?
          | some b => if (b.offset : Int) > position then lbs.blocks[bound - 1]? else some b
        retval.bind fun r =>
          if position < r.offset ∨ position ≥ r.offset + r.numBytes then none else some r
  else lbs.lastBlock

end LocatedBlocks

/-- What the stream asks of the cluster: the bytes of the file, which the replicas of its blocks
hold; the answer of `getBlockLocations(path, offset, prefetchSize)` for each offset; the visible
length of a block being written (`readBlockLength`); and how many bytes the `n`-th read of a block
reader hands over when asked for `size`. -/
structure Cluster where
  file : List UInt8
  getBlockLocations : Nat → LocatedBlocks
  readBlockLength : LocatedBlock → Nat
  readSize : Nat → Nat → Nat

/-- A block reader (`RemoteBlockReader` or `LocalBlockReader`): its block, and the offset in the
block of the next byte. -/
structure BlockReader where
  block : LocatedBlock
  cursor : Nat
  deriving DecidableEq, Repr

namespace BlockReader

/-- `read(buf, size)`: the next bytes of the block, as many as the cluster hands over for the `n`-th
read. -/
def read (cl : Cluster) (r : BlockReader) (n size : Nat) : List UInt8 :=
  (((cl.file.drop r.block.offset).take r.block.numBytes).drop r.cursor).take (cl.readSize n size)

/-- `skip(len)`. -/
def skip (r : BlockReader) (len : Nat) : BlockReader := { r with cursor := r.cursor + len }

end BlockReader

/-- How a call fails, by the exception the source throws. -/
inductive InputError
  /-- `HdfsEndOfStream`: "read over EOF", "seek over EOF". -/
  | endOfStream
  /-- `HdfsIOException`: "cannot find block information at position". -/
  | noBlockInformation
  /-- No block to open a reader on: `curBlock` is null. -/
  | noCurrentBlock
  /-- The model's fuel. -/
  | outOfFuel
  deriving DecidableEq, Repr

/-- The stream: `cursor`, `endOfCurBlock`, `lastBlockBeingWrittenLength`, `curBlock`,
`blockReader`, `lbs` and `lastError`, and the reads made of block readers so far, by which the
cluster's answers are counted. -/
structure InputStreamImpl where
  cursor : Nat
  endOfCurBlock : Nat
  lastBlockBeingWrittenLength : Nat
  curBlock : Option LocatedBlock
  blockReader : Option BlockReader
  lbs : Option LocatedBlocks
  lastError : Option InputError
  readerCalls : Nat

/-- The calls on an open stream. -/
inductive InputCall
  | seek (pos : Nat)
  | read (size : Nat)
  | readFully (size : Nat)
  deriving DecidableEq, Repr

namespace InputStreamImpl

variable (cl : Cluster)

/-- The stream before `openInternal`. -/
def init : InputStreamImpl := ⟨0, 0, 0, none, none, none, none, 0⟩

/-- `checkStatus()`: the exception kept from an earlier call. -/
def checkStatus (s : InputStreamImpl) : Except InputError Unit :=
  match s.lastError with
  | some e => .error e
  | none => .ok ()

theorem checkStatus_of_none {s : InputStreamImpl} (h : s.lastError = none) : s.checkStatus = .ok () := by
  rw [checkStatus, h]

theorem checkStatus_of_some {s : InputStreamImpl} {e : InputError} (h : s.lastError = some e) :
    s.checkStatus = .error e := by
  rw [checkStatus, h]

/-- `updateBlockInfos()`: the blocks from the cursor on, and the visible length of a last block
being written, which becomes its length. -/
def updateBlockInfos (s : InputStreamImpl) : InputStreamImpl :=
  let lbs := (s.lbs.getD LocatedBlocks.empty).convert (cl.getBlockLocations s.cursor)
  if lbs.isLastBlockComplete then { s with lbs := some lbs, lastBlockBeingWrittenLength := 0 }
  else
    match lbs.lastBlock with
    | none => { s with lbs := some lbs, lastBlockBeingWrittenLength := 0 }
    | some last =>
      let n := cl.readBlockLength last
      { s with
        lbs := some { lbs with lastBlock := some { last with numBytes := n } }
        lastBlockBeingWrittenLength := n }

/-- `getFileLength()`: the length of the file, with the visible part of a last block being
written. -/
def getFileLength (s : InputStreamImpl) : Nat :=
  match s.lbs with
  | some lbs =>
    lbs.fileLength + if lbs.isLastBlockComplete then 0 else s.lastBlockBeingWrittenLength
  | none => 0

/-- `seekToBlock(lb)`: the block to read next, with no reader yet. -/
def seekToBlock (s : InputStreamImpl) (lb : LocatedBlock) : InputStreamImpl :=
  { s with curBlock := some lb, endOfCurBlock := lb.numBytes + lb.offset, blockReader := none }

/-- `setupBlockReader()`: a reader of the current block, opened at the cursor. -/
def setupBlockReader (s : InputStreamImpl) : InputStreamImpl :=
  match s.curBlock with
  | some b => { s with blockReader := some ⟨b, s.cursor - b.offset⟩ }
  | none => s

/-- `readOneBlock(buf, size)`: a reader if there is none, then a read up to the end of the block. -/
def readOneBlock (s : InputStreamImpl) (size : Nat) :
    Except InputError (List UInt8) × InputStreamImpl :=
  let s := if s.blockReader.isNone then s.setupBlockReader else s
  match s.blockReader with
  | none => (.error .noCurrentBlock, s)
  | some r =>
    let todo := min size (s.endOfCurBlock - s.cursor)
    let bytes := r.read cl s.readerCalls todo
    (.ok bytes, { s with
      cursor := s.cursor + bytes.length
      blockReader := some { r with cursor := r.cursor + bytes.length }
      readerCalls := s.readerCalls + 1 })

/-- `readInternal(buf, size)`: fresh block locations when there are none, when the cursor is at the
end of the file, or when it is past the current block and no known block holds it; the end of the
stream if the cursor is still at the end of the file; then the block that holds the cursor, and a
read from it. -/
def readInternal (s : InputStreamImpl) (size : Nat) :
    Except InputError (List UInt8) × InputStreamImpl :=
  let update := s.lbs.isNone || decide (s.cursor ≥ s.getFileLength) ||
    (decide (s.cursor ≥ s.endOfCurBlock) && (s.lbs.bind (·.findBlock s.cursor)).isNone)
  let s := if update then s.updateBlockInfos cl else s
  if update = true ∧ s.cursor ≥ s.getFileLength then (.error .endOfStream, s)
  else if s.cursor ≥ s.endOfCurBlock then
    match s.lbs.bind (·.findBlock s.cursor) with
    | none => (.error .noBlockInformation, s)
    | some lb => (s.seekToBlock lb).readOneBlock cl size
  else s.readOneBlock cl size

/-- The `catch` blocks of `read` and `readFully`: the end of the stream goes to the caller as it
is; any other exception is kept in `lastError` first. -/
def keepUnlessEnd {α : Type} : Except InputError α × InputStreamImpl →
    Except InputError α × InputStreamImpl
  | (.error .endOfStream, s) => (.error .endOfStream, s)
  | (.error e, s) => (.error e, { s with lastError := some e })
  | (.ok a, s) => (.ok a, s)

@[simp] theorem keepUnlessEnd_ok {α : Type} (a : α) (s : InputStreamImpl) :
    keepUnlessEnd (.ok a, s) = (.ok a, s) := rfl

@[simp] theorem keepUnlessEnd_endOfStream {α : Type} (s : InputStreamImpl) :
    keepUnlessEnd ((.error .endOfStream, s) : Except InputError α × InputStreamImpl) =
      (.error .endOfStream, s) := rfl

/-- `read(buf, size)`. -/
def read (s : InputStreamImpl) (size : Nat) : Except InputError (List UInt8) × InputStreamImpl :=
  match s.checkStatus with
  | .error e => (.error e, s)
  | .ok () => keepUnlessEnd (s.readInternal cl size)

/-- The loop of `readFullyInternal` over the `todo` bytes still to read, at most
`std::numeric_limits<int32_t>::max()` of them in one `readInternal`. -/
def readFullyLoop : Nat → Nat → List UInt8 → InputStreamImpl →
    Except InputError (List UInt8) × InputStreamImpl
  | 0, _, _, s => (.error .outOfFuel, s)
  | fuel + 1, todo, acc, s =>
    if todo = 0 then (.ok acc, s)
    else
      match s.readInternal cl (min todo 2147483647) with
      | (.ok bytes, s) => readFullyLoop fuel (todo - bytes.length) (acc ++ bytes) s
      | (.error e, s) => (.error e, s)

/-- `readFully(buf, size)`: the loop, with one round for each byte at most. -/
def readFully (s : InputStreamImpl) (size : Nat) :
    Except InputError (List UInt8) × InputStreamImpl :=
  match s.checkStatus with
  | .error e => (.error e, s)
  | .ok () => keepUnlessEnd (readFullyLoop cl (size + 1) size [] s)

/-- `seekInternal(pos)`: nothing to do at the cursor; past the known end of the file, fresh block
locations and the end of the stream if it is still past it; forward inside the block being read,
the reader skips; otherwise the reader is dropped. -/
def seekInternal (s : InputStreamImpl) (pos : Nat) : Except InputError Unit × InputStreamImpl :=
  if s.cursor = pos then (.ok (), s)
  else
    let update := s.lbs.isNone || decide (pos > s.getFileLength)
    let s := if update then s.updateBlockInfos cl else s
    if update = true ∧ pos > s.getFileLength then (.error .endOfStream, s)
    else
      match s.blockReader with
      | some r =>
        if pos > s.cursor ∧ pos < s.endOfCurBlock then
          (.ok (), { s with blockReader := some (r.skip (pos - s.cursor)), cursor := pos })
        else (.ok (), { s with endOfCurBlock := 0, blockReader := none, cursor := pos })
      | none => (.ok (), { s with endOfCurBlock := 0, blockReader := none, cursor := pos })

/-- `seek(pos)`: unlike `read`, every exception is kept in `lastError`, the end of the stream
too. -/
def seek (s : InputStreamImpl) (pos : Nat) : Except InputError Unit × InputStreamImpl :=
  match s.checkStatus with
  | .error e => (.error e, s)
  | .ok () =>
    match s.seekInternal cl pos with
    | (.error e, s) => (.error e, { s with lastError := some e })
    | (.ok (), s) => (.ok (), s)

/-- `openInternal`: the block locations from the start of the file. -/
def openInternal : InputStreamImpl := init.updateBlockInfos cl

/-- One call, with what it answers: the bytes read, none for `seek`. -/
def apply (s : InputStreamImpl) : InputCall → Except InputError (List UInt8) × InputStreamImpl
  | .seek pos => ((s.seek cl pos).1.map fun _ => [], (s.seek cl pos).2)
  | .read size => s.read cl size
  | .readFully size => s.readFully cl size

/-- The calls in turn, with their answers; an exception goes to the caller, and the stream stays. -/
def run (s : InputStreamImpl) : List InputCall → List (Except InputError (List UInt8)) × InputStreamImpl
  | [] => ([], s)
  | c :: cs => ((s.apply cl c).1 :: ((s.apply cl c).2.run cs).1, ((s.apply cl c).2.run cs).2)

/-- A file of three bytes in one complete block, read by a reader that hands over all it is asked
for. -/
def threeBytes : Cluster where
  file := [1, 2, 3]
  getBlockLocations := fun _ => ⟨3, true, some ⟨0, 3⟩, [⟨0, 3⟩]⟩
  readBlockLength := fun _ => 0
  readSize := fun _ size => size

/-- **A seek past the end breaks the stream.** The end of the stream thrown by `seek(5)` on a file
of three bytes is kept in `lastError`: `seek(0)` then throws it instead of moving the cursor, and
`read` throws it instead of handing over the first byte. -/
theorem seek_past_end_breaks_stream :
    ((openInternal threeBytes).run threeBytes [.read 2, .seek 5, .seek 0, .read 1]).1 =
      [.ok [1, 2], .error .endOfStream, .error .endOfStream, .error .endOfStream] := by
  decide +kernel

end InputStreamImpl

end HdfsClient
