import HdfsClient.Client.OutputStream
import HdfsClient.Lib.Chunks
import Mathlib.Algebra.Group.Int.Defs

/-!
# The local block reader

`LocalBlockReader` (`client/LocalBlockReader.cpp`) reads a replica from the datanode's own disk:
the data file, and the meta file, whose seven-byte header holds a version, a checksum type and the
bytes per checksum, followed by a big-endian CRC32C of each chunk of the block. Verifying, it reads
the data in buffers of whole chunks (`readAndVerify`) and checks every chunk; not verifying, it
reads the data as it is, and copies a read that is long or reaches the end of the block past its
buffer. `skip` moves the cursor on; verifying, it goes back to the start of the chunk, seeks the
meta file to that chunk's checksum and refills the buffer.

The files are their bytes with the offset of the next read (`FileWrapper`). Sizes and offsets are
`Int`; the source computes them in `int` and `int64_t`, which overflow only for a buffer size or
bytes per checksum near `2 ^ 31`. `skip`'s loop is given three rounds, which it never exhausts from
a state the reader reaches (`Inv.skip`).

* `new_null_checksum_verify_fails` — a replica with `CHECKSUM_NULL`, opened with `verify`, always
  fails: the constructor clears the member `verify` but tests its parameter `verify` against a
  bytes per checksum of 0.
* `Inv.read` — from a reachable state `read(buf, n)` returns the block's bytes at the cursor, no
  more than asked for and at least one before the end of the block, and moves the cursor on by that
  much; with bytes in the buffer, `min(n, size - position)` of them (`Inv.readBuffered`).
* `Inv.skip` — `skip(len)` within the block moves the cursor on by `len`, in at most three rounds
  of its loop.
* `new_crc32c_follows_block` — a well-formed replica with CRC32C opens at every offset of the
  block, and every run of reads and forward skips on it answers as a cursor over the block
  (`BlockRun`).
-/

namespace HdfsClient

/-! ## Files -/

/-- What the reader throws. -/
inductive LocalReadError
  /-- `CFileWrapper::copy`: "Cannot read file \"%s\", End of file." -/
  | endOfFile
  /-- "LocalBlockReader get an unmatched block, expected block version %d, real version is %d" -/
  | unmatchedVersion (version : Int)
  /-- "LocalBlockReader does not support CRC32 checksum." -/
  | crc32Unsupported
  /-- "LocalBlockReader cannot recognize checksum type: %d." -/
  | unknownChecksumType (type : Int)
  /-- "LocalBlockReader get an invalid checksum parameter, bytes per check: %d." -/
  | invalidChecksumParameter (bytesPerChecksum : Int)
  /-- `ChecksumException`: "LocalBlockReader checksum not match for block: %s" -/
  | checksumMismatch
  /-- "Failed to construct LocalBlockReader for block: %s.", around what the constructor met. -/
  | constructFailed (cause : LocalReadError)
  /-- "LocalBlockReader failed to read from position: ...", around what `read` met. -/
  | readFailed (cause : LocalReadError)
  /-- "LocalBlockReader failed to skip from position: ...", around what `skip` met. -/
  | skipFailed (cause : LocalReadError)
  /-- An `assert` fails, and the program aborts. -/
  | assertionFailed
  /-- The model's round bound of `skip`'s loop runs out. -/
  | outOfFuel
  /-- An `int` sum leaves the range of `int`: undefined behaviour. -/
  | intOverflow
  deriving DecidableEq, Repr

/-- `catch (const HdfsException & e) { NESTED_THROW(...) }`: wrap what was thrown. A failed
`assert` aborts, an overflow is undefined, and the bound of the model is not the source's, so none
of them is wrapped. -/
def LocalReadError.nest (wrap : LocalReadError → LocalReadError) : LocalReadError → LocalReadError
  | .assertionFailed => .assertionFailed
  | .outOfFuel => .outOfFuel
  | .intOverflow => .intOverflow
  | e => wrap e

/-- An open file (`FileWrapper`): its bytes, and the offset of the next read. -/
structure FileWrapper where
  content : List UInt8
  offset : Nat
  deriving DecidableEq, Repr

namespace FileWrapper

/-- `read(buffer, size)`, and `copy(buffer, size)`: the next `size` bytes, which must be there. -/
def read (f : FileWrapper) (size : Int) : Except LocalReadError (List UInt8 × FileWrapper) :=
  if f.offset + size.toNat ≤ f.content.length then
    .ok ((f.content.drop f.offset).take size.toNat, { f with offset := f.offset + size.toNat })
  else .error .endOfFile

/-- `seek(offset)`. -/
def seek (f : FileWrapper) (offset : Int) : FileWrapper := { f with offset := offset.toNat }

end FileWrapper

/-! ## The reader -/

/-- `BMVERSION`. -/
def bmVersion : Int := 1

/-- `HEADER_SIZE`: `BMVERSION_SIZE + CHECKSUM_TYPE_SIZE + CHECKSUM_BYTES_PER_CHECKSUM_SIZE`. -/
def headerSize : Int := 2 + 1 + 4

/-- `ReadBigEndian16FromArray`: an `int16_t`, most significant byte first. -/
def readBigEndian16FromArray (bs : List UInt8) : Int :=
  (BitVec.ofNat 16 (Endian.beDecode (bs.take 2))).toInt

/-- `ReadBigEndian32FromArray`: an `int32_t`, most significant byte first. -/
def readBigEndian32FromArray (bs : List UInt8) : Int :=
  (BitVec.ofNat 32 (Endian.beDecode (bs.take 4))).toInt

/-- A client's call on a block reader (`BlockReader`): `read(buf, size)` or `skip(len)`. -/
inductive BlockReaderCall
  | read (size : Int)
  | skip (len : Int)
  deriving DecidableEq, Repr

/-- A call with a size that is not negative: a read, or a skip forward. -/
def BlockReaderCall.Forward : BlockReaderCall → Prop
  | .read size => 0 ≤ size
  | .skip len => 0 ≤ len

/-- A `LocalBlockReader`: whether it verifies checksums, the size of a checksum and of a chunk,
the size of its buffer, `position` and `size` in the buffer, `cursor` and `length` in the block,
the bytes `pbuffer` points to, and the data and meta files. -/
structure LocalBlockReader where
  verify : Bool
  checksumSize : Int
  chunkSize : Int
  localBufferSize : Int
  position : Int
  size : Int
  cursor : Int
  length : Int
  pbuffer : List UInt8
  dataFd : FileWrapper
  metaFd : FileWrapper
  deriving DecidableEq, Repr

namespace LocalBlockReader

/-- Whether chunk `i` of a buffer of `bufferSize` bytes matches its checksum in `mbuf`: the loop
body of `readAndVerify`. The last chunk may be short. -/
def chunkMatches (r : LocalBlockReader) (pbuf mbuf : List UInt8) (bufferSize : Int) (i : Nat) :
    Bool :=
  let chunk := if r.chunkSize * (i + 1) > bufferSize then bufferSize.tmod r.chunkSize
    else r.chunkSize
  let target := Endian.beDecode ((mbuf.drop (i * r.checksumSize.toNat)).take 4)
  target == (crc32c ((pbuf.drop (i * r.chunkSize.toNat)).take chunk.toNat)).toNat

/-- `readAndVerify(bufferSize)`: fill the buffer from the data file, read the checksums of its
chunks from the meta file, and check every chunk. -/
def readAndVerify (r : LocalBlockReader) (bufferSize : Int) :
    Except LocalReadError LocalBlockReader := do
  if ¬ (r.verify = true ∧ r.cursor.tmod r.chunkSize = 0) then throw .assertionFailed
  let chunks := (bufferSize + r.chunkSize - 1).tdiv r.chunkSize
  let (pbuffer, dataFd) ← r.dataFd.read bufferSize
  let (mbuf, metaFd) ← r.metaFd.read (chunks * r.checksumSize)
  if (List.range chunks.toNat).all (r.chunkMatches pbuffer mbuf bufferSize) then
    pure { r with pbuffer := pbuffer, dataFd := dataFd, metaFd := metaFd }
  else throw .checksumMismatch

/-- `readInternal`'s first branch: copy from the buffer. -/
def readBuffered (r : LocalBlockReader) (len : Int) : List UInt8 × LocalBlockReader :=
  let todo := min len (r.size - r.position)
  ((r.pbuffer.drop r.position.toNat).take todo.toNat,
    { r with position := r.position + todo, cursor := r.cursor + todo })

/-- `readInternal(buf, len)`: copy from the buffer; at the end of the block return nothing;
not verifying, copy a read that is longer than the buffer or reaches the end of the block
straight from the data file; otherwise refill the buffer and copy from it. -/
def readInternal (r : LocalBlockReader) (len : Int) :
    Except LocalReadError (List UInt8 × LocalBlockReader) :=
  if r.position < r.size then pure (r.readBuffered len)
  else
    let todo := min len (r.length - r.cursor)
    if todo = 0 then pure ([], r)
    else if !r.verify && (decide (todo > r.localBufferSize) || decide (todo = r.length - r.cursor))
    then do
      let (bytes, dataFd) ← r.dataFd.read todo
      pure (bytes, { r with dataFd := dataFd, cursor := r.cursor + todo })
    else do
      let bufferSize := min r.localBufferSize (r.length - r.cursor)
      if ¬ 0 < bufferSize then throw .assertionFailed
      let r ← if r.verify then r.readAndVerify bufferSize
        else do
          let (pbuffer, dataFd) ← r.dataFd.read bufferSize
          pure { r with pbuffer := pbuffer, dataFd := dataFd }
      -- `readInternal(buf, todo)` again, which copies from the buffer: `position = 0 < size`
      pure (readBuffered { r with position := 0, size := bufferSize } todo)

/-- `read(buf, size)`. -/
def read (r : LocalBlockReader) (size : Int) :
    Except LocalReadError (List UInt8 × LocalBlockReader) :=
  (r.readInternal size).mapError fun e => e.nest .readFailed

/-- A round of `skip`'s loop with the buffer used up: verifying, go back to the start of the
chunk that holds the target, seek the meta file to its checksum and leave the rest of the chunk to
skip; otherwise move the cursor to the target. Then seek the data file, and refill the buffer when
something is left to skip. -/
def skipRefill (r : LocalBlockReader) (todo : Int) :
    Except LocalReadError (LocalBlockReader × Int) := do
  let (r, todo) :=
    if r.verify then
      let lastChunkSize := (r.cursor + todo).tmod r.chunkSize
      let cursor := (r.cursor + todo).tdiv r.chunkSize * r.chunkSize
      let metaCursor := headerSize + r.checksumSize * cursor.tdiv r.chunkSize
      ({ r with cursor := cursor, metaFd := r.metaFd.seek metaCursor }, lastChunkSize)
    else ({ r with cursor := r.cursor + todo }, 0)
  let r := if r.cursor > 0 then { r with dataFd := r.dataFd.seek r.cursor } else r
  if todo > 0 then
    if r.verify = false then throw .assertionFailed
    let bufferSize := min r.localBufferSize (r.length - r.cursor)
    let r ← r.readAndVerify bufferSize
    pure ({ r with position := 0, size := bufferSize }, todo)
  else pure (r, todo)

/-- `skip`'s loop `while (todo > 0)`, for at most `fuel` more rounds: skip what the buffer holds,
or refill it. -/
def skipLoop (fuel : Nat) (r : LocalBlockReader) (todo : Int) :
    Except LocalReadError LocalBlockReader :=
  if todo ≤ 0 then pure r
  else match fuel with
    | 0 => throw .outOfFuel
    | fuel + 1 =>
      if r.size - r.position > 0 then
        let batch := min todo (r.size - r.position)
        skipLoop fuel { r with position := r.position + batch, cursor := r.cursor + batch }
          (todo - batch)
      else do
        let (r, todo) ← r.skipRefill todo
        skipLoop fuel r todo

/-- `skip(len)`, which asks that `len` stay inside the block. -/
def skip (r : LocalBlockReader) (len : Int) : Except LocalReadError LocalBlockReader :=
  if ¬ len < r.length - r.cursor then throw .assertionFailed
  else (skipLoop 3 r len).mapError fun e => e.nest .skipFailed

/-- The constructor's `try` block, over the data and meta files' bytes, the block's `numBytes`,
the start `offset`, the parameter `verify`, and `conf.getLocalReadBufferSize()`. -/
def init (dataFile metaFile : List UInt8) (numBytes offset : Int) (verify : Bool)
    (localReadBufferSize : Int) : Except LocalReadError LocalBlockReader := do
  let (header, metaFd) ← FileWrapper.read ⟨metaFile, 0⟩ headerSize
  let version := readBigEndian16FromArray header
  if bmVersion ≠ version then throw (.unmatchedVersion version)
  let r : LocalBlockReader := ⟨verify, 0, 0, 0, 0, 0, 0, numBytes, [], ⟨dataFile, 0⟩, metaFd⟩
  let type := (header.getD 2 0).toBitVec.toInt
  let r : LocalBlockReader ←
    if type = 0 then pure { r with verify := false, checksumSize := 0 }
    else if type = 1 then throw .crc32Unsupported
    else if type = 2 then
      pure { r with chunkSize := readBigEndian32FromArray (header.drop 3), checksumSize := 4 }
    else throw (.unknownChecksumType type)
  -- the parameter `verify`, not the member that `CHECKSUM_NULL` has just cleared
  if verify ∧ r.chunkSize ≤ 0 then throw (.invalidChecksumParameter r.chunkSize)
  -- `localBufferSize + chunkSize` is an `int` sum
  if verify ∧ 2 ^ 31 ≤ localReadBufferSize + r.chunkSize then throw .intOverflow
  let localBufferSize := if verify then
      (localReadBufferSize + r.chunkSize - 1).tdiv r.chunkSize * r.chunkSize
    else localReadBufferSize
  let r := { r with localBufferSize := localBufferSize }
  if offset > 0 then r.skip offset else pure r

/-- `LocalBlockReader(info, block, offset, verify, conf, buffer)`. -/
def new (dataFile metaFile : List UInt8) (numBytes offset : Int) (verify : Bool)
    (localReadBufferSize : Int) : Except LocalReadError LocalBlockReader :=
  (init dataFile metaFile numBytes offset verify localReadBufferSize).mapError
    fun e => e.nest .constructFailed

/-- A call on the reader, with the bytes it hands over: none for `skip`. -/
def apply (r : LocalBlockReader) :
    BlockReaderCall → Except LocalReadError (List UInt8 × LocalBlockReader)
  | .read size => r.read size
  | .skip len => (r.skip len).map fun r => ([], r)

/-- Calls in turn, with their answers, up to the first exception, after which the input stream
drops the reader. -/
def run (r : LocalBlockReader) :
    List BlockReaderCall → List (Except LocalReadError (List UInt8)) × LocalBlockReader
  | [] => ([], r)
  | call :: calls =>
    match r.apply call with
    | .ok (bytes, r') => (.ok bytes :: (r'.run calls).1, (r'.run calls).2)
    | .error e => ([.error e], r)

/-! ## `CHECKSUM_NULL` with `verify` -/

/-- The header of a meta file with version 1 reads back as version 1. -/
theorem readBigEndian16FromArray_version (rest : List UInt8) :
    readBigEndian16FromArray (0 :: 1 :: rest) = bmVersion := by
  simp [readBigEndian16FromArray, Endian.beDecode, Endian.leDecode, bmVersion]

/-- **`CHECKSUM_NULL` with `verify` fails.** For `CHECKSUM_NULL` the constructor clears the member
`verify` and leaves `chunkSize` at 0, but then tests the parameter `verify`, which shadows the
member, against that bytes per checksum: every such replica, opened with `verify`, throws. -/
theorem new_null_checksum_verify_fails (dataFile rest : List UInt8) (b₀ b₁ b₂ b₃ : UInt8)
    (numBytes offset localReadBufferSize : Int) :
    new dataFile ([0, 1, 0, b₀, b₁, b₂, b₃] ++ rest) numBytes offset true localReadBufferSize =
      .error (.constructFailed (.invalidChecksumParameter 0)) := by
  have hheader : headerSize.toNat = 7 := rfl
  simp [new, init, FileWrapper.read, hheader, readBigEndian16FromArray_version, Except.mapError,
    LocalReadError.nest, bind, Except.bind, throw, throwThe, MonadExceptOf.throw, pure,
    Except.pure]

end LocalBlockReader

/-! ## Well-formed replicas -/

/-- Chunk `j` of `block`, in chunks of `c` bytes; the last one may be short. -/
def chunkOf (c : Nat) (block : List UInt8) (j : Nat) : List UInt8 := (block.drop (j * c)).take c

/-- The checksums of a meta file after its header: the CRC32C of every chunk of the block, four
bytes each, most significant first. -/
def metaChecksums (c : Nat) (block : List UInt8) : List UInt8 :=
  (List.range ((block.length + c - 1) / c)).flatMap fun j =>
    Endian.beBytes (crc32c (chunkOf c block j)).toNat 4

/-- A meta file with version 1 and `CHECKSUM_CRC32C` over chunks of `c` bytes, holding the
checksums of `block`, and anything after them. -/
def crcMetaFile (c : Nat) (block rest : List UInt8) : List UInt8 :=
  [0, 1, 2] ++ Endian.beBytes c 4 ++ metaChecksums c block ++ rest

theorem length_metaChecksums (c : Nat) (block : List UInt8) :
    (metaChecksums c block).length = 4 * ((block.length + c - 1) / c) :=
  Chunks.length_flatMap_range _ (fun _ => Endian.length_beBytes _ _) _

/-- The checksum of chunk `j` stands at `7 + 4 * j` in a well-formed meta file. -/
theorem crcMetaFile_checksum {c : Nat} (hc : 0 < c) (block rest : List UInt8) {j : Nat}
    (hj : c * j < block.length) :
    ((crcMetaFile c block rest).drop (7 + 4 * j)).take 4 =
      Endian.beBytes (crc32c (chunkOf c block j)).toNat 4 := by
  have hheader : ([0, 1, 2] ++ Endian.beBytes c 4 : List UInt8).length = 7 := by simp
  have hj' : j < (block.length + c - 1) / c := by
    rw [Nat.lt_iff_add_one_le, Nat.le_div_iff_mul_le hc, Nat.add_mul, Nat.one_mul, Nat.mul_comm]
    omega
  have hroom : 4 * j + 4 ≤ (metaChecksums c block).length := by
    rw [length_metaChecksums]
    omega
  rw [crcMetaFile, List.append_assoc, ← List.drop_drop, List.drop_left' hheader,
    List.drop_append_of_le_length (by omega),
    List.take_append_of_le_length (by rw [List.length_drop]; omega)]
  exact Chunks.drop_take_flatMap_range _ (fun _ => Endian.length_beBytes _ _) hj'

/-- The chunks of a buffer of `b` bytes start inside it. -/
theorem mul_lt_of_lt_chunks {c b i : Nat} (hc : 0 < c) (hi : i < (b + c - 1) / c) : i * c < b := by
  have h := (Nat.le_div_iff_mul_le hc).mp (Nat.lt_iff_add_one_le.mp hi)
  rw [Nat.add_mul, Nat.one_mul] at h
  omega

/-- Chunk `i` of a buffer filled from the start of chunk `j`, cut as `readAndVerify` cuts it, is
chunk `j + i` of the block: whole, or short when the buffer ends inside a chunk, which then is
where the block ends. -/
theorem buffer_chunk_eq {c : Nat} (hc : 0 < c) {D : List UInt8} {L j b i : Nat}
    (hend : c * j + b ≤ L) (hlast : c ∣ b ∨ c * j + b = L) (hi : i < (b + c - 1) / c) :
    (((D.drop (c * j)).take b).drop (i * c)).take (if c * (i + 1) > b then b % c else c) =
      chunkOf c (D.take L) (j + i) := by
  have hib : i * c < b := mul_lt_of_lt_chunks hc hi
  have hstart : (j + i) * c = c * j + i * c := by rw [Nat.add_mul, Nat.mul_comm j c]
  rw [chunkOf, List.drop_take, List.drop_drop, List.take_take, List.drop_take, List.take_take,
    hstart]
  congr 1
  split_ifs with hover
  · -- the buffer ends inside chunk `i`: it is the short last chunk of the block
    have hlt : b < i * c + c := by
      rw [Nat.mul_add, Nat.mul_one, Nat.mul_comm] at hover
      omega
    have hdiv : b / c = i :=
      Nat.div_eq_of_lt_le (Nat.le_of_lt hib) (by rw [Nat.add_mul, Nat.one_mul]; exact hlt)
    have hmod : b % c = b - i * c := by
      have := Nat.div_add_mod b c
      rw [hdiv, Nat.mul_comm] at this
      omega
    have hL : c * j + b = L := by
      rcases hlast with hdvd | hL
      · have := Nat.mod_eq_zero_of_dvd hdvd
        omega
      · exact hL
    rw [hmod]
    omega
  · rw [Nat.mul_add, Nat.mul_one, Nat.mul_comm] at hover
    omega

namespace FileWrapper

theorem read_ok {f : FileWrapper} {n : Nat} (h : f.offset + n ≤ f.content.length) :
    f.read n = .ok ((f.content.drop f.offset).take n, { f with offset := f.offset + n }) := by
  simp [read, h]

end FileWrapper

namespace LocalBlockReader

section Verify

variable {r : LocalBlockReader} {dataFile rest : List UInt8} {c j b L : Nat}

/-- In a buffer filled from chunk `j` of a well-formed replica, every chunk matches the checksum
read for it. -/
theorem chunkMatches_of_replica (hc : r.chunkSize = c) (hcpos : 0 < c) (hsum : r.checksumSize = 4)
    (hL : L ≤ dataFile.length) (hend : c * j + b ≤ L) (hlast : c ∣ b ∨ c * j + b = L) {i : Nat}
    (hi : i < (b + c - 1) / c) :
    r.chunkMatches ((dataFile.drop (c * j)).take b)
      (((crcMetaFile c (dataFile.take L) rest).drop (7 + 4 * j)).take (4 * ((b + c - 1) / c)))
      b i = true := by
  have hlen : (if (c : Int) * ((i : Int) + 1) > (b : Int) then (b : Int).tmod (c : Int)
      else (c : Int)).toNat = if c * (i + 1) > b then b % c else c := by
    split_ifs with h₁ h₂ h₂
    · rw [Int.tmod_eq_emod_of_nonneg (by omega), ← Int.natCast_emod, Int.toNat_natCast]
    · exact absurd (by exact_mod_cast h₁) h₂
    · exact absurd h₂ (by exact_mod_cast h₁)
    · rfl
  have hib : i * c < b := mul_lt_of_lt_chunks hcpos hi
  have hL' : (dataFile.take L).length = L := by simp; omega
  have htarget : (((((crcMetaFile c (dataFile.take L) rest).drop (7 + 4 * j)).take
      (4 * ((b + c - 1) / c))).drop (i * 4)).take 4) =
      Endian.beBytes (crc32c (chunkOf c (dataFile.take L) (j + i))).toNat 4 := by
    rw [List.drop_take, List.drop_drop, List.take_take, Nat.min_eq_left (by omega),
      show 7 + 4 * j + i * 4 = 7 + 4 * (j + i) by omega]
    exact crcMetaFile_checksum hcpos _ _ (by rw [hL', Nat.mul_add, Nat.mul_comm c i]; omega)
  simp only [chunkMatches, hc, hsum, Int.toNat_natCast, hlen, show (4 : Int).toNat = 4 from rfl,
    htarget, buffer_chunk_eq hcpos hend hlast hi]
  rw [Endian.beDecode_beBytes _ _ (by simpa using (crc32c _).isLt), beq_self_eq_true]

/-- **Filling a verified buffer.** From the start of chunk `j` of a well-formed replica, with the
meta file at that chunk's checksum, `readAndVerify(b)` reads `b` bytes of the block, finds every
chunk's checksum right, and leaves the meta file at the checksum of the chunk after them. -/
theorem readAndVerify_ok (hverify : r.verify = true) (hc : r.chunkSize = c) (hcpos : 0 < c)
    (hsum : r.checksumSize = 4) (hcur : r.cursor = ↑(c * j)) (hL : L ≤ dataFile.length)
    (hdata : r.dataFd = ⟨dataFile, c * j⟩)
    (hmeta : r.metaFd = ⟨crcMetaFile c (dataFile.take L) rest, 7 + 4 * j⟩)
    (hend : c * j + b ≤ L) (hlast : c ∣ b ∨ c * j + b = L) :
    r.readAndVerify b = .ok { r with
      pbuffer := (dataFile.drop (c * j)).take b
      dataFd := ⟨dataFile, c * j + b⟩
      metaFd := ⟨crcMetaFile c (dataFile.take L) rest, 7 + 4 * j + 4 * ((b + c - 1) / c)⟩ } := by
  have hassert : r.cursor.tmod r.chunkSize = 0 := by
    rw [hcur, hc, Int.natCast_mul]
    exact Int.mul_tmod_right _ _
  have hchunks : ((b : Int) + r.chunkSize - 1).tdiv r.chunkSize = (((b + c - 1) / c : Nat) : Int) := by
    rw [hc, Int.tdiv_eq_ediv_of_nonneg (by omega), Int.natCast_ediv]
    congr 1
    omega
  have hmetaLen : 7 + 4 * j + 4 * ((b + c - 1) / c) ≤
      (crcMetaFile c (dataFile.take L) rest).length := by
    have hroom : j + (b + c - 1) / c ≤ ((dataFile.take L).length + c - 1) / c := by
      rw [List.length_take, Nat.min_eq_left hL, Nat.add_comm j, ← Nat.add_mul_div_left _ _ hcpos]
      exact Nat.div_le_div_right (by omega)
    simp only [crcMetaFile, List.length_append, Endian.length_beBytes, length_metaChecksums]
    simp only [List.length_cons, List.length_nil]
    omega
  have hdataRead := FileWrapper.read_ok (f := r.dataFd) (n := b) (by rw [hdata]; dsimp only; omega)
  have hmetaRead := FileWrapper.read_ok (f := r.metaFd) (n := 4 * ((b + c - 1) / c))
    (by rw [hmeta]; exact hmetaLen)
  have hall : (List.range ((b + c - 1) / c)).all (r.chunkMatches ((dataFile.drop (c * j)).take b)
      (((crcMetaFile c (dataFile.take L) rest).drop (7 + 4 * j)).take (4 * ((b + c - 1) / c)))
      b) = true := by
    rw [List.all_eq_true]
    intro i hi
    exact chunkMatches_of_replica hc hcpos hsum hL hend hlast (List.mem_range.mp hi)
  have h4 : (((b + c - 1) / c : Nat) : Int) * r.checksumSize = ((4 * ((b + c - 1) / c) : Nat) : Int) := by
    rw [hsum]
    omega
  rw [hdata] at hdataRead
  rw [hmeta] at hmetaRead
  simp only [readAndVerify, hverify, hassert, and_self, not_true_eq_false, if_false, hchunks, h4,
    hdata, hmeta, hdataRead, hmetaRead, Int.toNat_natCast, hall, if_true, bind, Except.bind, pure,
    Except.pure]

end Verify

/-! ## The reader's invariant -/

/-- Where the buffer's unread bytes end in the block, which is where the data file stands. -/
def bufEnd (r : LocalBlockReader) : Int := r.cursor + (r.size - r.position)

/-- What a verifying reader keeps: chunks of a positive size with four-byte checksums, a buffer
size that is a whole number of chunks, a buffer that ends at a chunk boundary or at the end of the
block, and the meta file at the checksum of the first chunk after the buffer, in a well-formed meta
file. -/
structure Verifying (dataFile metaFile : List UInt8) (r : LocalBlockReader) : Prop where
  chunkSize_pos : 0 < r.chunkSize
  checksumSize_eq : r.checksumSize = 4
  bufferSize_dvd : r.chunkSize ∣ r.localBufferSize
  bufEnd_aligned : r.chunkSize ∣ r.bufEnd ∨ r.bufEnd = r.length
  metaFd_eq : r.metaFd =
    ⟨metaFile, 7 + 4 * ((r.bufEnd + r.chunkSize - 1) / r.chunkSize).toNat⟩
  metaFile_eq : ∃ rest, metaFile = crcMetaFile r.chunkSize.toNat (dataFile.take r.length.toNat) rest

/-- **The invariant.** The block lies inside the data file; `position ≤ size`, the length of the
buffer; the unread part of the buffer is the block's bytes at the cursor; the data file stands
where the buffer ends, which is inside the block; the buffer size is positive; and a verifying
reader keeps `Verifying`. -/
structure Inv (dataFile metaFile : List UInt8) (r : LocalBlockReader) : Prop where
  length_le : r.length ≤ dataFile.length
  position_nonneg : 0 ≤ r.position
  position_le : r.position ≤ r.size
  size_eq : r.size = r.pbuffer.length
  cursor_nonneg : 0 ≤ r.cursor
  bufEnd_le : r.bufEnd ≤ r.length
  unread : r.pbuffer.drop r.position.toNat =
    (dataFile.drop r.cursor.toNat).take (r.size - r.position).toNat
  dataFd_eq : r.dataFd = ⟨dataFile, r.bufEnd.toNat⟩
  bufferSize_pos : 0 < r.localBufferSize
  verifying : r.verify = true → Verifying dataFile metaFile r

/-- Chunks up to `n`, as the reader counts them in `int`. -/
theorem ceil_toNat {c : Nat} (hc : 0 < c) (n : Nat) :
    (((n : Int) + (c : Int) - 1) / (c : Int)).toNat = (n + c - 1) / c := by
  rw [show (n : Int) + (c : Int) - 1 = ((n + c - 1 : Nat) : Int) by omega, ← Int.natCast_ediv,
    Int.toNat_natCast]

theorem ceil_mul_add {c : Nat} (hc : 0 < c) (j b : Nat) :
    (c * j + b + c - 1) / c = j + (b + c - 1) / c := by
  rw [show c * j + b + c - 1 = b + c - 1 + c * j by omega, Nat.add_mul_div_left _ _ hc,
    Nat.add_comm]

theorem ceil_mul {c : Nat} (hc : 0 < c) (j : Nat) : (c * j + c - 1) / c = j :=
  Nat.div_eq_of_lt_le (by rw [Nat.mul_comm]; omega)
    (by rw [Nat.add_mul, Nat.one_mul, Nat.mul_comm]; omega)

section Reads

variable {dataFile metaFile : List UInt8} {r : LocalBlockReader}

/-- `Verifying` reads only the chunk and checksum sizes, the buffer size, where the buffer ends,
the length and the meta file. -/
theorem Verifying.of_eq {r' : LocalBlockReader} (h : Verifying dataFile metaFile r)
    (hc : r'.chunkSize = r.chunkSize) (hs : r'.checksumSize = r.checksumSize)
    (hl : r'.localBufferSize = r.localBufferSize) (he : r'.bufEnd = r.bufEnd)
    (hL : r'.length = r.length) (hm : r'.metaFd = r.metaFd) : Verifying dataFile metaFile r' where
  chunkSize_pos := hc ▸ h.chunkSize_pos
  checksumSize_eq := hs ▸ h.checksumSize_eq
  bufferSize_dvd := hc ▸ hl ▸ h.bufferSize_dvd
  bufEnd_aligned := hc ▸ he ▸ hL ▸ h.bufEnd_aligned
  metaFd_eq := hm ▸ hc ▸ he ▸ h.metaFd_eq
  metaFile_eq := hc ▸ hL ▸ h.metaFile_eq

/-- With the buffer used up, the data file stands at the cursor. -/
theorem Inv.bufEnd_eq_cursor (h : Inv dataFile metaFile r) (hempty : r.size ≤ r.position) :
    r.bufEnd = r.cursor := by
  have := h.position_le
  simp only [bufEnd]
  omega

/-- The cursor stays inside the block. -/
theorem Inv.cursor_le (h : Inv dataFile metaFile r) : r.cursor ≤ r.length := by
  have := h.bufEnd_le
  have := h.position_le
  simp only [bufEnd] at *
  omega

/-- The block is the first `length` bytes of the data file. -/
theorem Inv.length_block (h : Inv dataFile metaFile r) :
    ((dataFile.take r.length.toNat).length : Int) = r.length := by
  have := h.length_le
  have := h.cursor_nonneg
  have := h.cursor_le
  simp only [List.length_take]
  omega

/-- **Copying from the buffer** hands over the block's bytes at the cursor, as many as asked and
as the buffer holds, and keeps the invariant. -/
theorem Inv.readBuffered (h : Inv dataFile metaFile r) {n : Int} (hn : 0 ≤ n) :
    (r.readBuffered n).1 =
      (dataFile.drop r.cursor.toNat).take (min n (r.size - r.position)).toNat ∧
    Inv dataFile metaFile (r.readBuffered n).2 ∧
    (r.readBuffered n).2.cursor = r.cursor + min n (r.size - r.position) := by
  have hp := h.position_nonneg
  have hps := h.position_le
  have hc := h.cursor_nonneg
  have hbufEnd : (r.readBuffered n).2.bufEnd = r.bufEnd := by
    simp only [LocalBlockReader.readBuffered, bufEnd]
    omega
  refine ⟨?_, ?_, rfl⟩
  · simp only [LocalBlockReader.readBuffered]
    rw [h.unread, List.take_take]
    congr 1
    omega
  · refine ⟨h.length_le, ?_, ?_, h.size_eq, ?_, hbufEnd ▸ h.bufEnd_le, ?_,
      hbufEnd ▸ h.dataFd_eq, h.bufferSize_pos,
      fun hv => (h.verifying hv).of_eq rfl rfl rfl hbufEnd rfl rfl⟩
    all_goals simp only [LocalBlockReader.readBuffered]
    any_goals omega
    rw [show (r.position + min n (r.size - r.position)).toNat =
        r.position.toNat + (min n (r.size - r.position)).toNat by omega, ← List.drop_drop, h.unread,
      List.drop_take, List.drop_drop]
    congr 2 <;> omega

/-- **Refilling a verified buffer.** With the buffer used up and the block not, a verifying reader
refills `min(localBufferSize, length - cursor)` bytes, and with `position = 0` and `size` that
many it keeps the invariant. -/
theorem Inv.refill_verify (h : Inv dataFile metaFile r) (hv : r.verify = true)
    (hempty : r.size ≤ r.position) (hlt : r.cursor < r.length) :
    ∃ r₁, r.readAndVerify (min r.localBufferSize (r.length - r.cursor)) = .ok r₁ ∧
      Inv dataFile metaFile
        { r₁ with position := 0, size := min r.localBufferSize (r.length - r.cursor) } ∧
      r₁.cursor = r.cursor ∧ r₁.length = r.length ∧ r₁.verify = true := by
  have hver := h.verifying hv
  have hbufEnd := h.bufEnd_eq_cursor hempty
  obtain ⟨c, hc⟩ : ∃ c : Nat, r.chunkSize = c := ⟨r.chunkSize.toNat, by have := hver.chunkSize_pos; omega⟩
  have hcpos : 0 < c := by have := hver.chunkSize_pos; omega
  obtain ⟨L, hL⟩ : ∃ L : Nat, r.length = L := ⟨r.length.toNat, by have := h.cursor_nonneg; omega⟩
  have hdvd : c ∣ r.cursor.toNat := by
    rcases hver.bufEnd_aligned with hd | he
    · rw [hbufEnd, hc, show r.cursor = (r.cursor.toNat : Int) by have := h.cursor_nonneg; omega] at hd
      exact Int.natCast_dvd_natCast.mp hd
    · omega
  obtain ⟨j, hj⟩ := hdvd
  obtain ⟨rest, hrest⟩ := hver.metaFile_eq
  simp only [hc, hL, Int.toNat_natCast] at hrest
  obtain ⟨lbs, hlbs⟩ : ∃ lbs : Nat, r.localBufferSize = lbs :=
    ⟨r.localBufferSize.toNat, by have := h.bufferSize_pos; omega⟩
  have hlbsdvd : c ∣ lbs := by
    have := hver.bufferSize_dvd
    rw [hc, hlbs] at this
    exact Int.natCast_dvd_natCast.mp this
  have hcur : r.cursor = ↑(c * j) := by have := h.cursor_nonneg; omega
  set b := min lbs (L - c * j) with hb
  have hbInt : min r.localBufferSize (r.length - r.cursor) = (b : Int) := by
    rw [hb, hlbs, hL, hcur]
    push_cast
    omega
  have hLD : L ≤ dataFile.length := by have := h.length_le; omega
  have hmeta : r.metaFd = ⟨crcMetaFile c (dataFile.take L) rest, 7 + 4 * j⟩ := by
    rw [hver.metaFd_eq, hbufEnd, hc, hcur, hrest, ceil_toNat hcpos, ceil_mul hcpos]
  have hdata : r.dataFd = ⟨dataFile, c * j⟩ := by
    rw [h.dataFd_eq, hbufEnd, hcur, Int.toNat_natCast]
  have hend : c * j + b ≤ L := by omega
  have hlast : c ∣ b ∨ c * j + b = L := by
    by_cases hle : lbs ≤ L - c * j
    · exact .inl (by rw [hb, Nat.min_eq_left hle]; exact hlbsdvd)
    · exact .inr (by rw [hb, Nat.min_eq_right (by omega)]; omega)
  have hok := readAndVerify_ok (b := b) hv hc hcpos hver.checksumSize_eq hcur hLD
    hdata hmeta hend hlast
  rw [hbInt]
  refine ⟨_, hok, ?_, rfl, rfl, hv⟩
  have hP : ((dataFile.drop (c * j)).take b).length = b := by simp; omega
  have hbufEnd' : ((↑(c * j) : Int) + ((b : Int) - 0)) = ↑(c * j + b) := by omega
  refine ⟨?_, ?_, ?_, ?_, ?_, ?_, ?_, ?_, ?_, fun _ => ?_⟩ <;> dsimp only [bufEnd]
  · exact h.length_le
  · exact le_refl 0
  · omega
  · rw [hP]
  · exact h.cursor_nonneg
  · rw [hcur, hbufEnd', hL]
    omega
  · rw [hcur, Int.toNat_natCast, Int.toNat_zero, List.drop_zero]
    congr 1
  · rw [hcur, hbufEnd', Int.toNat_natCast]
  · exact h.bufferSize_pos
  · refine ⟨hver.chunkSize_pos, hver.checksumSize_eq, hver.bufferSize_dvd, ?_, ?_, hver.metaFile_eq⟩
    · rw [bufEnd]
      dsimp only
      rw [hcur, hbufEnd', hc, hL]
      rcases hlast with hd | he
      · exact .inl (Int.natCast_dvd_natCast.mpr (Nat.dvd_add (Nat.dvd_mul_right c j) hd))
      · exact .inr (by rw [he])
    · rw [bufEnd]
      dsimp only
      rw [hcur, hbufEnd', hc, hrest, ceil_toNat hcpos, ceil_mul_add hcpos, Nat.mul_add,
        Nat.add_assoc]

/-- **Refilling a buffer without verifying.** With the buffer used up and the block not, a reader
that does not verify reads `min(localBufferSize, length - cursor)` bytes of the block into its
buffer, and with `position = 0` and `size` that many it keeps the invariant. -/
theorem Inv.refill_plain (h : Inv dataFile metaFile r) (hv : r.verify = false)
    (hempty : r.size ≤ r.position) (hlt : r.cursor < r.length) :
    r.dataFd.read (min r.localBufferSize (r.length - r.cursor)) =
      .ok ((dataFile.drop r.cursor.toNat).take (min r.localBufferSize (r.length - r.cursor)).toNat,
        ⟨dataFile, (r.cursor + min r.localBufferSize (r.length - r.cursor)).toNat⟩) ∧
    Inv dataFile metaFile { r with
      pbuffer := (dataFile.drop r.cursor.toNat).take (min r.localBufferSize (r.length - r.cursor)).toNat
      dataFd := ⟨dataFile, (r.cursor + min r.localBufferSize (r.length - r.cursor)).toNat⟩
      position := 0
      size := min r.localBufferSize (r.length - r.cursor) } := by
  have hbufEnd := h.bufEnd_eq_cursor hempty
  have hpos := h.bufferSize_pos
  have hcur := h.cursor_nonneg
  have hL := h.length_le
  have hread := FileWrapper.read_ok (f := ⟨dataFile, r.cursor.toNat⟩)
    (n := (min r.localBufferSize (r.length - r.cursor)).toNat) (by dsimp only; omega)
  rw [show (((min r.localBufferSize (r.length - r.cursor)).toNat : Nat) : Int) =
    min r.localBufferSize (r.length - r.cursor) by omega] at hread
  dsimp only at hread
  refine ⟨by rw [h.dataFd_eq, hbufEnd, hread]; congr 3; omega, ?_⟩
  refine ⟨?_, ?_, ?_, ?_, ?_, ?_, ?_, ?_, ?_, fun hv' => absurd hv' (by simp [hv])⟩ <;>
    dsimp only [bufEnd]
  · exact h.length_le
  · exact le_refl 0
  · omega
  · simp only [List.length_take, List.length_drop]
    omega
  · exact hcur
  · omega
  · simp only [Int.toNat_zero, List.drop_zero, Int.sub_zero]
  · rw [Int.sub_zero]
  · exact hpos

/-- **Moving with the buffer used up.** A reader whose buffer is used up keeps the invariant when
its cursor and its data file move together to any point of the block, at a chunk boundary with the
meta file at that chunk's checksum when it verifies. -/
theorem Inv.moveTo (h : Inv dataFile metaFile r) (hempty : r.size ≤ r.position) {a : Int}
    {m : FileWrapper} (ha : 0 ≤ a) (hle : a ≤ r.length)
    (hmeta : r.verify = true → r.chunkSize ∣ a ∧ m = ⟨metaFile, 7 + 4 * (a / r.chunkSize).toNat⟩) :
    Inv dataFile metaFile { r with cursor := a, dataFd := ⟨dataFile, a.toNat⟩, metaFd := m } := by
  have hps : r.size = r.position := by have := h.position_le; omega
  have hbufEnd : bufEnd { r with cursor := a, dataFd := ⟨dataFile, a.toNat⟩, metaFd := m } = a := by
    simp only [bufEnd, hps, Int.sub_self, Int.add_zero]
  refine ⟨h.length_le, h.position_nonneg, h.position_le, h.size_eq, ha, by rw [hbufEnd]; exact hle,
    ?_, by rw [hbufEnd], h.bufferSize_pos, fun hv => ?_⟩
  · -- nothing of the buffer is left unread
    dsimp only
    rw [hps, Int.sub_self, Int.toNat_zero, List.take_zero]
    exact List.drop_eq_nil_of_le (by have := h.size_eq; omega)
  · obtain ⟨hdvd, hm⟩ := hmeta hv
    have hver := h.verifying hv
    have hcpos := hver.chunkSize_pos
    refine ⟨hcpos, hver.checksumSize_eq, hver.bufferSize_dvd, by rw [hbufEnd]; exact .inl hdvd, ?_,
      hver.metaFile_eq⟩
    rw [hbufEnd]
    dsimp only
    rw [hm]
    -- at a chunk boundary the chunks up to the cursor, rounded up or down, are the same
    obtain ⟨k, rfl⟩ := hdvd
    have hceil : (r.chunkSize * k + r.chunkSize - 1) / r.chunkSize = k := by
      rw [show r.chunkSize * k + r.chunkSize - 1 = (r.chunkSize - 1) + r.chunkSize * k by omega,
        Int.add_mul_ediv_left _ _ (by omega), Int.ediv_eq_zero_of_lt (by omega) (by omega),
        Int.zero_add]
    rw [hceil, Int.mul_ediv_cancel_left _ (by omega)]

/-- **Copying past the buffer.** With the buffer used up, `t` bytes of the block are read
straight from the data file, and the cursor moves on by `t`. -/
theorem Inv.copy (h : Inv dataFile metaFile r) (hv : r.verify = false)
    (hempty : r.size ≤ r.position) {t : Int} (ht : 0 ≤ t) (hle : t ≤ r.length - r.cursor) :
    r.dataFd.read t =
      .ok ((dataFile.drop r.cursor.toNat).take t.toNat, ⟨dataFile, (r.cursor + t).toNat⟩) ∧
    Inv dataFile metaFile { r with
      dataFd := ⟨dataFile, (r.cursor + t).toNat⟩
      cursor := r.cursor + t } := by
  have hbufEnd := h.bufEnd_eq_cursor hempty
  have hcur := h.cursor_nonneg
  have hL := h.length_le
  have hread := FileWrapper.read_ok (f := ⟨dataFile, r.cursor.toNat⟩) (n := t.toNat)
    (by dsimp only; omega)
  rw [show ((t.toNat : Nat) : Int) = t by omega] at hread
  dsimp only at hread
  refine ⟨by rw [h.dataFd_eq, hbufEnd, hread]; congr 3; omega, ?_⟩
  exact h.moveTo hempty (m := r.metaFd) (by omega) (by omega)
    fun hv' => absurd (hv.symm.trans hv') Bool.false_ne_true

/-- **A read.** On a reader with the invariant, `readInternal(n)` hands over the next `k` bytes of
the block, no more than asked for and at least one when asked for one inside the block, moves the
cursor on by `k` and keeps the invariant. -/
theorem Inv.readInternal (h : Inv dataFile metaFile r) {n : Int} (hn : 0 ≤ n) :
    ∃ k : Nat, ∃ r', r.readInternal n = .ok ((dataFile.drop r.cursor.toNat).take k, r') ∧
      Inv dataFile metaFile r' ∧ r'.cursor = r.cursor + k ∧ r'.length = r.length ∧
      r'.verify = r.verify ∧ (k : Int) ≤ n ∧ (0 < n → r.cursor < r.length → 0 < k) := by
  have hcl := h.cursor_le
  by_cases hbuf : r.position < r.size
  · -- the buffer holds unread bytes: copy from it
    obtain ⟨hbytes, hinv, hcur⟩ := h.readBuffered hn
    refine ⟨(min n (r.size - r.position)).toNat, _, ?_, hinv, by rw [hcur]; omega, rfl, rfl,
      by omega, fun _ _ => by omega⟩
    rw [LocalBlockReader.readInternal, if_pos hbuf, ← hbytes]
    rfl
  have hempty : r.size ≤ r.position := Int.not_lt.mp hbuf
  by_cases hzero : min n (r.length - r.cursor) = 0
  · -- nothing asked for, or the end of the block
    refine ⟨0, r, ?_, h, by omega, rfl, rfl, by omega, fun _ _ => by omega⟩
    simp only [LocalBlockReader.readInternal, if_neg hbuf, hzero, if_true, List.take_zero]
    rfl
  have hlt : r.cursor < r.length := by omega
  by_cases hbypass : (!r.verify && (decide (min n (r.length - r.cursor) > r.localBufferSize) ||
      decide (min n (r.length - r.cursor) = r.length - r.cursor))) = true
  · -- not verifying: copy straight from the data file
    have hv : r.verify = false := by simpa using (Bool.and_eq_true _ _).mp hbypass |>.1
    obtain ⟨hread, hinv⟩ := h.copy hv hempty (t := min n (r.length - r.cursor)) (by omega)
      (by omega)
    refine ⟨(min n (r.length - r.cursor)).toNat, _, ?_, hinv, by dsimp only; omega, rfl, rfl,
      by omega, fun _ _ => by omega⟩
    simp only [LocalBlockReader.readInternal, if_neg hbuf, hzero, if_false, hbypass, if_true,
      hread, bind, Except.bind, pure, Except.pure]
  -- refill the buffer, then copy from it
  have hbs : 0 < min r.localBufferSize (r.length - r.cursor) := by
    have := h.bufferSize_pos
    omega
  have hbs' : ¬ ¬ 0 < min r.localBufferSize (r.length - r.cursor) := not_not.mpr hbs
  cases hv : r.verify with
  | true =>
    obtain ⟨r₁, hrv, hinv, hcur₁, hlen₁, hv₁⟩ := h.refill_verify hv hempty hlt
    obtain ⟨hbytes, hinv', hcur'⟩ := hinv.readBuffered (n := min n (r.length - r.cursor))
      (by omega)
    dsimp only at hbytes
    have hbytes₁ := hbytes.trans (by rw [hcur₁])
    refine ⟨(min (min n (r.length - r.cursor)) (min r.localBufferSize (r.length - r.cursor) - 0)).toNat,
      _, ?_, hinv', by rw [hcur']; dsimp only; omega, hlen₁, hv₁, by omega, fun _ _ => by omega⟩
    simp only [LocalBlockReader.readInternal, if_neg hbuf, hzero, if_false, hv, Bool.not_true,
      Bool.false_and, Bool.false_eq_true, hbs', if_true, hrv, bind, Except.bind, pure, Except.pure]
    rw [← hbytes₁]
  | false =>
    simp only [hv, Bool.not_false, Bool.true_and] at hbypass
    obtain ⟨hread, hinv⟩ := h.refill_plain hv hempty hlt
    obtain ⟨hbytes, hinv', hcur'⟩ := hinv.readBuffered (n := min n (r.length - r.cursor))
      (by omega)
    dsimp only at hbytes
    refine ⟨(min (min n (r.length - r.cursor)) (min r.localBufferSize (r.length - r.cursor) - 0)).toNat,
      _, ?_, hinv', by rw [hcur']; dsimp only; omega, rfl, hv, by omega, fun _ _ => by omega⟩
    simp only [LocalBlockReader.readInternal, if_neg hbuf, hzero, if_false, hv, Bool.not_false,
      Bool.true_and, hbypass, hbs', Bool.false_eq_true, hread, bind, Except.bind, pure, Except.pure]
    rw [← hbytes, hv]

/-- **`read(buf, size)`** hands over what `readInternal` hands over. -/
theorem Inv.read (h : Inv dataFile metaFile r) {n : Int} (hn : 0 ≤ n) :
    ∃ k : Nat, ∃ r', r.read n = .ok ((dataFile.drop r.cursor.toNat).take k, r') ∧
      Inv dataFile metaFile r' ∧ r'.cursor = r.cursor + k ∧ r'.length = r.length ∧
      r'.verify = r.verify ∧ (k : Int) ≤ n ∧ (0 < n → r.cursor < r.length → 0 < k) := by
  obtain ⟨k, r', hread, hrest⟩ := h.readInternal hn
  exact ⟨k, r', by rw [LocalBlockReader.read, hread]; rfl, hrest⟩

end Reads

/-! ## Skipping -/

section Skip

variable {dataFile metaFile : List UInt8} {r : LocalBlockReader}

/-- **A skip past the buffer, not verifying**, moves the cursor and the data file to the target. -/
theorem Inv.skipRefill_plain (h : Inv dataFile metaFile r) (hv : r.verify = false)
    (hempty : r.size ≤ r.position) {todo : Int} (htodo : 0 < todo)
    (hlt : todo < r.length - r.cursor) :
    r.skipRefill todo = .ok ({ r with
      cursor := r.cursor + todo, dataFd := ⟨dataFile, (r.cursor + todo).toNat⟩ }, 0) ∧
    Inv dataFile metaFile { r with
      cursor := r.cursor + todo, dataFd := ⟨dataFile, (r.cursor + todo).toNat⟩ } := by
  have hc := h.cursor_nonneg
  refine ⟨?_, h.moveTo hempty (by omega) (by omega)
    fun hv' => absurd (hv.symm.trans hv') Bool.false_ne_true⟩
  have hpos : r.cursor + todo > 0 := by omega
  simp only [skipRefill, hv, Bool.false_eq_true, if_false, hpos, if_true, h.dataFd_eq,
    FileWrapper.seek, gt_iff_lt, lt_self_iff_false, pure, Except.pure]

/-- **A skip past the buffer, verifying**, moves back to the start of the chunk that holds the
target, refills the buffer from there when the target is inside the chunk, and leaves the rest of
the chunk up to the target to skip from the buffer. -/
theorem Inv.skipRefill_verify (h : Inv dataFile metaFile r) (hv : r.verify = true)
    (hempty : r.size ≤ r.position) {todo : Int} (htodo : 0 < todo)
    (hlt : todo < r.length - r.cursor) :
    ∃ r', r.skipRefill todo = .ok (r', (r.cursor + todo).tmod r.chunkSize) ∧
      Inv dataFile metaFile r' ∧ r'.cursor + (r.cursor + todo).tmod r.chunkSize = r.cursor + todo ∧
      (r.cursor + todo).tmod r.chunkSize ≤ r'.size - r'.position ∧ r'.length = r.length ∧
      r'.verify = true := by
  have hver := h.verifying hv
  have hcpos := hver.chunkSize_pos
  have hc := h.cursor_nonneg
  have hnn : 0 ≤ r.cursor + todo := by omega
  -- the cursor is at a chunk boundary, since the block goes on after it
  have hdvd : r.chunkSize ∣ r.cursor := by
    have hbufEnd := h.bufEnd_eq_cursor hempty
    rcases hver.bufEnd_aligned with hd | he
    · rwa [hbufEnd] at hd
    · omega
  set a := (r.cursor + todo) / r.chunkSize * r.chunkSize with ha
  set last := (r.cursor + todo) % r.chunkSize with hlast
  have hsplit : a + last = r.cursor + todo := by
    rw [ha, hlast, Int.mul_comm]
    exact Int.mul_ediv_add_emod _ _
  have hlast_nonneg : 0 ≤ last := Int.emod_nonneg _ (by omega)
  have hlast_lt : last < r.chunkSize := Int.emod_lt_of_pos _ hcpos
  have hcur_le : r.cursor ≤ a := by
    obtain ⟨j, hj⟩ := hdvd
    have hle : j ≤ (r.cursor + todo) / r.chunkSize :=
      (Int.le_ediv_iff_mul_le hcpos).mpr (by rw [hj, Int.mul_comm]; omega)
    rw [hj, ha, Int.mul_comm r.chunkSize j]
    exact Int.mul_le_mul_of_nonneg_right hle (by omega)
  have ha_dvd : r.chunkSize ∣ a := Int.dvd_mul_left _ _
  have hmoved := h.moveTo hempty (a := a)
    (m := ⟨metaFile, 7 + 4 * (a / r.chunkSize).toNat⟩) (by omega) (by omega) fun _ => ⟨ha_dvd, rfl⟩
  rw [hv] at hmoved
  -- the data and meta files after the seeks
  have hmeta : r.metaFd.seek (headerSize + r.checksumSize * a.tdiv r.chunkSize) =
      ⟨metaFile, 7 + 4 * (a / r.chunkSize).toNat⟩ := by
    have hq : 0 ≤ a / r.chunkSize := Int.ediv_nonneg (by omega) (by omega)
    rw [hver.metaFd_eq, hver.checksumSize_eq, Int.tdiv_eq_ediv_of_nonneg (by omega)]
    simp only [FileWrapper.seek, headerSize]
    congr 1
    omega
  -- the data file moves to the new cursor, or stays at the start of the block
  have hbufEnd := h.bufEnd_eq_cursor hempty
  have hseek : a > 0 → r.dataFd.seek a = ⟨dataFile, a.toNat⟩ := fun _ => by
    rw [h.dataFd_eq, FileWrapper.seek]
  have hstay : ¬ a > 0 → r.dataFd = ⟨dataFile, a.toNat⟩ := fun _ => by
    rw [h.dataFd_eq, hbufEnd, show r.cursor = a by omega]
  simp only [skipRefill, hv, if_true, Int.tmod_eq_emod_of_nonneg hnn, Int.tdiv_eq_ediv_of_nonneg hnn]
  rw [← ha, ← hlast, hmeta]
  simp +contextual only [hseek, hstay, not_false_eq_true, ite_self, Bool.true_eq_false, if_false]
  by_cases hl : last > 0
  · -- the target is inside the chunk: refill the buffer from its start
    obtain ⟨r₃, hrv, hinv₃, hcur₃, hlen₃, hv₃⟩ :=
      hmoved.refill_verify rfl (by dsimp only; omega) (by dsimp only; omega)
    dsimp only at hrv hinv₃ hcur₃ hlen₃
    simp only [hl, if_true, hrv, bind, Except.bind, pure, Except.pure]
    have hbs : last ≤ min r.localBufferSize (r.length - a) := by
      have hle : r.chunkSize ≤ r.localBufferSize :=
        Int.le_of_dvd h.bufferSize_pos hver.bufferSize_dvd
      omega
    exact ⟨_, rfl, hinv₃, by dsimp only; omega, by dsimp only; omega, hlen₃, hv₃⟩
  · -- the target is the start of the chunk
    have hl0 : last = 0 := by omega
    have hps := h.position_le
    simp only [hl, if_false, pure, Except.pure]
    exact ⟨_, rfl, hmoved, by dsimp only; omega, by dsimp only; omega, rfl, rfl⟩

theorem skipLoop_of_nonpos {fuel : Nat} {todo : Int} (ht : todo ≤ 0) :
    skipLoop fuel r todo = .ok r := by
  cases fuel <;> rw [skipLoop, if_pos ht] <;> rfl

/-- A round that skips from the buffer moves as `readBuffered` does. -/
theorem skipLoop_buffered {fuel : Nat} {todo : Int} (ht : 0 < todo) (hbuf : r.position < r.size) :
    skipLoop (fuel + 1) r todo =
      skipLoop fuel (r.readBuffered todo).2 (todo - min todo (r.size - r.position)) := by
  rw [skipLoop, if_neg (by omega), if_pos (by omega)]
  rfl

theorem skipLoop_refill {fuel : Nat} {todo todo' : Int} {r' : LocalBlockReader} (ht : 0 < todo)
    (hempty : r.size ≤ r.position) (hrefill : r.skipRefill todo = .ok (r', todo')) :
    skipLoop (fuel + 1) r todo = skipLoop fuel r' todo' := by
  rw [skipLoop, if_neg (by omega), if_neg (by omega), hrefill]
  rfl

/-- **A skip with the buffer used up** takes at most two rounds: the refill, then, verifying, the
rest of the chunk from the buffer. -/
theorem Inv.skipLoop_empty_ok (h : Inv dataFile metaFile r) (hempty : r.size ≤ r.position)
    {todo : Int} (ht : 0 < todo) (hlt : todo < r.length - r.cursor) (fuel : Nat) :
    ∃ r', skipLoop (fuel + 2) r todo = .ok r' ∧ Inv dataFile metaFile r' ∧
      r'.cursor = r.cursor + todo ∧ r'.length = r.length ∧ r'.verify = r.verify := by
  cases hv : r.verify with
  | false =>
    obtain ⟨hrefill, hinv⟩ := h.skipRefill_plain hv hempty ht hlt
    refine ⟨_, ?_, hinv, rfl, rfl, hv⟩
    rw [skipLoop_refill ht hempty hrefill, skipLoop_of_nonpos (Int.le_refl 0)]
  | true =>
    obtain ⟨r', hrefill, hinv, hcur, hle, hlen, hv'⟩ := h.skipRefill_verify hv hempty ht hlt
    rw [skipLoop_refill ht hempty hrefill]
    have hnn : 0 ≤ (r.cursor + todo).tmod r.chunkSize :=
      Int.tmod_nonneg _ (by have := h.cursor_nonneg; omega)
    by_cases hl : (r.cursor + todo).tmod r.chunkSize ≤ 0
    · exact ⟨r', skipLoop_of_nonpos hl, hinv, by omega, hlen, hv'⟩
    · -- the rest of the chunk, from the refilled buffer
      obtain ⟨-, hinv', hcur'⟩ := hinv.readBuffered (n := (r.cursor + todo).tmod r.chunkSize)
        (by omega)
      refine ⟨_, ?_, hinv', by rw [hcur']; omega, hlen, hv'⟩
      rw [skipLoop_buffered (by omega) (by omega), skipLoop_of_nonpos (by omega)]

/-- **Three rounds are enough.** From a reader with the invariant, `skip`'s loop over any
distance inside the block skips it: the buffer, the refill and the rest of the chunk. -/
theorem Inv.skipLoop_ok (h : Inv dataFile metaFile r) {todo : Int} (ht : 0 ≤ todo)
    (hlt : todo < r.length - r.cursor) :
    ∃ r', skipLoop 3 r todo = .ok r' ∧ Inv dataFile metaFile r' ∧
      r'.cursor = r.cursor + todo ∧ r'.length = r.length ∧ r'.verify = r.verify := by
  by_cases hz : todo ≤ 0
  · exact ⟨r, skipLoop_of_nonpos hz, h, by omega, rfl, rfl⟩
  have ht' : 0 < todo := by omega
  by_cases hbuf : r.position < r.size
  · -- skip what the buffer holds first
    obtain ⟨-, hinv, hcur⟩ := h.readBuffered ht
    rw [skipLoop_buffered ht' hbuf]
    by_cases hrest : todo - min todo (r.size - r.position) ≤ 0
    · exact ⟨_, skipLoop_of_nonpos hrest, hinv, by rw [hcur]; omega, rfl, rfl⟩
    · obtain ⟨r', hloop, hinv', hcur', hlen', hv'⟩ := hinv.skipLoop_empty_ok
        (by simp only [LocalBlockReader.readBuffered]; omega)
        (show 0 < todo - min todo (r.size - r.position) by omega)
        (by rw [hcur]; simp only [LocalBlockReader.readBuffered]; omega) 0
      exact ⟨r', hloop, hinv', by rw [hcur', hcur]; omega, hlen', hv'⟩
  · exact h.skipLoop_empty_ok (by omega) ht' hlt 1

/-- **`skip(len)`** moves the cursor on by `len`, for any `len` inside the block. -/
theorem Inv.skip (h : Inv dataFile metaFile r) {len : Int} (hlen : 0 ≤ len)
    (hlt : len < r.length - r.cursor) :
    ∃ r', r.skip len = .ok r' ∧ Inv dataFile metaFile r' ∧ r'.cursor = r.cursor + len ∧
      r'.length = r.length ∧ r'.verify = r.verify := by
  obtain ⟨r', hloop, hrest⟩ := h.skipLoop_ok hlen hlt
  exact ⟨r', by rw [LocalBlockReader.skip, if_neg (not_not.mpr hlt), hloop]; rfl, hrest⟩

end Skip

/-! ## Opening a replica -/

section Open

variable {dataFile metaFile : List UInt8} {numBytes offset localReadBufferSize : Int} {verify : Bool}

theorem crcMetaFile_header (c : Nat) (block rest : List UInt8) :
    (crcMetaFile c block rest).take 7 = [0, 1, 2] ++ Endian.beBytes c 4 := by
  rw [crcMetaFile, List.append_assoc]
  exact List.take_left' (by simp)

/-- A bytes per checksum that fits an `int32_t` reads back as itself. -/
theorem readBigEndian32FromArray_beBytes {c : Nat} (hc : c < 2 ^ 31) :
    readBigEndian32FromArray (Endian.beBytes c 4) = c := by
  have h4 : (Endian.beBytes c 4).take 4 = Endian.beBytes c 4 := List.take_of_length_le (by simp)
  have hnat : (BitVec.ofNat 32 c).toNat = c := by
    rw [BitVec.toNat_ofNat, Nat.mod_eq_of_lt (by omega)]
  rw [readBigEndian32FromArray, h4, Endian.beDecode_beBytes _ _ (by omega),
    BitVec.toInt_eq_toNat_of_lt (by rw [hnat]; omega), hnat]

/-- **Opening from the start.** A constructor that reaches a reader at the start of the block with
the invariant opens at every offset inside the block, with the cursor there. -/
theorem new_of_start (hstart : ∃ r₀, init dataFile metaFile numBytes offset verify localReadBufferSize =
      (if offset > 0 then r₀.skip offset else pure r₀) ∧
      Inv dataFile metaFile r₀ ∧ r₀.cursor = 0 ∧ r₀.length = numBytes)
    (hoffset : 0 ≤ offset) (hlt : offset < numBytes) :
    ∃ r, new dataFile metaFile numBytes offset verify localReadBufferSize = .ok r ∧
      Inv dataFile metaFile r ∧ r.cursor = offset ∧ r.length = numBytes := by
  obtain ⟨r₀, hinit, hinv, hcur, hlen⟩ := hstart
  by_cases hpos : offset > 0
  · obtain ⟨r, hskip, hinv', hcur', hlen', -⟩ := hinv.skip hoffset (by omega)
    refine ⟨r, ?_, hinv', by omega, by omega⟩
    rw [new, hinit, if_pos hpos, hskip]
    rfl
  · refine ⟨r₀, ?_, hinv, by omega, hlen⟩
    rw [new, hinit, if_neg hpos]
    rfl

/-- A reader at the start of the block with nothing buffered has the invariant. -/
theorem Inv.start {r : LocalBlockReader} (hpos : r.position = 0) (hsize : r.size = 0)
    (hcur : r.cursor = 0) (hbuf : r.pbuffer = []) (hdata : r.dataFd = ⟨dataFile, 0⟩)
    (hlen : 0 ≤ r.length) (hle : r.length ≤ dataFile.length) (hlbs : 0 < r.localBufferSize)
    (hver : r.verify = true → Verifying dataFile metaFile r) : Inv dataFile metaFile r := by
  have hbufEnd : r.bufEnd = 0 := by simp only [bufEnd, hpos, hsize, hcur]; rfl
  refine ⟨hle, by omega, by omega, by rw [hsize, hbuf]; rfl, by omega, by omega, ?_,
    by rw [hdata, hbufEnd]; rfl, hlbs, hver⟩
  rw [hbuf, hpos, hsize]
  rfl

/-- The header of a meta file, read by the constructor. -/
theorem read_header {metaFile header : List UInt8} (hheader : metaFile.take 7 = header)
    (hlen : 7 ≤ metaFile.length) :
    FileWrapper.read ⟨metaFile, 0⟩ headerSize = .ok (header, ⟨metaFile, 7⟩) := by
  have hread := FileWrapper.read_ok (f := ⟨metaFile, 0⟩) (n := 7) (by dsimp only; omega)
  dsimp only at hread
  rw [List.drop_zero, hheader] at hread
  exact hread

/-- **A CRC32C replica** opens at the start of the block with the invariant, verifying or not. -/
theorem init_crc32c_start {c : Nat} (hc : 0 < c) (hc' : c < 2 ^ 31) (rest : List UInt8)
    (hlen : 0 ≤ numBytes) (hdata : numBytes ≤ dataFile.length) (hbuf : 0 < localReadBufferSize)
    (hfit : localReadBufferSize + c < 2 ^ 31) :
    ∃ r₀, init dataFile (crcMetaFile c (dataFile.take numBytes.toNat) rest) numBytes offset verify
        localReadBufferSize = (if offset > 0 then r₀.skip offset else pure r₀) ∧
      Inv dataFile (crcMetaFile c (dataFile.take numBytes.toNat) rest) r₀ ∧ r₀.cursor = 0 ∧
      r₀.length = numBytes := by
  have hheader := read_header (crcMetaFile_header c (dataFile.take numBytes.toNat) rest)
    (by simp [crcMetaFile])
  have htype : ((2 : UInt8).toBitVec.toInt) = 2 := rfl
  have hsum : ¬ (2 ^ 31 ≤ localReadBufferSize + (c : Int)) := by omega
  simp only [init, hheader, List.cons_append, List.nil_append, bind, Except.bind, hsum,
    readBigEndian16FromArray_version, ne_eq, not_true_eq_false, if_false, List.getD_cons_succ,
    List.getD_cons_zero, htype, List.drop_succ_cons, List.drop_zero,
    readBigEndian32FromArray_beBytes hc', pure, Except.pure, show (2 : Int) ≠ 0 by decide,
    show (2 : Int) ≠ 1 by decide, if_true, show ¬ (c : Int) ≤ 0 by omega, and_false, if_false]
  refine ⟨_, rfl, Inv.start rfl rfl rfl rfl rfl hlen hdata ?_ fun hv => ?_, rfl, rfl⟩
  · -- a buffer of at least one chunk
    dsimp only
    split_ifs
    · have hq : 1 ≤ (localReadBufferSize + c - 1) / c :=
        (Int.le_ediv_iff_mul_le (by omega)).mpr (by omega)
      rw [Int.tdiv_eq_ediv_of_nonneg (by omega)]
      exact Int.mul_pos (by omega) (by omega)
    · exact hbuf
  · -- at the first chunk, with the meta file at its checksum
    have hbufEnd : bufEnd ⟨verify, 4, c, if verify = true then (localReadBufferSize + c - 1).tdiv c * c
        else localReadBufferSize, 0, 0, 0, numBytes, [], ⟨dataFile, 0⟩,
        ⟨crcMetaFile c (dataFile.take numBytes.toNat) rest, 7⟩⟩ = 0 := rfl
    refine ⟨by dsimp only; omega, rfl, ?_, by rw [hbufEnd]; exact .inl (Int.dvd_zero _), ?_,
      ⟨rest, by rw [Int.toNat_natCast]⟩⟩
    · dsimp only
      rw [if_pos hv]
      exact Int.dvd_mul_left _ _
    · rw [hbufEnd]
      dsimp only
      rw [Int.zero_add, Int.ediv_eq_zero_of_lt (by omega) (by omega)]
      rfl

end Open

/-! ## A cursor over the block -/

/-- **What a call on a cursor over `block` answers, and where it leaves the cursor.** `read(n)`
hands over the next `k` bytes of the block, no more than asked for and at least one when asked for
one before the end, and moves the cursor on by `k`; `skip(len)` inside the block moves the cursor
on by `len`. -/
inductive BlockStep (block : List UInt8) : Int → BlockReaderCall → List UInt8 → Int → Prop
  | read {c n : Int} {k : Nat} : (k : Int) ≤ n → c + k ≤ block.length →
      (0 < n → c < block.length → 0 < k) →
      BlockStep block c (.read n) ((block.drop c.toNat).take k) (c + k)
  | skip {c len : Int} : 0 ≤ len → len < block.length - c → BlockStep block c (.skip len) [] (c + len)

/-- Calls in turn on the cursor, with their answers; a skip to or past the end of the block stops
the run with the failed assertion. -/
inductive BlockRun (block : List UInt8) :
    Int → List BlockReaderCall → List (Except LocalReadError (List UInt8)) → Int → Prop
  | nil {c : Int} : BlockRun block c [] [] c
  | cons {c c' c'' : Int} {call : BlockReaderCall} {calls : List BlockReaderCall} {bytes : List UInt8}
      {answers : List (Except LocalReadError (List UInt8))} :
      BlockStep block c call bytes c' → BlockRun block c' calls answers c'' →
      BlockRun block c (call :: calls) (.ok bytes :: answers) c''
  | skipPastEnd {c len : Int} {calls : List BlockReaderCall} : (block.length : Int) - c ≤ len →
      BlockRun block c (.skip len :: calls) [.error .assertionFailed] c

section Run

variable {dataFile metaFile : List UInt8} {r : LocalBlockReader}

/-- The block's bytes at the cursor, as the data file holds them. -/
theorem take_drop_block {L c : Int} {k : Nat} (hc : 0 ≤ c) (hk : c + k ≤ L) :
    ((dataFile.take L.toNat).drop c.toNat).take k = (dataFile.drop c.toNat).take k := by
  rw [List.drop_take, List.take_take]
  congr 1
  omega

/-- **Each call is a step of the cursor.** On a reader with the invariant, a call forward answers as
the cursor over the block does and keeps the invariant, or is a skip to or past the end of the
block, which fails its assertion. -/
theorem Inv.apply_step (h : Inv dataFile metaFile r) {call : BlockReaderCall} (hcall : call.Forward) :
    (∃ bytes r', r.apply call = .ok (bytes, r') ∧
      BlockStep (dataFile.take r.length.toNat) r.cursor call bytes r'.cursor ∧
      Inv dataFile metaFile r' ∧ r'.length = r.length) ∨
    (∃ len, call = .skip len ∧ r.length - r.cursor ≤ len ∧ r.apply call = .error .assertionFailed) := by
  have hblock := h.length_block
  have hc := h.cursor_nonneg
  cases call with
  | read n =>
    obtain ⟨k, r', hread, hinv, hcur, hlen, -, hkn, hpos⟩ := h.read hcall
    have hend : r.cursor + k ≤ r.length := by
      have := hinv.cursor_le
      omega
    refine .inl ⟨_, r', hread, ?_, hinv, hlen⟩
    rw [hcur, ← take_drop_block hc hend]
    exact .read hkn (by omega) fun hn hlt => hpos hn (by omega)
  | skip len =>
    by_cases hlt : len < r.length - r.cursor
    · obtain ⟨r', hskip, hinv, hcur, hlen, -⟩ := h.skip hcall hlt
      refine .inl ⟨[], r', by rw [apply, hskip]; rfl, ?_, hinv, hlen⟩
      rw [hcur]
      exact .skip hcall (by omega)
    · refine .inr ⟨len, rfl, by omega, ?_⟩
      rw [apply, LocalBlockReader.skip, if_pos hlt]
      rfl

/-- **A run is a run of the cursor.** From a reader with the invariant, calls forward answer as the
cursor over the block does, up to a skip to or past the end of the block. -/
theorem Inv.run_follows_block (h : Inv dataFile metaFile r) (calls : List BlockReaderCall)
    (hcalls : ∀ call ∈ calls, call.Forward) :
    BlockRun (dataFile.take r.length.toNat) r.cursor calls (r.run calls).1 (r.run calls).2.cursor := by
  -- induction on the calls, the step lemma at each
  induction calls generalizing r with
  | nil => exact .nil
  | cons call calls ih =>
    rcases h.apply_step (hcalls call List.mem_cons_self) with
      ⟨bytes, r', happly, hstep, hinv, hlen⟩ | ⟨len, rfl, hpast, happly⟩
    · have hrun := ih hinv fun c hc => hcalls c (List.mem_cons_of_mem call hc)
      rw [hlen] at hrun
      simp only [run, happly]
      exact .cons hstep hrun
    · simp only [run, happly]
      have hblock := h.length_block
      exact .skipPastEnd (by omega)

end Run

end LocalBlockReader

end HdfsClient
