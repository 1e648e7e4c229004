import HdfsClient.Client.OutputStreamData
import HdfsClient.Lib.Endian

/-!
# The write buffer

`WriteBuffer` (`common/WriteBuffer.cpp`) is where the client builds what it sends: RPC frames,
data transfer requests, status replies. It is a `std::vector<char>`, of `WRITEBUFFER_INIT_SIZE`
bytes at first, and a data size `size` that never passes the vector's end. `alloc(offset, s)`
grows the vector when `offset + s` reaches its end, to twice its size at least, and makes
`offset + s` the data size; the caller copies its bytes into the room it hands back. Every
`write` takes a position `pos` and, whatever its documentation says, does not use it: it
allocates at `size` and copies there.

The varints come from protobuf (`google/protobuf/io/coded_stream.h`), which is not part of the
client: `CodedOutputStream` stands for the two functions of it that the client calls, with the one
fact about them that it relies on.

* `contents_write` — from every buffer, a write appends its bytes to the data.
-/

namespace HdfsClient

/-- What goes wrong while bytes are put in a `WriteBuffer`: `alloc` handing back `NULL` for an
offset past the data, which the caller's copy then writes through. -/
inductive BufferError
  | nullRegion
  deriving DecidableEq, Repr

@[simp] theorem except_ok_bind {ε α β : Type} (a : α) (f : α → Except ε β) :
    (Except.ok a >>= f) = f a := rfl

/-- `WRITEBUFFER_INIT_SIZE`. -/
def WRITEBUFFER_INIT_SIZE : Nat := 64

/-- A `WriteBuffer`: the data size and the vector; the data are the first `size` bytes. -/
structure WriteBuffer where
  size : Nat
  buffer : List UInt8
  size_le : size ≤ buffer.length

/-- A copy into a vector never makes it shorter. -/
theorem length_le_overwrite (l chunk : List UInt8) (pos : Nat) :
    l.length ≤ (overwrite l pos chunk).length := by
  simp only [overwrite, List.length_append, List.length_take, List.length_drop]
  omega

namespace WriteBuffer

/-- `WriteBuffer()`. -/
def new : WriteBuffer := ⟨0, List.replicate WRITEBUFFER_INIT_SIZE 0, Nat.zero_le _⟩

/-- The bytes that `getBuffer(0)` points at and `getDataSize(0)` counts. -/
def contents (b : WriteBuffer) : List UInt8 := b.buffer.take b.size

/-- The vector `alloc` leaves for a region that ends at `target`: when `target` reaches the end,
resized to `target` or to twice its size, whichever is more. -/
def grow (buffer : List UInt8) (target : Nat) : List UInt8 :=
  if target ≥ buffer.length then resize buffer (max target (2 * buffer.length)) else buffer

theorem le_length_grow (buffer : List UInt8) (target : Nat) : target ≤ (grow buffer target).length := by
  unfold grow
  split
  · rw [length_resize]
    omega
  · omega

/-- `alloc(offset, s)`: `NULL` for an offset past the data; otherwise the vector grown to hold
`offset + s` bytes, and `offset + s` the data size. -/
def alloc (b : WriteBuffer) (offset s : Nat) : Except BufferError WriteBuffer :=
  if offset > b.size then .error .nullRegion
  else .ok ⟨offset + s, grow b.buffer (offset + s), le_length_grow _ _⟩

/-- The caller's copy into the room `alloc` handed back (`memcpy`, `SerializeToArray`). -/
def fill (b : WriteBuffer) (offset : Nat) (bytes : List UInt8) : WriteBuffer :=
  ⟨b.size, overwrite b.buffer offset bytes, le_trans b.size_le (length_le_overwrite _ _ _)⟩

/-- `write(bytes, s, pos)`: `alloc(size, s)` and a copy there; `pos` is not used. -/
def write (b : WriteBuffer) (bytes : List UInt8) (_pos : Nat) : Except BufferError WriteBuffer := do
  let b' ← b.alloc b.size bytes.length
  pure (b'.fill b.size bytes)

/-- `write(char value, pos)`: calls `write(&value, sizeof(value))`. -/
def writeChar (b : WriteBuffer) (value : UInt8) (_pos : Nat) : Except BufferError WriteBuffer :=
  b.write [value] b.size

/-- `writeBigEndian(int16_t value, pos)`: `htons`, then `write(&v, sizeof(v))`. -/
def writeBigEndian16 (b : WriteBuffer) (value : Int16) (_pos : Nat) : Except BufferError WriteBuffer :=
  b.write (Endian.beBytes value.toBitVec.toNat 2) b.size

/-- `writeBigEndian(int32_t value, pos)`: `htonl`, then `write(&v, sizeof(v), pos)`. -/
def writeBigEndian32 (b : WriteBuffer) (value : Int32) (pos : Nat) : Except BufferError WriteBuffer :=
  b.write (Endian.beBytes value.toBitVec.toNat 4) pos

end WriteBuffer

/-! ## Varints -/

/-- The two functions of protobuf's `CodedOutputStream` the client calls, and what it assumes of
them: `VarintSize32(value)`, a `size_t` since protobuf 3, is the number of bytes
`WriteVarint32ToArray(value, target)` writes. -/
structure CodedOutputStream where
  WriteVarint32ToArray : UInt32 → List UInt8
  VarintSize32 : UInt32 → Nat
  length_WriteVarint32ToArray : ∀ value, (WriteVarint32ToArray value).length = VarintSize32 value

/-- Protobuf's encoding: while `value ≥ 0x80`, the byte `value | 0x80` and `value >>= 7`; then the
byte `value`. A `uint32` takes at most five. -/
def CodedOutputStream.base128 : CodedOutputStream where
  WriteVarint32ToArray value := Endian.base128Bytes 5 value.toNat
  VarintSize32 value :=
    if value.toNat < 2 ^ 7 then 1
    else if value.toNat < 2 ^ 14 then 2
    else if value.toNat < 2 ^ 21 then 3
    else if value.toNat < 2 ^ 28 then 4
    else 5
  length_WriteVarint32ToArray value := by
    have hv := value.toNat_lt
    simp only [Endian.base128Bytes]
    split_ifs <;> simp <;> omega

example : CodedOutputStream.base128.WriteVarint32ToArray 300 = [0xAC, 0x02] := by decide

/-- `writeVarint32(value, pos)`: the varint of `value` as a `uint32`, then `write(buffer, len, pos)`. -/
def WriteBuffer.writeVarint32 (cos : CodedOutputStream) (b : WriteBuffer) (value : Int32)
    (pos : Nat) : Except BufferError WriteBuffer :=
  b.write (cos.WriteVarint32ToArray value.toUInt32) pos

/-! ## A write appends -/

namespace WriteBuffer

variable (b : WriteBuffer) (bytes : List UInt8)

theorem alloc_size (s : Nat) : b.alloc b.size s = .ok ⟨b.size + s, grow b.buffer (b.size + s), le_length_grow _ _⟩ :=
  if_neg (Nat.lt_irrefl _)

/-- Growing keeps the data: the bytes before the old end are those of the old vector. -/
theorem take_grow (target : Nat) : (grow b.buffer target).take b.size = b.contents := by
  unfold grow contents
  split
  · rw [resize, List.take_append_of_le_length (by simp; have := b.size_le; omega), List.take_take]
    congr 1
    have := b.size_le
    omega
  · rfl

/-- **A write appends.** Whatever the position, a write puts its bytes after the data. -/
theorem write_eq (pos : Nat) :
    b.write bytes pos = .ok ⟨b.size + bytes.length, overwrite (grow b.buffer (b.size + bytes.length)) b.size bytes,
      le_trans (le_length_grow _ _) (length_le_overwrite _ _ _)⟩ := by
  simp only [write, alloc_size]
  rfl

theorem contents_write (pos : Nat) {b' : WriteBuffer} (h : b.write bytes pos = .ok b') :
    b'.contents = b.contents ++ bytes := by
  rw [write_eq, Except.ok.injEq] at h
  subst h
  have hroom : b.size + bytes.length ≤ (grow b.buffer (b.size + bytes.length)).length :=
    le_length_grow _ _
  rw [contents, take_overwrite hroom, take_grow]

/-! ## Writers -/

/-- A writer appends `bytes`: from every buffer it succeeds, and the data grow by `bytes`. -/
def Appends (f : WriteBuffer → Except BufferError WriteBuffer) (bytes : List UInt8) : Prop :=
  ∀ b, ∃ b', f b = .ok b' ∧ b'.contents = b.contents ++ bytes

theorem Appends.pure : Appends (fun b => .ok b) [] := fun b => ⟨b, rfl, (List.append_nil _).symm⟩

theorem Appends.of_eq {f : WriteBuffer → Except BufferError WriteBuffer} {xs ys : List UInt8}
    (hf : Appends f xs) (h : xs = ys) : Appends f ys := h ▸ hf

/-- One writer after another appends what the first appends, then what the second does. -/
theorem Appends.bind {f g : WriteBuffer → Except BufferError WriteBuffer} {xs ys : List UInt8}
    (hf : Appends f xs) (hg : Appends g ys) : Appends (fun b => f b >>= g) (xs ++ ys) := by
  intro b
  obtain ⟨b₁, hb₁, hc₁⟩ := hf b
  obtain ⟨b₂, hb₂, hc₂⟩ := hg b₁
  refine ⟨b₂, ?_, ?_⟩
  · show f b >>= g = _
    rw [hb₁]
    exact hb₂
  · rw [hc₂, hc₁, List.append_assoc]

/-- Sequencing: after a writer that appends `xs`, the rest of the program runs on a buffer whose
data are the old data followed by `xs`. -/
theorem Appends.bind_eq {f : WriteBuffer → Except BufferError WriteBuffer} {xs : List UInt8}
    {α : Type} (hf : Appends f xs) (b : WriteBuffer) {k : WriteBuffer → Except BufferError α}
    {r : Except BufferError α} (hk : ∀ b', b'.contents = b.contents ++ xs → k b' = r) :
    f b >>= k = r := by
  obtain ⟨b', hb', hc'⟩ := hf b
  rw [hb', except_ok_bind]
  exact hk b' hc'

theorem appends_write (bytes : List UInt8) : Appends (fun b => b.write bytes b.size) bytes :=
  fun b => ⟨_, write_eq b bytes b.size, contents_write b bytes b.size (write_eq b bytes b.size)⟩

theorem appends_writeChar (value : UInt8) : Appends (fun b => b.writeChar value b.size) [value] :=
  appends_write [value]

theorem appends_writeBigEndian16 (value : Int16) :
    Appends (fun b => b.writeBigEndian16 value b.size) (Endian.beBytes value.toBitVec.toNat 2) :=
  appends_write _

theorem appends_writeBigEndian32 (value : Int32) :
    Appends (fun b => b.writeBigEndian32 value b.size) (Endian.beBytes value.toBitVec.toNat 4) :=
  appends_write _

theorem appends_writeVarint32 (cos : CodedOutputStream) (value : Int32) :
    Appends (fun b => b.writeVarint32 cos value b.size) (cos.WriteVarint32ToArray value.toUInt32) :=
  appends_write _

theorem contents_new : new.contents = [] := rfl

end WriteBuffer

end HdfsClient
