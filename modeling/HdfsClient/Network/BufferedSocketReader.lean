import HdfsClient.Lib.Endian

/-!
# The buffered socket reader

`BufferedSocketReaderImpl` (`network/BufferedSocketReader.cpp`) puts a buffer in front of a
socket. `read` and `readFully` serve buffered bytes before they touch the socket;
`readVarint32` compacts the buffer, then fills it from the socket until
`CodedInputStream::ReadVarint32` can decode a varint from the buffered bytes. A reader built
with a zero-size buffer borrows eight bytes for `readVarint32` and reads one byte at a time.

The model:

* `Socket` — what the peer will do: the bytes it sends, how many bytes each `recv` returns,
  and how long each wait for data takes.
* `BufferedSocketReaderImpl` — `cursor`, the valid bytes `buffer[0, size)`, `buffer.size()`
  and the socket, with `read`, `readFully`, `readBigEndianInt32` and `readVarint32`.
* The decoder is a parameter `dec`; `DecodesPrefix dec` is all the reader needs of it, and
  `varint32` (protobuf's base-128 rule) has it.

The specification: `pending` is the stream a client still has to see (the unread buffered bytes,
then the socket's), and `Serves` says how a call consumes a stream from the front.

**Theorem** (`run_servesAll`). For every sequence of calls, the answers are those of consuming
`pending` from the front, and `Inv` holds after every call. With a buffer, `Inv` is
`cursor ≤ size ≤ buffer.size()`; with a zero-size buffer, `size` may pass `buffer.size() = 0`
after `readVarint32` (`readVarint32_zero_buffer_size_past_capacity`), and what holds is that
nothing stays buffered (`cursor = size`), so that `readVarint32` takes from the socket exactly the
varint's bytes (`readVarint32_zero_buffer`).
-/

namespace HdfsClient

open Endian

/-! ## The socket -/

/-- The errors of the reader, with the data of their messages. -/
inductive ReadError
  /-- `HdfsEndOfStream`: the peer has closed the connection. -/
  | endOfStream
  /-- `HdfsNetworkException`: "Invalid varint type or buffer is too small, buffer size = %d." -/
  | invalidVarint (bufferSize : Nat)
  /-- `HdfsTimeoutException`: "Read %d bytes timeout". -/
  | timeout (size : Nat)
  /-- The loop bound of the model ran out; `readVarint32_ne_outOfFuel` shows it never does. -/
  | outOfFuel
  deriving DecidableEq, Repr

/-- What the socket will do: the bytes the peer sends that the reader has not taken, how many
bytes each `read` returns in turn, and how many milliseconds each wait for data takes. -/
structure Socket where
  stream : List UInt8
  chunks : List Nat
  waits : List Nat
  deriving DecidableEq, Repr

namespace Socket

/-- `Socket::read(b, s)`: at least one byte and at most `s`, as many as the next chunk and the
peer allow; `HdfsEndOfStream` once the peer has nothing left. -/
def read (so : Socket) (s : Nat) : Except ReadError (List UInt8 × Socket) :=
  if so.stream = [] then .error .endOfStream
  else
    let k := min so.stream.length (max 1 (min s (so.chunks.headD s)))
    .ok (so.stream.take k, { so with stream := so.stream.drop k, chunks := so.chunks.tail })

/-- `Socket::readFully(b, s, timeout)`: exactly `s` bytes, or `HdfsEndOfStream`. -/
def readFully (so : Socket) (s : Nat) : Except ReadError (List UInt8 × Socket) :=
  if s ≤ so.stream.length then .ok (so.stream.take s, { so with stream := so.stream.drop s })
  else .error .endOfStream

/-- One wait for data (`poll` and the clock around it): the milliseconds it took. -/
def wait (so : Socket) : Nat × Socket := (so.waits.headD 0, { so with waits := so.waits.tail })

@[simp] theorem wait_stream (so : Socket) : so.wait.2.stream = so.stream := rfl

/-- What `read` can do: take from the front of the stream at least one byte, and no more than
asked (one, when asked for none). -/
theorem read_ok {so so' : Socket} {s : Nat} {bs : List UInt8} (h : so.read s = .ok (bs, so')) :
    ∃ k, 0 < k ∧ k ≤ max 1 s ∧ k ≤ so.stream.length ∧ bs = so.stream.take k ∧
      so'.stream = so.stream.drop k := by
  unfold read at h
  split_ifs at h with hemp
  simp only [Except.ok.injEq, Prod.mk.injEq] at h
  obtain ⟨rfl, rfl⟩ := h
  have hpos : 0 < so.stream.length := List.length_pos_iff.mpr hemp
  exact ⟨_, by omega, by omega, Nat.min_le_left _ _, rfl, rfl⟩

theorem read_error {so : Socket} {s : Nat} {e : ReadError} (h : so.read s = .error e) :
    e = .endOfStream := by
  unfold read at h
  split_ifs at h
  cases h
  rfl

theorem readFully_ok {so so' : Socket} {s : Nat} {bs : List UInt8}
    (h : so.readFully s = .ok (bs, so')) :
    s ≤ so.stream.length ∧ bs = so.stream.take s ∧ so'.stream = so.stream.drop s := by
  unfold readFully at h
  split_ifs at h with hs
  simp only [Except.ok.injEq, Prod.mk.injEq] at h
  obtain ⟨rfl, rfl⟩ := h
  exact ⟨hs, rfl, rfl⟩

end Socket

/-! ## The reader -/

/-- The reader: the read position `cursor`, the valid bytes `buffer[0, size)` as `data`, the
length of the buffer `buffer.size()` as `capacity`, and the socket. Bytes of the buffer past
`size` are never read and are not modelled. -/
structure BufferedSocketReaderImpl where
  cursor : Nat
  data : List UInt8
  capacity : Nat
  sock : Socket
  deriving DecidableEq, Repr

/-- The calls of a client. -/
inductive Call
  | read (s : Nat)
  | readFully (s : Nat)
  | readBigEndianInt32
  | readVarint32 (timeout : Int)
  deriving DecidableEq, Repr

/-- `assert(s > 0 && NULL != b)` of `read` and `readFully`. -/
def Call.Valid : Call → Prop
  | .read s => 0 < s
  | .readFully s => 0 < s
  | _ => True

instance : DecidablePred Call.Valid := fun c =>
  match c with
  | .read s => inferInstanceAs (Decidable (0 < s))
  | .readFully s => inferInstanceAs (Decidable (0 < s))
  | .readBigEndianInt32 => isTrue trivial
  | .readVarint32 _ => isTrue trivial

/-- What a call answers: bytes, or the bits of an `int32_t`. -/
inductive Answer
  | bytes (bs : List UInt8)
  | int32 (v : UInt32)
  deriving DecidableEq, Repr

namespace BufferedSocketReaderImpl

/-- `size`: the number of valid bytes in the buffer. -/
def size (r : BufferedSocketReaderImpl) : Nat := r.data.length

/-- The constructors: an empty buffer of `bufferSize` bytes (`sizeof(int64_t)` when none is
given). -/
def new (sock : Socket) (bufferSize : Nat) : BufferedSocketReaderImpl := ⟨0, [], bufferSize, sock⟩

/-- `read(b, s)`: the buffered bytes if there are any, else one read of the socket. -/
def read (r : BufferedSocketReaderImpl) (s : Nat) :
    Except ReadError (List UInt8 × BufferedSocketReaderImpl) :=
  let done := min s (r.size - r.cursor)
  if 0 < done then .ok ((r.data.drop r.cursor).take done, { r with cursor := r.cursor + done })
  else
    match r.sock.read s with
    | .ok (bs, so) => .ok (bs, { r with cursor := 0, data := [], sock := so })
    | .error e => .error e

/-- `readFully(b, s, timeout)`: the buffered bytes, then the rest from the socket. -/
def readFully (r : BufferedSocketReaderImpl) (s : Nat) :
    Except ReadError (List UInt8 × BufferedSocketReaderImpl) :=
  let done := min s (r.size - r.cursor)
  let head := (r.data.drop r.cursor).take done
  if done < s then
    match r.sock.readFully (s - done) with
    | .ok (tail, so) => .ok (head ++ tail, { r with cursor := 0, data := [], sock := so })
    | .error e => .error e
  else .ok (head, { r with cursor := r.cursor + done })

/-- `readBigEndianInt32(timeout)`: four bytes in network order. -/
def readBigEndianInt32 (r : BufferedSocketReaderImpl) :
    Except ReadError (UInt32 × BufferedSocketReaderImpl) :=
  (r.readFully 4).map fun p => (UInt32.ofNat (beDecode p.1), p.2)

section Varint

variable (dec : List UInt8 → Option (UInt32 × Nat))

/-- The deadline after a round that took `elapsed` milliseconds: it only runs down when the
timeout is positive (a negative timeout waits for ever, a zero one allows a single round). -/
def nextDeadline (timeout deadline : Int) (elapsed : Nat) : Int :=
  if 0 < timeout then deadline - elapsed else deadline

/-- The loop of `readVarint32(timeout, step)`: decode the unread bytes; when that fails and the
buffer has room, read up to `step` more bytes, and check the deadline. -/
def readVarint32Loop (timeout : Int) (step : Nat) :
    Nat → Int → BufferedSocketReaderImpl → Except ReadError (UInt32 × BufferedSocketReaderImpl)
  | 0, _, _ => .error .outOfFuel
  | fuel + 1, deadline, r =>
    match dec (r.data.drop r.cursor) with
    | some (value, n) => .ok (value, { r with cursor := r.cursor + n })
    | none =>
      if r.size = r.capacity then .error (.invalidVarint r.capacity)
      else
        match r.sock.read (min (r.capacity - r.size) step) with
        | .error e => .error e
        | .ok (bs, so) =>
          let deadline := nextDeadline timeout deadline so.wait.1
          let r := { r with data := r.data ++ bs, sock := so.wait.2 }
          if 0 ≤ timeout ∧ deadline ≤ 0 then .error (.timeout r.size)
          else readVarint32Loop timeout step fuel deadline r

/-- `readVarint32(timeout, step)`: move the unread bytes to the front of the buffer, then loop.
Every round that does not end the call adds a byte, so `buffer.size() + 1` rounds suffice. -/
def readVarint32Step (timeout : Int) (r : BufferedSocketReaderImpl) (step : Nat) :
    Except ReadError (UInt32 × BufferedSocketReaderImpl) :=
  let r := { r with data := r.data.drop r.cursor, cursor := 0 }
  readVarint32Loop dec timeout step (r.capacity + 1) timeout r

/-- `readVarint32(timeout)`: with a zero-size buffer, borrow `sizeof(int64_t)` bytes and read
one byte a round; give the buffer back on return. -/
def readVarint32 (timeout : Int) (r : BufferedSocketReaderImpl) :
    Except ReadError (UInt32 × BufferedSocketReaderImpl) :=
  if r.capacity = 0 then
    match readVarint32Step dec timeout { r with capacity := 8 } 1 with
    | .ok (value, r) => .ok (value, { r with capacity := 0 })
    | .error e => .error e
  else readVarint32Step dec timeout r r.capacity

/-- One call. -/
def apply (r : BufferedSocketReaderImpl) : Call → Except ReadError (Answer × BufferedSocketReaderImpl)
  | .read s => (r.read s).map fun p => (.bytes p.1, p.2)
  | .readFully s => (r.readFully s).map fun p => (.bytes p.1, p.2)
  | .readBigEndianInt32 => r.readBigEndianInt32.map fun p => (.int32 p.1, p.2)
  | .readVarint32 timeout => (r.readVarint32 dec timeout).map fun p => (.int32 p.1, p.2)

/-- A sequence of calls, up to the first that fails: the answers, and the reader after them. -/
def run : BufferedSocketReaderImpl → List Call → List Answer × BufferedSocketReaderImpl
  | r, [] => ([], r)
  | r, c :: cs =>
    match r.apply dec c with
    | .ok (a, r') => let t := run r' cs; (a :: t.1, t.2)
    | .error _ => ([], r)

end Varint

/-- The bytes a client has still to see: the unread buffered bytes, then the socket's. -/
def pending (r : BufferedSocketReaderImpl) : List UInt8 := r.data.drop r.cursor ++ r.sock.stream

/-- The reader's invariant: the cursor is within the valid bytes; with a buffer, the valid bytes
fit in it; without one, nothing stays buffered. -/
structure Inv (r : BufferedSocketReaderImpl) : Prop where
  cursor_le : r.cursor ≤ r.size
  size_le : 0 < r.capacity → r.size ≤ r.capacity
  drained : r.capacity = 0 → r.cursor = r.size

end BufferedSocketReaderImpl

/-! ## Consuming a stream from the front -/

/-- How a call consumes the stream `S`: what it answers, and the stream it leaves. -/
def Serves (dec : List UInt8 → Option (UInt32 × Nat)) (S : List UInt8) :
    Call → Answer → List UInt8 → Prop
  | .read s, a, S' => ∃ k, 0 < k ∧ k ≤ s ∧ k ≤ S.length ∧ a = .bytes (S.take k) ∧ S' = S.drop k
  | .readFully s, a, S' => s ≤ S.length ∧ a = .bytes (S.take s) ∧ S' = S.drop s
  | .readBigEndianInt32, a, S' =>
    4 ≤ S.length ∧ a = .int32 (UInt32.ofNat (beDecode (S.take 4))) ∧ S' = S.drop 4
  | .readVarint32 _, a, S' => ∃ v n, dec S = some (v, n) ∧ a = .int32 v ∧ S' = S.drop n

/-- A sequence of calls consumes the stream, each from where the one before left it. -/
inductive ServesAll (dec : List UInt8 → Option (UInt32 × Nat)) :
    List UInt8 → List Call → List Answer → List UInt8 → Prop
  | nil (S : List UInt8) : ServesAll dec S [] [] S
  | cons {S S₁ S₂ : List UInt8} {c : Call} {cs : List Call} {a : Answer} {as : List Answer} :
    Serves dec S c a S₁ → ServesAll dec S₁ cs as S₂ → ServesAll dec S (c :: cs) (a :: as) S₂

/-- What the reader needs of `CodedInputStream::ReadVarint32` on the buffered bytes: it takes no
more bytes than it is given, and what follows the bytes it takes does not change its answer. -/
structure DecodesPrefix (dec : List UInt8 → Option (UInt32 × Nat)) : Prop where
  consumed_le : ∀ bs v n, dec bs = some (v, n) → n ≤ bs.length
  extend : ∀ bs v n rest, dec bs = some (v, n) → dec (bs.take n ++ rest) = some (v, n)

/-- `CodedInputStream::ReadVarint32`: a base-128 varint of at most ten bytes, cut to 32 bits. -/
def varint32 (bs : List UInt8) : Option (UInt32 × Nat) :=
  (base128 10 bs).map fun p => (UInt32.ofNat p.1, p.2)

theorem varint32_decodesPrefix : DecodesPrefix varint32 := by
  constructor
  · intro bs v n h
    simp only [varint32, Option.map_eq_some_iff, Prod.mk.injEq] at h
    obtain ⟨⟨v', n'⟩, hb, -, rfl⟩ := h
    exact (base128_determined 10 bs v' n' hb).1
  · intro bs v n rest h
    simp only [varint32, Option.map_eq_some_iff, Prod.mk.injEq] at h
    obtain ⟨⟨v', n'⟩, hb, rfl, rfl⟩ := h
    simp [varint32, (base128_determined 10 bs v' n' hb).2 rest]

example : varint32 [0x96, 0x01, 0x07] = some (150, 2) := by decide

namespace BufferedSocketReaderImpl

/-! ## The pending stream -/

theorem length_pending (r : BufferedSocketReaderImpl) :
    r.pending.length = r.size - r.cursor + r.sock.stream.length := by
  simp [pending, size]

/-- Serving `k` buffered bytes: they are the front of the pending stream, and the rest of it is
what the reader has pending after moving its cursor by `k`. -/
theorem pending_take_drop_buffered (r : BufferedSocketReaderImpl) {k : Nat}
    (hk : k ≤ r.size - r.cursor) :
    r.pending.take k = (r.data.drop r.cursor).take k ∧
      r.pending.drop k = { r with cursor := r.cursor + k }.pending := by
  have hlen : k - (r.data.drop r.cursor).length = 0 := by simp [size] at hk ⊢; omega
  refine ⟨?_, ?_⟩
  · simp only [pending, List.take_append, hlen, List.take_zero, List.append_nil]
  · simp only [pending, List.drop_append, hlen, List.drop_zero, List.drop_drop]

/-- A reader with nothing buffered has the socket's stream pending. -/
theorem pending_of_drained {r : BufferedSocketReaderImpl} (h : r.size ≤ r.cursor) :
    r.pending = r.sock.stream := by
  simp [pending, List.drop_eq_nil_of_le (show r.data.length ≤ r.cursor from h)]

/-- Moving bytes from the socket into the buffer leaves the pending stream as it was. -/
theorem pending_refill (r : BufferedSocketReaderImpl) (hc : r.cursor ≤ r.size) (k : Nat)
    (so : Socket) (hso : so.stream = r.sock.stream.drop k) :
    { r with data := r.data ++ r.sock.stream.take k, sock := so }.pending = r.pending := by
  have hc' : r.cursor - r.data.length = 0 := by simp [size] at hc; omega
  simp only [pending, List.drop_append, hc', List.drop_zero, hso, List.append_assoc,
    List.take_append_drop]

@[simp] theorem pending_new (sock : Socket) (bufferSize : Nat) :
    (new sock bufferSize).pending = sock.stream := rfl

/-- Moving the unread bytes to the front of the buffer leaves the pending stream as it was. -/
@[simp] theorem pending_compact (r : BufferedSocketReaderImpl) :
    ({ r with data := r.data.drop r.cursor, cursor := 0 } : BufferedSocketReaderImpl).pending =
      r.pending := by
  simp [pending]

theorem inv_new (sock : Socket) (bufferSize : Nat) : (new sock bufferSize).Inv :=
  ⟨Nat.zero_le _, fun _ => Nat.zero_le _, fun _ => rfl⟩

theorem inv_of_empty (r : BufferedSocketReaderImpl) (sock : Socket) :
    ({ r with cursor := 0, data := [], sock := sock } : BufferedSocketReaderImpl).Inv :=
  ⟨Nat.zero_le _, fun _ => Nat.zero_le _, fun _ => rfl⟩

/-! ## Each call consumes the pending stream from the front -/

section Calls

variable {dec : List UInt8 → Option (UInt32 × Nat)}

@[simp] theorem serves_read {S S' : List UInt8} {s : Nat} {a : Answer} :
    Serves dec S (.read s) a S' ↔
      ∃ k, 0 < k ∧ k ≤ s ∧ k ≤ S.length ∧ a = .bytes (S.take k) ∧ S' = S.drop k := Iff.rfl

@[simp] theorem serves_readFully {S S' : List UInt8} {s : Nat} {a : Answer} :
    Serves dec S (.readFully s) a S' ↔
      s ≤ S.length ∧ a = .bytes (S.take s) ∧ S' = S.drop s := Iff.rfl

@[simp] theorem serves_readBigEndianInt32 {S S' : List UInt8} {a : Answer} :
    Serves dec S .readBigEndianInt32 a S' ↔
      4 ≤ S.length ∧ a = .int32 (UInt32.ofNat (beDecode (S.take 4))) ∧ S' = S.drop 4 := Iff.rfl

@[simp] theorem serves_readVarint32 {S S' : List UInt8} {timeout : Int} {a : Answer} :
    Serves dec S (.readVarint32 timeout) a S' ↔
      ∃ v n, dec S = some (v, n) ∧ a = .int32 v ∧ S' = S.drop n := Iff.rfl

@[simp] theorem pending_empty (r : BufferedSocketReaderImpl) (sock : Socket) :
    ({ r with cursor := 0, data := [], sock := sock } : BufferedSocketReaderImpl).pending =
      sock.stream := by
  simp [pending]

theorem read_serves {r r' : BufferedSocketReaderImpl} {s : Nat} {bs : List UInt8}
    (hr : r.Inv) (hs : 0 < s) (h : r.read s = .ok (bs, r')) :
    Serves dec r.pending (.read s) (.bytes bs) r'.pending ∧ r'.Inv ∧ r'.capacity = r.capacity := by
  unfold read at h
  dsimp only at h
  split_ifs at h with hdone
  · -- served from the buffer
    simp only [Except.ok.injEq, Prod.mk.injEq] at h
    obtain ⟨rfl, rfl⟩ := h
    have hk : min s (r.size - r.cursor) ≤ r.size - r.cursor := Nat.min_le_right _ _
    obtain ⟨htake, hdrop⟩ := r.pending_take_drop_buffered hk
    have hlen := length_pending r
    refine ⟨serves_read.mpr ⟨_, hdone, Nat.min_le_left _ _, by omega, by rw [htake], hdrop.symm⟩,
      ⟨?_, hr.size_le, ?_⟩, rfl⟩
    · show r.cursor + min s (r.size - r.cursor) ≤ r.size
      omega
    · intro h0
      have := hr.drained h0
      omega
  · -- nothing buffered: one read of the socket
    have hempty : r.size ≤ r.cursor := by omega
    split at h
    · next bs' so hso =>
      simp only [Except.ok.injEq, Prod.mk.injEq] at h
      obtain ⟨rfl, rfl⟩ := h
      obtain ⟨k, hk0, hks, hklen, rfl, hstream⟩ := Socket.read_ok hso
      rw [pending_of_drained hempty, pending_empty, hstream]
      exact ⟨serves_read.mpr ⟨k, hk0, by omega, hklen, rfl, rfl⟩, inv_of_empty r so, rfl⟩
    · cases h

theorem readFully_serves {r r' : BufferedSocketReaderImpl} {s : Nat} {bs : List UInt8}
    (hr : r.Inv) (h : r.readFully s = .ok (bs, r')) :
    Serves dec r.pending (.readFully s) (.bytes bs) r'.pending ∧ r'.Inv ∧
      r'.capacity = r.capacity := by
  unfold readFully at h
  dsimp only at h
  have hlen := length_pending r
  split_ifs at h with hlt
  · -- the buffer runs dry: the rest comes from the socket
    split at h
    · next tail so hso =>
      simp only [Except.ok.injEq, Prod.mk.injEq] at h
      obtain ⟨rfl, rfl⟩ := h
      obtain ⟨hs, rfl, hstream⟩ := Socket.readFully_ok hso
      have hB : min s (r.size - r.cursor) = (r.data.drop r.cursor).length := by
        simp only [List.length_drop, size] at hlt ⊢
        omega
      have hBs : (r.data.drop r.cursor).length ≤ s := by omega
      refine ⟨serves_readFully.mpr ⟨by omega, ?_, ?_⟩, inv_of_empty r so, rfl⟩
      · simp only [pending, List.take_append, List.take_of_length_le hBs, hB, List.take_length]
      · simp only [hstream, pending, List.drop_append, List.drop_eq_nil_of_le hBs, List.drop_nil,
          List.nil_append, hB]
    · cases h
  · -- all from the buffer
    simp only [Except.ok.injEq, Prod.mk.injEq] at h
    obtain ⟨rfl, rfl⟩ := h
    have hs : min s (r.size - r.cursor) = s := by omega
    have hk : s ≤ r.size - r.cursor := by omega
    obtain ⟨htake, hdrop⟩ := r.pending_take_drop_buffered hk
    refine ⟨serves_readFully.mpr ⟨by omega, by rw [hs, htake], by rw [hs, hdrop]⟩,
      ⟨?_, hr.size_le, ?_⟩, rfl⟩
    · show r.cursor + min s (r.size - r.cursor) ≤ r.size
      have := hr.cursor_le
      omega
    · intro h0
      have := hr.drained h0
      show r.cursor + min s (r.size - r.cursor) = r.size
      omega

theorem except_map_eq_ok {ε α β : Type} {x : Except ε α} {f : α → β} {b : β}
    (h : x.map f = .ok b) : ∃ a, x = .ok a ∧ f a = b := by
  cases x with
  | error e => cases h
  | ok a => exact ⟨a, rfl, by simpa [Except.map] using h⟩

theorem readBigEndianInt32_serves {r r' : BufferedSocketReaderImpl} {v : UInt32}
    (hr : r.Inv) (h : r.readBigEndianInt32 = .ok (v, r')) :
    Serves dec r.pending .readBigEndianInt32 (.int32 v) r'.pending ∧ r'.Inv ∧
      r'.capacity = r.capacity := by
  obtain ⟨⟨bs, r₁⟩, hfull, hv⟩ := except_map_eq_ok h
  simp only [Prod.mk.injEq] at hv
  obtain ⟨rfl, rfl⟩ := hv
  obtain ⟨hserve, hinv, hcap⟩ := @readFully_serves dec _ _ _ _ hr hfull
  obtain ⟨h4, hbs, hdrop⟩ := serves_readFully.mp hserve
  simp only [Answer.bytes.injEq] at hbs
  exact ⟨serves_readBigEndianInt32.mpr ⟨h4, by rw [hbs], hdrop⟩, hinv, hcap⟩

/-! ## The varint loop -/

/-- What one round of the loop can do: answer from the unread bytes, or read more from the
socket and go on. -/
theorem readVarint32Loop_cases {timeout : Int} {step fuel : Nat} {deadline : Int}
    {r r' : BufferedSocketReaderImpl} {v : UInt32}
    (h : readVarint32Loop dec timeout step (fuel + 1) deadline r = .ok (v, r')) :
    (∃ n, dec (r.data.drop r.cursor) = some (v, n) ∧ r' = { r with cursor := r.cursor + n }) ∨
    (dec (r.data.drop r.cursor) = none ∧ r.size ≠ r.capacity ∧
      ∃ bs so deadline', r.sock.read (min (r.capacity - r.size) step) = .ok (bs, so) ∧
        readVarint32Loop dec timeout step fuel deadline'
          { r with data := r.data ++ bs, sock := so.wait.2 } = .ok (v, r')) := by
  simp only [readVarint32Loop] at h
  split at h
  · next value n hd =>
    simp only [Except.ok.injEq, Prod.mk.injEq] at h
    obtain ⟨rfl, rfl⟩ := h
    exact .inl ⟨n, hd, rfl⟩
  · next hd =>
    by_cases hfull : r.size = r.capacity
    · rw [if_pos hfull] at h
      cases h
    rw [if_neg hfull] at h
    split at h
    · cases h
    · next bs so hso =>
      split_ifs at h with htime
      exact .inr ⟨hd, hfull, bs, so, _, hso, h⟩

/-- The bytes the loop reads go to the end of the unread ones. -/
theorem unread_refill (r : BufferedSocketReaderImpl) (hc : r.cursor ≤ r.size) (bs : List UInt8) :
    (r.data ++ bs).drop r.cursor = r.data.drop r.cursor ++ bs :=
  List.drop_append_of_le_length hc

/-- **The loop answers as decoding the pending stream.** Whatever the socket does, the loop only
moves bytes from the socket to the buffer, so when it decodes a varint from the buffered bytes,
that is the varint at the front of the pending stream. -/
theorem readVarint32Loop_serves (hdec : DecodesPrefix dec) {timeout : Int} {step fuel : Nat}
    {deadline : Int} {r r' : BufferedSocketReaderImpl} {v : UInt32} (hc : r.cursor ≤ r.size)
    (h : readVarint32Loop dec timeout step fuel deadline r = .ok (v, r')) :
    (∃ n, dec r.pending = some (v, n) ∧ r'.pending = r.pending.drop n) ∧ r'.cursor ≤ r'.size ∧
      r'.capacity = r.capacity ∧ (r.size ≤ r.capacity → r'.size ≤ r'.capacity) := by
  -- induction on the rounds left; the pending stream is the same in every round
  induction fuel generalizing deadline r with
  | zero => simp [readVarint32Loop] at h
  | succ fuel ih =>
    rcases readVarint32Loop_cases h with ⟨n, hd, rfl⟩ | ⟨-, hfull, bs, so, deadline', hso, hrec⟩
    · -- decoded: the varint's bytes are buffered
      have hn : n ≤ r.size - r.cursor := by
        simpa [size] using hdec.consumed_le _ _ _ hd
      have hext := hdec.extend _ _ _ ((r.data.drop r.cursor).drop n ++ r.sock.stream) hd
      rw [← List.append_assoc, List.take_append_drop] at hext
      exact ⟨⟨n, hext, (r.pending_take_drop_buffered hn).2.symm⟩, by show r.cursor + n ≤ r.size; omega,
        rfl, id⟩
    · -- refilled: at least one byte moved from the socket to the buffer
      obtain ⟨k, hk0, hks, hklen, rfl, hstream⟩ := Socket.read_ok hso
      have hpend := r.pending_refill hc k so.wait.2 (by simp [hstream])
      have hc' : r.cursor ≤ (r.data ++ r.sock.stream.take k).length := by
        simp only [List.length_append]
        exact Nat.le_add_right_of_le hc
      obtain ⟨hserve, hc'', hcap, hsize⟩ := ih hc' hrec
      rw [hpend] at hserve
      refine ⟨hserve, hc'', hcap, fun hle => hsize ?_⟩
      show (r.data ++ r.sock.stream.take k).length ≤ r.capacity
      simp only [List.length_append, List.length_take]
      have : r.size < r.capacity := Nat.lt_of_le_of_ne hle hfull
      simp only [size] at this hks
      omega

/-- **One byte a round leaves nothing buffered.** With `step = 1`, if no proper prefix of the
unread bytes decodes, the loop stops exactly at the end of the varint. -/
theorem readVarint32Loop_drains (hdec : DecodesPrefix dec) {timeout : Int} {fuel : Nat}
    {deadline : Int} {r r' : BufferedSocketReaderImpl} {v : UInt32} (hc : r.cursor ≤ r.size)
    (hnone : ∀ j < r.size - r.cursor, dec ((r.data.drop r.cursor).take j) = none)
    (h : readVarint32Loop dec timeout 1 fuel deadline r = .ok (v, r')) : r'.cursor = r'.size := by
  induction fuel generalizing deadline r with
  | zero => simp [readVarint32Loop] at h
  | succ fuel ih =>
    rcases readVarint32Loop_cases h with ⟨n, hd, rfl⟩ | ⟨hd, -, bs, so, deadline', hso, hrec⟩
    · -- the decoder took every unread byte: a shorter prefix would have decoded earlier
      have hn : n ≤ r.size - r.cursor := by
        simpa [size] using hdec.consumed_le _ _ _ hd
      by_cases hlt : n < r.size - r.cursor
      · have hpre := hdec.extend _ _ _ [] hd
        rw [List.append_nil, hnone n hlt] at hpre
        cases hpre
      · show r.cursor + n = r.size
        omega
    · -- a round reads exactly one byte, and the bytes before it did not decode
      obtain ⟨k, hk0, hks, hklen, rfl, -⟩ := Socket.read_ok hso
      have hk1 : k = 1 := by omega
      subst hk1
      have hc' : r.cursor ≤ (r.data ++ r.sock.stream.take 1).length := by
        simp only [List.length_append]
        exact Nat.le_add_right_of_le hc
      refine ih hc' ?_ hrec
      intro j hj
      have hunread := unread_refill r hc (r.sock.stream.take 1)
      simp only [hunread]
      have hjle : j ≤ (r.data.drop r.cursor).length := by
        simp only [List.length_append, List.length_take, size, List.length_drop] at hj ⊢
        omega
      rw [List.take_append_of_le_length hjle]
      rcases Nat.lt_or_eq_of_le hjle with hj' | rfl
      · exact hnone j (by simpa [size] using hj')
      · rwa [List.take_length]

/-- The loop never runs out of rounds: each round that goes on moves a byte into the buffer. -/
theorem readVarint32Loop_ne_outOfFuel {timeout : Int} {step fuel : Nat} {deadline : Int}
    {r : BufferedSocketReaderImpl} (hsize : r.size ≤ r.capacity)
    (hfuel : r.capacity - r.size < fuel) :
    readVarint32Loop dec timeout step fuel deadline r ≠ .error .outOfFuel := by
  induction fuel generalizing deadline r with
  | zero => omega
  | succ fuel ih =>
    simp only [readVarint32Loop]
    split
    · simp
    · by_cases hfull : r.size = r.capacity
      · rw [if_pos hfull]
        simp
      rw [if_neg hfull]
      split
      · next e hso =>
        rw [Socket.read_error hso]
        simp
      · next bs so hso =>
        obtain ⟨k, hk0, hks, hklen, rfl, -⟩ := Socket.read_ok hso
        have hroom : k ≤ r.capacity - r.size := by omega
        split_ifs
        · simp
        · apply ih
          · simp only [size, List.length_append, List.length_take] at hroom ⊢
            omega
          · simp only [size, List.length_append, List.length_take] at hroom hfuel ⊢
            omega

/-- `readVarint32(timeout, step)` answers as decoding the pending stream. -/
theorem readVarint32Step_serves (hdec : DecodesPrefix dec) {timeout : Int} {step : Nat}
    {r r' : BufferedSocketReaderImpl} {v : UInt32} (h : readVarint32Step dec timeout r step = .ok (v, r')) :
    (∃ n, dec r.pending = some (v, n) ∧ r'.pending = r.pending.drop n) ∧ r'.cursor ≤ r'.size ∧
      r'.capacity = r.capacity ∧ (r.size ≤ r.capacity → r'.size ≤ r'.capacity) := by
  have hc : (0 : Nat) ≤ (r.data.drop r.cursor).length := Nat.zero_le _
  obtain ⟨hserve, hc', hcap, hsize⟩ := readVarint32Loop_serves hdec hc h
  rw [pending_compact] at hserve
  refine ⟨hserve, hc', hcap, fun hle => hsize ?_⟩
  show (r.data.drop r.cursor).length ≤ r.capacity
  simp only [List.length_drop]
  exact Nat.le_trans (Nat.sub_le _ _) hle

theorem readVarint32_serves (hdec : DecodesPrefix dec) {timeout : Int}
    {r r' : BufferedSocketReaderImpl} {v : UInt32} (hr : r.Inv)
    (h : r.readVarint32 dec timeout = .ok (v, r')) :
    Serves dec r.pending (.readVarint32 timeout) (.int32 v) r'.pending ∧ r'.Inv ∧
      r'.capacity = r.capacity := by
  unfold readVarint32 at h
  split_ifs at h with h0
  · -- zero-size buffer: eight borrowed bytes, one byte a round, nothing buffered before
    split at h
    · next value r₁ hstep =>
      simp only [Except.ok.injEq, Prod.mk.injEq] at h
      obtain ⟨rfl, rfl⟩ := h
      obtain ⟨⟨n, hd, hdrop⟩, hc, -, -⟩ := readVarint32Step_serves hdec hstep
      set r₀ : BufferedSocketReaderImpl :=
        { r with capacity := 8, data := r.data.drop r.cursor, cursor := 0 } with hr₀
      have hnone : ∀ j < r₀.size - r₀.cursor, dec ((r₀.data.drop r₀.cursor).take j) = none := by
        intro j hj
        have := hr.drained h0
        simp only [hr₀, List.length_drop, size] at hj this
        omega
      have hdrained : r₁.cursor = r₁.size :=
        readVarint32Loop_drains (r := r₀) hdec (Nat.zero_le _) hnone hstep
      exact ⟨serves_readVarint32.mpr ⟨_, n, hd, rfl, hdrop⟩,
        ⟨hc, fun hpos => absurd hpos (Nat.lt_irrefl 0), fun _ => hdrained⟩, h0.symm⟩
    · cases h
  · -- with a buffer: compact, then fill it a buffer's length at a time
    obtain ⟨⟨n, hd, hdrop⟩, hc, hcap, hsize⟩ := readVarint32Step_serves hdec h
    have hpos : 0 < r.capacity := Nat.pos_of_ne_zero h0
    exact ⟨serves_readVarint32.mpr ⟨v, n, hd, rfl, hdrop⟩,
      ⟨hc, fun _ => hcap ▸ hsize (hr.size_le hpos), fun h0' => absurd (hcap ▸ h0') h0⟩, hcap⟩

/-- **`readVarint32`'s loop ends.** On a reader with the invariant, the loop that fills the buffer
until a varint decodes never runs out of the rounds the model allows it, one more than the buffer
has room for: each round that goes on moves a byte into the buffer. -/
theorem readVarint32_ne_outOfFuel {timeout : Int} {r : BufferedSocketReaderImpl} (hr : r.Inv) :
    r.readVarint32 dec timeout ≠ .error .outOfFuel := by
  unfold readVarint32
  split_ifs with h0
  · -- the borrowed buffer starts empty
    have hempty : (r.data.drop r.cursor).length = 0 := by
      have := hr.drained h0
      simp only [List.length_drop, size] at this ⊢
      omega
    have hloop : readVarint32Loop dec timeout 1 (8 + 1) timeout
        { r with capacity := 8, data := r.data.drop r.cursor, cursor := 0 } ≠ .error .outOfFuel :=
      readVarint32Loop_ne_outOfFuel (by show (r.data.drop r.cursor).length ≤ 8; omega)
        (by show 8 - (r.data.drop r.cursor).length < 8 + 1; omega)
    split
    · simp
    · next e hstep =>
      intro he
      injection he with he
      subst he
      exact hloop hstep
  · have hle : (r.data.drop r.cursor).length ≤ r.capacity := by
      have := hr.size_le (Nat.pos_of_ne_zero h0)
      simp only [List.length_drop, size] at this ⊢
      omega
    exact readVarint32Loop_ne_outOfFuel (r := { r with data := r.data.drop r.cursor, cursor := 0 })
      hle (by show r.capacity - (r.data.drop r.cursor).length < r.capacity + 1; omega)

/-- A buffer of eight bytes, on a socket that hands over one byte a read. -/
theorem readVarint32_ne_outOfFuel_one_byte_a_read :
    (new ⟨[0x96, 0x01], [1, 1], []⟩ 8).readVarint32 varint32 (-1) ≠ .error .outOfFuel :=
  readVarint32_ne_outOfFuel (inv_new _ 8)

/-- With a zero-size buffer, `readVarint32` takes from the socket exactly the varint's bytes. -/
theorem readVarint32_zero_buffer (hdec : DecodesPrefix dec) {timeout : Int}
    {r r' : BufferedSocketReaderImpl} {v : UInt32} (hr : r.Inv) (h0 : r.capacity = 0)
    (h : r.readVarint32 dec timeout = .ok (v, r')) :
    ∃ n, dec r.sock.stream = some (v, n) ∧ r'.sock.stream = r.sock.stream.drop n := by
  obtain ⟨hserve, hinv, hcap⟩ := readVarint32_serves hdec hr h
  obtain ⟨v', n, hd, hv, hdrop⟩ := serves_readVarint32.mp hserve
  simp only [Answer.int32.injEq] at hv
  subst hv
  rw [pending_of_drained (Nat.le_of_eq (hr.drained h0).symm)] at hd hdrop
  rw [pending_of_drained (Nat.le_of_eq (hinv.drained (hcap.trans h0)).symm)] at hdrop
  exact ⟨n, hd, hdrop⟩

/-! ## Every sequence of calls -/

/-- A call's answer is its function's result, wrapped. -/
theorem map_answer_ok {α : Type} {x : Except ReadError (α × BufferedSocketReaderImpl)}
    {f : α → Answer} {a : Answer} {r' : BufferedSocketReaderImpl}
    (h : x.map (fun p => (f p.1, p.2)) = .ok (a, r')) : ∃ y, x = .ok (y, r') ∧ a = f y := by
  obtain ⟨⟨y, r₁⟩, hx, hy⟩ := except_map_eq_ok h
  simp only [Prod.mk.injEq] at hy
  obtain ⟨rfl, rfl⟩ := hy
  exact ⟨y, hx, rfl⟩

theorem apply_serves (hdec : DecodesPrefix dec) {r r' : BufferedSocketReaderImpl} {c : Call}
    {a : Answer} (hr : r.Inv) (hc : c.Valid) (h : r.apply dec c = .ok (a, r')) :
    Serves dec r.pending c a r'.pending ∧ r'.Inv ∧ r'.capacity = r.capacity := by
  cases c with
  | read s =>
    obtain ⟨bs, hcall, rfl⟩ := map_answer_ok h
    exact read_serves hr hc hcall
  | readFully s =>
    obtain ⟨bs, hcall, rfl⟩ := map_answer_ok h
    exact readFully_serves hr hcall
  | readBigEndianInt32 =>
    obtain ⟨v, hcall, rfl⟩ := map_answer_ok h
    exact readBigEndianInt32_serves hr hcall
  | readVarint32 timeout =>
    obtain ⟨v, hcall, rfl⟩ := map_answer_ok h
    exact readVarint32_serves hdec hr hcall

/-- **The reader is transparent.** The calls a run answers consume the pending stream from the
front, one after the other, and the invariant holds after them. -/
theorem run_servesAll (hdec : DecodesPrefix dec) {r : BufferedSocketReaderImpl} (hr : r.Inv)
    (calls : List Call) (hcalls : ∀ c ∈ calls, c.Valid) :
    ServesAll dec r.pending (calls.take (r.run dec calls).1.length) (r.run dec calls).1
      (r.run dec calls).2.pending ∧ (r.run dec calls).2.Inv ∧
      (r.run dec calls).2.capacity = r.capacity := by
  -- induction on the calls: each answered call is a step of `ServesAll`
  induction calls generalizing r with
  | nil => exact ⟨.nil _, hr, rfl⟩
  | cons c cs ih =>
    cases h : r.apply dec c with
    | error e =>
      have hrun : r.run dec (c :: cs) = ([], r) := by simp only [run, h]
      rw [hrun]
      exact ⟨.nil _, hr, rfl⟩
    | ok p =>
      obtain ⟨a, r₁⟩ := p
      obtain ⟨hserve, hinv, hcap⟩ := apply_serves hdec hr (hcalls c List.mem_cons_self) h
      obtain ⟨hall, hinv', hcap'⟩ := ih hinv fun c' hc' => hcalls c' (List.mem_cons_of_mem c hc')
      have hrun : r.run dec (c :: cs) = (a :: (r₁.run dec cs).1, (r₁.run dec cs).2) := by
        simp only [run, h]
      rw [hrun, List.length_cons, List.take_succ_cons]
      exact ⟨.cons hserve hall, hinv', hcap'.trans hcap⟩

end Calls

/-! ## The reader over a whole connection -/

theorem bufferedSocketReader_transparent (dec : List UInt8 → Option (UInt32 × Nat))
    (hdec : DecodesPrefix dec) (sock : Socket) (bufferSize : Nat) (calls : List Call)
    (hcalls : ∀ c ∈ calls, c.Valid) :
    let t := (new sock bufferSize).run dec calls
    ServesAll dec sock.stream (calls.take t.1.length) t.1 t.2.pending ∧
      t.2.cursor ≤ t.2.size ∧ t.2.capacity = bufferSize ∧
      (0 < bufferSize → t.2.size ≤ bufferSize) ∧
      (bufferSize = 0 → t.2.cursor = t.2.size ∧
        ∀ timeout v r', t.2.readVarint32 dec timeout = .ok (v, r') →
          ∃ n, dec t.2.sock.stream = some (v, n) ∧ r'.sock.stream = t.2.sock.stream.drop n) := by
  intro t
  obtain ⟨hall, hinv, hcap⟩ := run_servesAll hdec (inv_new sock bufferSize) calls hcalls
  have hcap' : t.2.capacity = bufferSize := hcap
  refine ⟨hall, hinv.cursor_le, hcap', fun hpos => ?_, fun h0 => ⟨?_, ?_⟩⟩
  · have hpos' : 0 < t.2.capacity := by rw [hcap']; exact hpos
    exact Nat.le_trans (hinv.size_le hpos') (Nat.le_of_eq hcap')
  · exact hinv.drained (hcap'.trans h0)
  · intro timeout v r' h
    exact readVarint32_zero_buffer hdec hinv (hcap'.trans h0) h

theorem bufferedSocketReader_transparent_zero_buffer :
    let sock : Socket := ⟨[0x96, 0x01, 0, 0, 0, 7, 1, 2], [1], []⟩
    let calls := [Call.readVarint32 (-1), .readBigEndianInt32, .read 2]
    let t := (new sock 0).run varint32 calls
    DecodesPrefix varint32 ∧ (∀ c ∈ calls, c.Valid) ∧
      (ServesAll varint32 sock.stream (calls.take t.1.length) t.1 t.2.pending ∧
        t.2.cursor ≤ t.2.size ∧ t.2.capacity = 0 ∧ (0 < 0 → t.2.size ≤ 0) ∧
        (0 = 0 → t.2.cursor = t.2.size ∧
          ∀ timeout v r', t.2.readVarint32 varint32 timeout = .ok (v, r') →
            ∃ n, varint32 t.2.sock.stream = some (v, n) ∧
              r'.sock.stream = t.2.sock.stream.drop n)) :=
  ⟨varint32_decodesPrefix, by decide,
    bufferedSocketReader_transparent varint32 varint32_decodesPrefix _ 0 _ (by decide)⟩

/-- With a zero-size buffer, `size ≤ buffer.size()` does not survive `readVarint32`: the call
leaves `size == cursor` at the end of the varint and gives the borrowed buffer back. -/
theorem readVarint32_zero_buffer_size_past_capacity :
    ∃ r', (new ⟨[0x05], [], []⟩ 0).readVarint32 varint32 (-1) = .ok (5, r') ∧
      r'.cursor = 1 ∧ r'.size = 1 ∧ r'.capacity = 0 :=
  ⟨⟨1, [0x05], 0, ⟨[], [], []⟩⟩, rfl, rfl, rfl, rfl⟩

end BufferedSocketReaderImpl

end HdfsClient
