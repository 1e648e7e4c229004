import HdfsClient.Lib.Endian
import Mathlib.Algebra.Group.Int.Defs

/-!
# Hadoop's variable-length integers and texts

`WritableUtils` (`common/WritableUtils.cpp`) reads and writes the encodings of Hadoop's `Writable`s
in a buffer of `len` bytes, from the position `current` on. `WriteInt64` writes an `int64_t` as a
VLong: one byte for -112..127; otherwise a first byte that gives the sign and the number of bytes of
the value (of its one's complement, for a negative value), then those bytes, most significant first.
`WriteInt32` writes an `int32_t` the same way, and `WriteText` writes the length of a string as an
`int32_t`, then its bytes. A read or a write past the end of the buffer throws
`std::range_error("overflow")`, as does `ReadInt32` on a value outside `int32_t`.

A `char` is signed here, as on the platforms libhdfs3 is built for: `readByte` sign-extends the byte
it reads, and `ReadInt64` decodes the first byte from that. The `long` in which `ReadInt64` gathers
the bytes wraps modulo `2 ^ 64`, which the conversion to `Int64` at the end applies once.

* `WriteInt64_ok`, `ReadInt64_vlongBytes` — `WriteInt64` writes the bytes `vlongBytes` gives, one to
  nine of them, and `ReadInt64` reads them back, whatever follows them. `WriteInt64` answers one
  more than it writes when it writes more than one byte: `retval` starts at one and counts the first
  byte again.
* `ReadInt64_WriteInt64`, `ReadText_WriteText` — the round trips, the last for strings shorter
  than `2 ^ 31` bytes.
* `ReadText_WriteText_mod` — `WriteText` keeps the length modulo `2 ^ 32`, and writes only as many
  bytes of the string.
* `writableUtils_round_trip_fails` — both at a concrete input.
-/

namespace HdfsClient

/-- The exceptions of `WritableUtils`. -/
inductive WritableError
  /-- `std::range_error("overflow")`: past the end of the buffer, or outside `int32_t`. -/
  | overflow
  /-- `std::length_error`, from `std::string::resize` with a negative length. -/
  | lengthError
  deriving DecidableEq, Repr

/-- A `char` as the `int` it is promoted to: sign-extended. -/
def charToInt (b : UInt8) : Int := if b.toNat < 128 then b.toNat else b.toNat - 256

/-- An `int` stored into a `char`: its low byte. -/
def intToChar (v : Int) : UInt8 := UInt8.ofNat (v % 256).toNat

/-- A signed value converted to `size_t`: modulo `2 ^ 64`. -/
def toSizeT (v : Int) : Nat := (v % 2 ^ 64).toNat

/-- `WritableUtils(b, l)`: the buffer, of `l` bytes, and the position `current`. -/
structure WritableUtils where
  buffer : List UInt8
  current : Nat
  deriving DecidableEq, Repr

namespace WritableUtils

/-- A new `WritableUtils` at the start of the buffer. -/
def new (buffer : List UInt8) : WritableUtils := ⟨buffer, 0⟩

/-- `len`: the length of the buffer. -/
def len (w : WritableUtils) : Nat := w.buffer.length

/-- `readByte()`: the `char` at `current`. -/
def readByte (w : WritableUtils) : Except WritableError (Int × WritableUtils) :=
  if 1 > w.len - w.current then .error .overflow
  else .ok (charToInt (w.buffer.getD w.current 0), { w with current := w.current + 1 })

/-- `writeByte(val)`: `val` into the `char` at `current`. -/
def writeByte (w : WritableUtils) (val : Int) : Except WritableError WritableUtils :=
  if 1 > w.len - w.current then .error .overflow
  else .ok { buffer := w.buffer.set w.current (intToChar val), current := w.current + 1 }

/-- `decodeWritableUtilsSize(value)`: the number of bytes of a VLong, from its first byte. -/
def decodeWritableUtilsSize (value : Int) : Int :=
  if value ≥ -112 then 1
  else if value < -120 then -119 - value
  else -111 - value

/-- `isNegativeWritableUtils(value)`: whether a VLong is negative, from its first byte. -/
def isNegativeWritableUtils (value : Int) : Bool :=
  value < -120 || (value ≥ -112 && value < 0)

/-- The loop of `ReadInt64`: `count` more bytes, each shifted into `i` from below
(`i = i << 8; i = i | (b & 0xFF)`, with `b` an `unsigned char`). -/
def readBytes : Nat → Nat → WritableUtils → Except WritableError (Nat × WritableUtils)
  | 0, i, w => .ok (i, w)
  | count + 1, i, w =>
    match w.readByte with
    | .error e => .error e
    | .ok (b, w) => readBytes count (i * 256 + (b % 256).toNat) w

/-- `ReadInt64()`: the first byte gives the number of bytes; the rest are read into `i`, which is
complemented (`i ^ -1L`, that is `-i - 1`) when the first byte says the value is negative. -/
def ReadInt64 (w : WritableUtils) : Except WritableError (Int64 × WritableUtils) :=
  match w.readByte with
  | .error e => .error e
  | .ok (firstByte, w) =>
    let len := decodeWritableUtilsSize firstByte
    if len = 1 then .ok (Int64.ofInt firstByte, w)
    else
      match readBytes (len - 1).toNat 0 w with
      | .error e => .error e
      | .ok (i, w) =>
        .ok (Int64.ofInt (if isNegativeWritableUtils firstByte then -(i : Int) - 1 else i), w)

/-- `ReadInt32()`: a VLong that must lie in `int32_t`. -/
def ReadInt32 (w : WritableUtils) : Except WritableError (Int32 × WritableUtils) :=
  match w.ReadInt64 with
  | .error e => .error e
  | .ok (val, w) =>
    if val.toInt < -2 ^ 31 ∨ val.toInt > 2 ^ 31 - 1 then .error .overflow
    else .ok (Int32.ofInt val.toInt, w)

/-- `ReadRaw(buf, size)`: the next `size` bytes. -/
def ReadRaw (w : WritableUtils) (size : Nat) : Except WritableError (List UInt8 × WritableUtils) :=
  if size > w.len - w.current then .error .overflow
  else .ok ((w.buffer.drop w.current).take size, { w with current := w.current + size })

/-- `ReadText()`: a length as an `int32_t`, then that many bytes. `retval.resize(length)` throws
on a negative length, which is past `max_size()` as a `size_t`. -/
def ReadText (w : WritableUtils) : Except WritableError (List UInt8 × WritableUtils) :=
  match w.ReadInt32 with
  | .error e => .error e
  | .ok (length, w) =>
    if length.toInt < 0 then .error .lengthError
    else w.ReadRaw length.toInt.toNat

/-- The loop `while (tmp != 0) { tmp = tmp >> 8; len--; }` of `WriteInt64`, on a value that is not
negative: the number of rounds, which is the number of bytes up to the top nonzero one. -/
def shiftCount (tmp : Nat) : Nat :=
  if tmp = 0 then 0 else shiftCount (tmp / 256) + 1
decreasing_by omega

/-- The loop of `WriteInt64`: from `idx = len` down to `1`, the byte
`(value & (0xFFL << shiftbits)) >> shiftbits` with `shiftbits = (idx - 1) * 8`. -/
def writeBytes (value : Nat) : Nat → WritableUtils → Except WritableError WritableUtils
  | 0, w => .ok w
  | idx + 1, w =>
    match w.writeByte (value / 2 ^ (idx * 8) % 256 : Nat) with
    | .error e => .error e
    | .ok w => writeBytes value idx w

/-- `WriteInt64(value)`: the number of bytes written. Outside -112..127, a negative value is
complemented (`value ^= -1L`, that is `-value - 1`) and the first byte counts down from -120
instead of -112, one for each byte of the value. -/
def WriteInt64 (w : WritableUtils) (value : Int64) : Except WritableError (Nat × WritableUtils) :=
  let value := value.toInt
  if value ≥ -112 ∧ value ≤ 127 then
    match w.writeByte value with
    | .error e => .error e
    | .ok w => .ok (1, w)
  else
    let len : Int := if value < 0 then -120 else -112
    let value := if value < 0 then -value - 1 else value
    let len := len - shiftCount value.toNat
    match w.writeByte len with
    | .error e => .error e
    | .ok w =>
      let len := if len < -120 then -(len + 120) else -(len + 112)
      match writeBytes value.toNat len.toNat w with
      | .error e => .error e
      | .ok w => .ok (2 + len.toNat, w)

/-- `WriteInt32(value)`: `WriteInt64` of the same value. -/
def WriteInt32 (w : WritableUtils) (value : Int32) : Except WritableError (Nat × WritableUtils) :=
  w.WriteInt64 value.toInt64

/-- `WriteRaw(buf, size)`: the first `size` bytes of `buf` at `current`. -/
def WriteRaw (w : WritableUtils) (buf : List UInt8) (size : Nat) :
    Except WritableError (Nat × WritableUtils) :=
  if size > w.len - w.current then .error .overflow
  else
    let buffer := w.buffer.take w.current ++ buf.take size ++ w.buffer.drop (w.current + size)
    .ok (size, { buffer := buffer, current := w.current + size })

/-- `WriteText(str)`: the length of `str` as an `int32_t` (`int32_t length = str.length()`, which
keeps it modulo `2 ^ 32`), then that many bytes of `str`. -/
def WriteText (w : WritableUtils) (str : List UInt8) : Except WritableError (Nat × WritableUtils) :=
  let length := Int32.ofNat str.length
  match w.WriteInt32 length with
  | .error e => .error e
  | .ok (n, w) =>
    match w.WriteRaw str (toSizeT length.toInt) with
    | .error e => .error e
    | .ok (m, w) => .ok (n + m, w)

/-! ## Writing -/

/-- The buffer with `bs` written at `current`, and `current` past them. -/
def put (w : WritableUtils) (bs : List UInt8) : WritableUtils :=
  { buffer := w.buffer.take w.current ++ bs ++ w.buffer.drop (w.current + bs.length)
    current := w.current + bs.length }

@[simp] theorem current_put (w : WritableUtils) (bs : List UInt8) :
    (w.put bs).current = w.current + bs.length := rfl

@[simp] theorem put_nil (w : WritableUtils) : w.put [] = w := by
  simp [put]

theorem len_put {w : WritableUtils} {bs : List UInt8} (h : w.current + bs.length ≤ w.len) :
    (w.put bs).len = w.len := by
  simp only [put, len, List.length_append, List.length_take, List.length_drop] at h ⊢
  omega

/-- Two writes one after the other are one write of both. -/
theorem put_put {w : WritableUtils} {a b : List UInt8} (h : w.current + a.length + b.length ≤ w.len) :
    (w.put a).put b = w.put (a ++ b) := by
  have hT : (w.buffer.take w.current).length = w.current := by
    simp only [len] at h
    simp only [List.length_take]
    omega
  have hbuf : (w.put a).buffer =
      (w.buffer.take w.current ++ a) ++ w.buffer.drop (w.current + a.length) := rfl
  -- the second write keeps the first one's bytes before it, and the buffer's after it
  have htake : (w.put a).buffer.take (w.put a).current = w.buffer.take w.current ++ a := by
    rw [hbuf, current_put, List.take_left' (by simp [hT])]
  have hdrop : (w.put a).buffer.drop ((w.put a).current + b.length) =
      w.buffer.drop (w.current + (a ++ b).length) := by
    rw [hbuf, current_put, List.drop_append, List.drop_eq_nil_of_le (by simp [hT]),
      List.nil_append, List.length_append, hT, List.drop_drop, List.length_append]
    congr 1
    omega
  rw [put, htake, hdrop, current_put]
  simp [put, List.append_assoc, Nat.add_assoc]

/-- After a write, the bytes from where it started are those written, then the rest. -/
theorem drop_put {w : WritableUtils} {bs : List UInt8} (h : w.current + bs.length ≤ w.len) :
    (w.put bs).buffer.drop w.current = bs ++ w.buffer.drop (w.current + bs.length) := by
  have hT : (w.buffer.take w.current).length = w.current := by
    simp only [len] at h
    simp only [List.length_take]
    omega
  simp only [put]
  rw [List.append_assoc, List.drop_left' hT]

theorem intToChar_natCast (n : Nat) : intToChar n = UInt8.ofNat n := by
  apply UInt8.toNat_inj.mp
  simp only [intToChar, UInt8.toNat_ofNat']
  omega

theorem writeByte_ok {w : WritableUtils} (h : w.current + 1 ≤ w.len) (val : Int) :
    w.writeByte val = .ok (w.put [intToChar val]) := by
  have hc : w.current < w.buffer.length := by
    simp only [len] at h
    omega
  rw [writeByte, if_neg (by omega), List.set_eq_take_append_cons_drop, if_pos hc]
  simp [put]

/-- The loop of `WriteInt64` writes the low `idx` bytes of the value, most significant first. -/
theorem writeBytes_ok (value : Nat) {idx : Nat} {w : WritableUtils} (h : w.current + idx ≤ w.len) :
    writeBytes value idx w = .ok (w.put (Endian.beBytes value idx)) := by
  induction idx generalizing w with
  | zero => simp [writeBytes, Endian.beBytes, Endian.leBytes]
  | succ idx ih =>
    have hbyte : intToChar ((value / 2 ^ (idx * 8) % 256 : Nat) : Int) =
        UInt8.ofNat (value / 256 ^ idx) := by
      rw [intToChar_natCast, Nat.mul_comm, Nat.pow_mul]
      apply UInt8.toNat_inj.mp
      simp [UInt8.toNat_ofNat']
    rw [writeBytes, writeByte_ok (by omega), hbyte]
    dsimp only
    have hrest : (w.put [UInt8.ofNat (value / 256 ^ idx)]).current + idx ≤
        (w.put [UInt8.ofNat (value / 256 ^ idx)]).len := by
      rw [len_put (by simp; omega), current_put]
      simp only [List.length_singleton]
      omega
    rw [ih hrest, put_put (by simp; omega), Endian.beBytes_succ]
    rfl

theorem shiftCount_zero : shiftCount 0 = 0 := by
  rw [shiftCount, if_pos rfl]

theorem shiftCount_of_pos {tmp : Nat} (h : 0 < tmp) : shiftCount tmp = shiftCount (tmp / 256) + 1 := by
  rw [shiftCount, if_neg (by omega)]

/-- The bytes counted hold the value. -/
theorem lt_pow_shiftCount (tmp : Nat) : tmp < 256 ^ shiftCount tmp := by
  induction tmp using Nat.strongRecOn with
  | ind tmp ih =>
    rcases Nat.eq_zero_or_pos tmp with rfl | hpos
    · simp [shiftCount_zero]
    · have := ih (tmp / 256) (by omega)
      rw [shiftCount_of_pos hpos, Nat.pow_succ]
      omega

/-- No more bytes are counted than a bound on the value allows. -/
theorem shiftCount_le {tmp k : Nat} (h : tmp < 256 ^ k) : shiftCount tmp ≤ k := by
  induction k generalizing tmp with
  | zero =>
    have : tmp = 0 := by simpa using h
    simp [this, shiftCount_zero]
  | succ k ih =>
    rcases Nat.eq_zero_or_pos tmp with rfl | hpos
    · simp [shiftCount_zero]
    · rw [shiftCount_of_pos hpos]
      have := ih (show tmp / 256 < 256 ^ k by rw [Nat.pow_succ] at h; omega)
      omega

theorem shiftCount_pos {tmp : Nat} (h : 0 < tmp) : 0 < shiftCount tmp := by
  rw [shiftCount_of_pos h]
  omega

/-! ## The bytes of a VLong -/

/-- The value whose bytes follow the first byte of a VLong: the one's complement of a negative
value, the value itself otherwise. -/
def magnitude (v : Int) : Nat := (if v < 0 then -v - 1 else v).toNat

/-- The bytes of `v` as a VLong: the byte of `v` for -112..127; otherwise a first byte that gives the
sign and the number `n` of bytes of the magnitude, then those `n` bytes, most significant first. -/
def vlongBytes (v : Int) : List UInt8 :=
  if -112 ≤ v ∧ v ≤ 127 then [intToChar v]
  else
    intToChar ((if v < 0 then -120 else -112) - shiftCount (magnitude v)) ::
      Endian.beBytes (magnitude v) (shiftCount (magnitude v))

/-- The magnitude of an `int64_t` takes at most eight bytes, and at least one outside -112..127. -/
theorem shiftCount_magnitude {v : Int} (hlo : -2 ^ 63 ≤ v) (hhi : v < 2 ^ 63)
    (hs : ¬ (-112 ≤ v ∧ v ≤ 127)) :
    0 < shiftCount (magnitude v) ∧ shiftCount (magnitude v) ≤ 8 := by
  constructor
  · apply shiftCount_pos
    simp only [magnitude]
    split <;> omega
  · apply shiftCount_le
    simp only [magnitude]
    split <;> omega

theorem length_vlongBytes (v : Int) :
    (vlongBytes v).length = if -112 ≤ v ∧ v ≤ 127 then 1 else shiftCount (magnitude v) + 1 := by
  unfold vlongBytes
  split <;> simp

/-- A VLong of an `int64_t` takes one to nine bytes. -/
theorem length_vlongBytes_le {v : Int} (hlo : -2 ^ 63 ≤ v) (hhi : v < 2 ^ 63) :
    1 ≤ (vlongBytes v).length ∧ (vlongBytes v).length ≤ 9 := by
  rw [length_vlongBytes]
  split
  · omega
  · have := shiftCount_magnitude hlo hhi ‹_›
    omega

/-- **What `WriteInt64` writes.** The bytes of the VLong, at `current`. It answers their number,
plus one when there is more than one: `retval` starts at one and counts the first byte again. -/
theorem WriteInt64_ok (v : Int64) {w : WritableUtils}
    (h : w.current + (vlongBytes v.toInt).length ≤ w.len) :
    w.WriteInt64 v = .ok ((vlongBytes v.toInt).length +
      (if -112 ≤ v.toInt ∧ v.toInt ≤ 127 then 0 else 1), w.put (vlongBytes v.toInt)) := by
  unfold WriteInt64
  by_cases hs : -112 ≤ v.toInt ∧ v.toInt ≤ 127
  · -- one byte
    have hlen : (vlongBytes v.toInt).length = 1 := by rw [length_vlongBytes, if_pos hs]
    rw [if_pos hs, writeByte_ok (by omega)]
    simp [vlongBytes, if_pos hs]
  · -- the first byte, then the bytes of the magnitude
    obtain ⟨hpos, hle⟩ := shiftCount_magnitude v.le_toInt v.toInt_lt hs
    have hlen : (vlongBytes v.toInt).length = shiftCount (magnitude v.toInt) + 1 := by
      rw [length_vlongBytes, if_neg hs]
    have hmag : (if v.toInt < 0 then -v.toInt - 1 else v.toInt).toNat = magnitude v.toInt := rfl
    rw [if_neg hs]
    dsimp only
    rw [hmag, writeByte_ok (by omega)]
    dsimp only
    -- the count read back from the first byte is the number of bytes of the magnitude
    have hcount : (if (if v.toInt < 0 then (-120 : Int) else -112) - shiftCount (magnitude v.toInt) < -120
        then -((if v.toInt < 0 then (-120 : Int) else -112) - shiftCount (magnitude v.toInt) + 120)
        else -((if v.toInt < 0 then (-120 : Int) else -112) - shiftCount (magnitude v.toInt) + 112)).toNat =
        shiftCount (magnitude v.toInt) := by
      split <;> split <;> omega
    rw [hcount, writeBytes_ok _ (by rw [len_put (by simp; omega), current_put]; simp; omega),
      put_put (by simp; omega), hlen]
    simp only [vlongBytes, if_neg hs, List.singleton_append]
    congr 2
    omega

/-! ## Reading -/

theorem charToInt_intToChar {v : Int} (hlo : -128 ≤ v) (hhi : v < 128) :
    charToInt (intToChar v) = v := by
  have hbyte : (intToChar v).toNat = (v % 256).toNat := by
    simp only [intToChar, UInt8.toNat_ofNat']
    omega
  rw [charToInt, hbyte]
  split <;> omega

/-- A `char` converted to `unsigned char` is the byte again. -/
theorem charToInt_emod (b : UInt8) : (charToInt b % 256).toNat = b.toNat := by
  have := b.toNat_lt
  rw [charToInt]
  split <;> omega

theorem readByte_ok {w : WritableUtils} {b : UInt8} {rest : List UInt8}
    (h : w.buffer.drop w.current = b :: rest) :
    w.readByte = .ok (charToInt b, { w with current := w.current + 1 }) := by
  have hlt : w.current < w.buffer.length := by
    have := congrArg List.length h
    simp only [List.length_drop, List.length_cons] at this
    omega
  have hget : w.buffer.getD w.current 0 = b := by
    have : (w.buffer.drop w.current)[0]? = some b := by rw [h]; rfl
    rw [List.getElem?_drop, Nat.add_zero] at this
    simp [List.getD_eq_getElem?_getD, this]
  rw [readByte, if_neg (by simp only [len]; omega), hget]

/-- The loop of `ReadInt64` reads the next bytes as a number, most significant first. -/
theorem readBytes_ok {bs rest : List UInt8} :
    ∀ {i : Nat} {w : WritableUtils}, w.buffer.drop w.current = bs ++ rest →
      readBytes bs.length i w =
        .ok (i * 256 ^ bs.length + Endian.beDecode bs, { w with current := w.current + bs.length }) := by
  induction bs with
  | nil =>
    intro i w _
    simp [readBytes, Endian.beDecode, Endian.leDecode]
  | cons b bs ih =>
    intro i w h
    have hnext : w.buffer.drop (w.current + 1) = bs ++ rest := by
      rw [← List.drop_drop, h]
      rfl
    rw [List.length_cons, readBytes, readByte_ok h]
    dsimp only
    rw [ih hnext, charToInt_emod, Endian.beDecode_cons]
    have hval : (i * 256 + b.toNat) * 256 ^ bs.length + Endian.beDecode bs =
        i * 256 ^ (bs.length + 1) + (b.toNat * 256 ^ bs.length + Endian.beDecode bs) := by
      rw [Nat.pow_succ, Nat.add_mul, Nat.mul_assoc, Nat.mul_comm 256 (256 ^ bs.length),
        Nat.add_assoc]
    rw [hval, Nat.add_assoc, Nat.add_comm 1 bs.length]

/-- **`ReadInt64` reads a VLong back.** From bytes that start with the VLong of an `int64_t` value,
whatever follows, `ReadInt64` reads the value and moves past the VLong's bytes. -/
theorem ReadInt64_vlongBytes {v : Int} (hlo : -2 ^ 63 ≤ v) (hhi : v < 2 ^ 63) {w : WritableUtils}
    {rest : List UInt8} (h : w.buffer.drop w.current = vlongBytes v ++ rest) :
    w.ReadInt64 = .ok (Int64.ofInt v, { w with current := w.current + (vlongBytes v).length }) := by
  by_cases hs : -112 ≤ v ∧ v ≤ 127
  · -- one byte, read back as the value
    rw [vlongBytes, if_pos hs, List.singleton_append] at h
    rw [ReadInt64, readByte_ok h, vlongBytes, if_pos hs]
    dsimp only
    rw [charToInt_intToChar (by omega) (by omega), decodeWritableUtilsSize, if_pos hs.1, if_pos rfl]
    rfl
  · -- the first byte gives the sign and the count, then the bytes of the magnitude
    obtain ⟨hpos, hle⟩ := shiftCount_magnitude hlo hhi hs
    set n := shiftCount (magnitude v) with hn
    have hfirst : charToInt (intToChar ((if v < 0 then -120 else -112) - n)) =
        (if v < 0 then -120 else -112) - n :=
      charToInt_intToChar (by split <;> omega) (by split <;> omega)
    rw [vlongBytes, if_neg hs, List.cons_append] at h
    rw [ReadInt64, readByte_ok h]
    dsimp only
    rw [hfirst]
    have hsize : decodeWritableUtilsSize ((if v < 0 then -120 else -112) - n) = n + 1 := by
      unfold decodeWritableUtilsSize
      split_ifs <;> omega
    have hneg : isNegativeWritableUtils ((if v < 0 then -120 else -112) - n) = decide (v < 0) := by
      unfold isNegativeWritableUtils
      by_cases hv : v < 0
      · simp only [hv, if_true, decide_true, Bool.or_eq_true, decide_eq_true_eq]
        omega
      · simp only [hv, if_false, decide_false, Bool.or_eq_false_iff, decide_eq_false_iff_not,
          Bool.and_eq_false_iff]
        omega
    have hnext : w.buffer.drop (w.current + 1) = Endian.beBytes (magnitude v) n ++ rest := by
      rw [← List.drop_drop, h]
      rfl
    have hbytes := @readBytes_ok _ _ 0 { w with current := w.current + 1 } hnext
    rw [Endian.length_beBytes] at hbytes
    rw [hsize, if_neg (by omega), show (n + 1 - 1 : Int).toNat = n by omega, hbytes,
      Endian.beDecode_beBytes _ _ (hn ▸ lt_pow_shiftCount _), hneg, vlongBytes, if_neg hs]
    simp only [Nat.zero_mul, Nat.zero_add, List.length_cons, Endian.length_beBytes]
    congr 3
    · simp only [magnitude, decide_eq_true_eq]
      split <;> omega
    · omega

theorem ReadInt32_vlongBytes {v : Int} (hlo : -2 ^ 31 ≤ v) (hhi : v < 2 ^ 31) {w : WritableUtils}
    {rest : List UInt8} (h : w.buffer.drop w.current = vlongBytes v ++ rest) :
    w.ReadInt32 = .ok (Int32.ofInt v, { w with current := w.current + (vlongBytes v).length }) := by
  have hval : (Int64.ofInt v).toInt = v := Int64.toInt_ofInt_of_le (by omega) (by omega)
  rw [ReadInt32, ReadInt64_vlongBytes (by omega) (by omega) h]
  dsimp only
  rw [hval, if_neg (by omega)]

theorem ReadRaw_ok {w : WritableUtils} {bs rest : List UInt8}
    (h : w.buffer.drop w.current = bs ++ rest) :
    w.ReadRaw bs.length = .ok (bs, { w with current := w.current + bs.length }) := by
  have hroom : bs.length ≤ w.len - w.current := by
    have := congrArg List.length h
    simp only [List.length_drop, List.length_append] at this
    simp only [len]
    omega
  rw [ReadRaw, if_neg (by omega), h, List.take_left' rfl]

theorem WriteRaw_ok {w : WritableUtils} {buf : List UInt8} {size : Nat} (h : w.current + size ≤ w.len)
    (hbuf : size ≤ buf.length) :
    w.WriteRaw buf size = .ok (size, w.put (buf.take size)) := by
  have hlen : (buf.take size).length = size := by simp; omega
  rw [WriteRaw, if_neg (by omega)]
  simp [put, hlen]

theorem toSizeT_natCast {n : Nat} (h : n < 2 ^ 64) : toSizeT n = n := by
  rw [toSizeT]
  omega

/-! ## Round trips -/

/-- **The VLong round trip.** In a buffer with nine bytes free, `WriteInt64` writes one to nine
bytes, and `ReadInt64` from where it started reads the value back and ends where the write ended. -/
theorem ReadInt64_WriteInt64 (v : Int64) {w : WritableUtils} (h : w.current + 9 ≤ w.len) :
    ∃ n, w.WriteInt64 v = .ok (n, w.put (vlongBytes v.toInt)) ∧
      1 ≤ (vlongBytes v.toInt).length ∧ (vlongBytes v.toInt).length ≤ 9 ∧
      { w.put (vlongBytes v.toInt) with current := w.current }.ReadInt64 =
        .ok (v, w.put (vlongBytes v.toInt)) := by
  obtain ⟨hlo, hhi⟩ := length_vlongBytes_le v.le_toInt v.toInt_lt
  have hroom : w.current + (vlongBytes v.toInt).length ≤ w.len := by omega
  refine ⟨_, WriteInt64_ok v hroom, hlo, hhi, ?_⟩
  rw [ReadInt64_vlongBytes v.le_toInt v.toInt_lt (drop_put hroom), Int64.ofInt_toInt]
  rfl

/-- `300`, which takes three bytes, in a buffer of nine. -/
theorem ReadInt64_WriteInt64_of_three_hundred :
    ∃ n, (⟨List.replicate 9 0, 0⟩ : WritableUtils).WriteInt64 300 =
        .ok (n, (⟨List.replicate 9 0, 0⟩ : WritableUtils).put (vlongBytes (300 : Int64).toInt)) ∧
      1 ≤ (vlongBytes (300 : Int64).toInt).length ∧ (vlongBytes (300 : Int64).toInt).length ≤ 9 ∧
      { (⟨List.replicate 9 0, 0⟩ : WritableUtils).put (vlongBytes (300 : Int64).toInt) with
          current := 0 }.ReadInt64 =
        .ok (300, (⟨List.replicate 9 0, 0⟩ : WritableUtils).put (vlongBytes (300 : Int64).toInt)) :=
  @ReadInt64_WriteInt64 300 ⟨List.replicate 9 0, 0⟩ (by decide)

/-- `int32_t length = str.length()`: the length modulo `2 ^ 32`, as long as that is below
`2 ^ 31`. -/
theorem toInt_ofNat_length {L : Nat} (h : L % 2 ^ 32 < 2 ^ 31) :
    (Int32.ofNat L).toInt = (L % 2 ^ 32 : Nat) := by
  rw [Int32.toInt_ofNat', Int.bmod]
  simp only [Int32.size]
  split <;> omega

/-- **`WriteText` keeps the length modulo `2 ^ 32`.** When that is below `2 ^ 31`, and the VLong of
it and as many bytes fit, `WriteText` writes them, the first bytes of the string; `ReadText` from
where it started reads those bytes back and ends where the write ended. -/
theorem ReadText_WriteText_mod {str : List UInt8} (hlen : str.length % 2 ^ 32 < 2 ^ 31)
    {w : WritableUtils}
    (h : w.current + (vlongBytes (str.length % 2 ^ 32 : Nat)).length + str.length % 2 ^ 32 ≤ w.len) :
    ∃ n, w.WriteText str = .ok (n, w.put (vlongBytes (str.length % 2 ^ 32 : Nat) ++
        str.take (str.length % 2 ^ 32))) ∧
      { w.put (vlongBytes (str.length % 2 ^ 32 : Nat) ++ str.take (str.length % 2 ^ 32)) with
        current := w.current }.ReadText =
        .ok (str.take (str.length % 2 ^ 32),
          w.put (vlongBytes (str.length % 2 ^ 32 : Nat) ++ str.take (str.length % 2 ^ 32))) := by
  set k := str.length % 2 ^ 32 with hk
  have hval : (Int32.ofNat str.length).toInt = k := toInt_ofNat_length hlen
  have htake : (str.take k).length = k := by
    rw [List.length_take]
    omega
  have hroom1 : w.current + (vlongBytes k).length ≤ w.len := by omega
  have hroom : w.current + (vlongBytes k ++ str.take k).length ≤ w.len := by
    rw [List.length_append, htake]
    omega
  have hroom2 : (w.put (vlongBytes k)).current + k ≤ (w.put (vlongBytes k)).len := by
    rw [len_put hroom1, current_put]
    omega
  -- the length, then as many bytes
  have hwrite : w.WriteText str =
      .ok ((vlongBytes k).length + (if -112 ≤ (k : Int) ∧ (k : Int) ≤ 127 then 0 else 1) + k,
        w.put (vlongBytes k ++ str.take k)) := by
    rw [WriteText, WriteInt32, WriteInt64_ok _ (by rw [Int32.toInt_toInt64, hval]; exact hroom1),
      Int32.toInt_toInt64, hval]
    dsimp only
    rw [toSizeT_natCast (by omega), WriteRaw_ok hroom2 (by omega), put_put (by omega)]
  refine ⟨_, hwrite, ?_⟩
  -- the length is read back, and is not negative; then the bytes
  have hdrop := drop_put hroom
  rw [List.append_assoc] at hdrop
  have hbytes : List.drop (w.current + (vlongBytes k).length) (w.put (vlongBytes k ++ str.take k)).buffer =
      str.take k ++ w.buffer.drop (w.current + (vlongBytes k ++ str.take k).length) := by
    rw [← List.drop_drop, hdrop, List.drop_left' rfl]
  have hnat : (Int32.ofInt (k : Int)).toInt = k := by
    rw [Int32.ofInt_eq_ofNat, Int32.toInt_ofNat_of_lt (by omega)]
  rw [ReadText, ReadInt32_vlongBytes (by omega) (by omega) hdrop]
  dsimp only
  rw [hnat, if_neg (by omega), Int.toNat_natCast]
  have hraw := ReadRaw_ok (w := { w.put (vlongBytes k ++ str.take k) with
    current := w.current + (vlongBytes k).length }) hbytes
  rw [htake] at hraw
  rw [hraw]
  simp only [put, List.length_append, htake, Nat.add_assoc]

/-- **The text round trip, for strings shorter than `2 ^ 31` bytes.** When the VLong of the length
and the bytes fit, `ReadText` after `WriteText` reads the string back and ends where the write
ended. -/
theorem ReadText_WriteText {str : List UInt8} (hlen : str.length < 2 ^ 31) {w : WritableUtils}
    (h : w.current + (vlongBytes str.length).length + str.length ≤ w.len) :
    ∃ n, w.WriteText str = .ok (n, w.put (vlongBytes str.length ++ str)) ∧
      { w.put (vlongBytes str.length ++ str) with current := w.current }.ReadText =
        .ok (str, w.put (vlongBytes str.length ++ str)) := by
  have hmod : str.length % 2 ^ 32 = str.length := Nat.mod_eq_of_lt (by omega)
  have h' := @ReadText_WriteText_mod str (by omega) w (by rw [hmod]; exact h)
  rw [hmod, List.take_length] at h'
  exact h'

/-- Three bytes in a buffer of eight: one byte of length, then the bytes. -/
theorem ReadText_WriteText_of_three_bytes :
    ∃ n, (⟨List.replicate 8 0, 0⟩ : WritableUtils).WriteText [7, 8, 9] =
        .ok (n, (⟨List.replicate 8 0, 0⟩ : WritableUtils).put (vlongBytes [7, 8, 9].length ++ [7, 8, 9])) ∧
      { (⟨List.replicate 8 0, 0⟩ : WritableUtils).put (vlongBytes [7, 8, 9].length ++ [7, 8, 9]) with
          current := 0 }.ReadText =
        .ok ([7, 8, 9], (⟨List.replicate 8 0, 0⟩ : WritableUtils).put (vlongBytes [7, 8, 9].length ++
          [7, 8, 9])) :=
  @ReadText_WriteText [7, 8, 9] (by decide) ⟨List.replicate 8 0, 0⟩ (by decide)

/-- `WriteInt64(128)` answers three bytes but writes two, which are all `ReadInt64` reads; and
`WriteText` of a string of `2 ^ 32 + 1` bytes writes the length `1` and one byte, which is what
`ReadText` reads back. -/
theorem writableUtils_round_trip_fails :
    (∃ w', (WritableUtils.new (List.replicate 9 0)).WriteInt64 128 = .ok (3, w') ∧
      (WritableUtils.new w'.buffer).ReadInt64 = .ok (128, ⟨w'.buffer, 2⟩)) ∧
    (∃ n w', (WritableUtils.new (List.replicate (2 ^ 32 + 6) 0)).WriteText
        (List.replicate (2 ^ 32 + 1) 0) = .ok (n, w') ∧
      (WritableUtils.new w'.buffer).ReadText = .ok ([0], ⟨w'.buffer, 2⟩)) := by
  constructor
  · -- `128` takes a first byte and one byte of magnitude
    have hcount : shiftCount (magnitude 128) = 1 := by
      rw [magnitude, if_neg (by decide), shiftCount_of_pos (by decide),
        show Int.toNat 128 / 256 = 0 from rfl, shiftCount_zero]
    have hbytes : vlongBytes 128 = [intToChar (-113), 128] := by
      rw [vlongBytes, if_neg (by decide), hcount]
      rfl
    have hv : (128 : Int64).toInt = 128 := rfl
    have hroom : (WritableUtils.new (List.replicate 9 0)).current + (vlongBytes 128).length ≤
        (WritableUtils.new (List.replicate 9 0)).len := by
      rw [hbytes]
      decide
    have hn : (vlongBytes 128).length + (if -112 ≤ (128 : Int) ∧ (128 : Int) ≤ 127 then 0 else 1) = 3 := by
      rw [hbytes]
      decide
    have hwrite := WriteInt64_ok 128 (hv ▸ hroom)
    rw [hv, hn] at hwrite
    refine ⟨_, hwrite, ?_⟩
    rw [ReadInt64_vlongBytes (by decide) (by decide) (drop_put hroom), hbytes]
    rfl
  · -- the length `2 ^ 32 + 1` is kept as `1`
    have hk : (List.replicate (2 ^ 32 + 1) (0 : UInt8)).length % 2 ^ 32 = 1 := by
      rw [List.length_replicate]
      decide
    have hone : vlongBytes ((1 : Nat) : Int) = [1] := by
      rw [vlongBytes, if_pos (by decide)]
      rfl
    have hroom : (WritableUtils.new (List.replicate (2 ^ 32 + 6) 0)).current +
        (vlongBytes ((1 : Nat) : Int)).length + 1 ≤ (WritableUtils.new (List.replicate (2 ^ 32 + 6) 0)).len := by
      rw [hone, new, len, List.length_replicate]
      decide
    obtain ⟨n, hwrite, hread⟩ := ReadText_WriteText_mod (by rw [hk]; decide) (by rw [hk]; exact hroom)
    rw [hk, List.take_replicate, hone] at hwrite hread
    refine ⟨n, _, hwrite, ?_⟩
    exact hread

/-! ## One field at a time -/

/-- What `WriteInt32` writes: the VLong of the value, with the count `WriteInt64` answers. -/
theorem WriteInt32_ok (x : Int32) {w : WritableUtils}
    (h : w.current + (vlongBytes x.toInt).length ≤ w.len) :
    w.WriteInt32 x = .ok ((vlongBytes x.toInt).length +
      (if -112 ≤ x.toInt ∧ x.toInt ≤ 127 then 0 else 1), w.put (vlongBytes x.toInt)) := by
  have hwrite := WriteInt64_ok x.toInt64 (by rw [Int32.toInt_toInt64]; exact h)
  rw [Int32.toInt_toInt64] at hwrite
  exact hwrite

/-- What `WriteText` writes, for a string shorter than `2 ^ 31` bytes: the VLong of its length and
its bytes, with one more in the count when the length takes more than one byte. -/
theorem WriteText_ok {str : List UInt8} (hlen : str.length < 2 ^ 31) {w : WritableUtils}
    (h : w.current + (vlongBytes str.length).length + str.length ≤ w.len) :
    w.WriteText str = .ok ((vlongBytes str.length).length +
      (if str.length ≤ 127 then 0 else 1) + str.length, w.put (vlongBytes str.length ++ str)) := by
  have hval : (Int32.ofNat str.length).toInt = str.length := Int32.toInt_ofNat_of_lt hlen
  have hroom : (w.put (vlongBytes str.length)).current + str.length ≤
      (w.put (vlongBytes str.length)).len := by
    rw [len_put (by omega), current_put]
    omega
  have hwide : (if -112 ≤ (str.length : Int) ∧ (str.length : Int) ≤ 127 then 0 else 1) =
      if str.length ≤ 127 then 0 else 1 := by
    split_ifs <;> omega
  rw [WriteText, WriteInt32_ok _ (by rw [hval]; omega), hval, hwide]
  dsimp only
  rw [toSizeT_natCast (by omega), WriteRaw_ok hroom (by omega), List.take_length, put_put (by omega)]

/-- **`ReadText` reads a text back.** From bytes that start with the VLong of a length below
`2 ^ 31` and as many bytes, whatever follows, `ReadText` reads those bytes and moves past them. -/
theorem ReadText_vlongBytes {str rest : List UInt8} (hlen : str.length < 2 ^ 31) {w : WritableUtils}
    (h : w.buffer.drop w.current = vlongBytes str.length ++ str ++ rest) :
    w.ReadText = .ok (str, { w with current := w.current + (vlongBytes str.length ++ str).length }) := by
  rw [List.append_assoc] at h
  have hnat : (Int32.ofInt (str.length : Int)).toInt = str.length := by
    rw [Int32.ofInt_eq_ofNat, Int32.toInt_ofNat_of_lt (by omega)]
  have hbytes : List.drop (w.current + (vlongBytes str.length).length) w.buffer = str ++ rest := by
    rw [← List.drop_drop, h, List.drop_left' rfl]
  rw [ReadText, ReadInt32_vlongBytes (by omega) (by omega) h]
  dsimp only
  rw [hnat, if_neg (by omega), Int.toNat_natCast]
  rw [ReadRaw_ok (w := { w with current := w.current + (vlongBytes str.length).length }) hbytes]
  simp only [List.length_append, Nat.add_assoc]

end WritableUtils

end HdfsClient
