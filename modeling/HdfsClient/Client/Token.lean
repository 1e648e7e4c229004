import HdfsClient.Common.WritableUtils
import HdfsClient.Common.Exception
import HdfsClient.Lib.Base64

/-!
# Tokens as strings

A delegation token (`client/Token.cpp`) is four byte strings: the identifier, the password, the kind
and the service. `toString` writes them into a buffer of 1024 bytes with `WritableUtils`: the
identifier and the password each after its length as an `int32_t`, the kind and the service as
texts. It adds up the counts the writes answer and encodes that many bytes of the buffer in base64
(`gsasl_base64_to`), made URL-safe: `+` and `/` become `-` and `_`, and the string is cut at its
first `=`. `fromString` swaps the characters back and decodes (`gsasl_base64_from`); while the
decoder rejects its input, it appends `=`, at most twice. Then it reads the four fields.

**The model.** gsasl is not part of the client: `gsasl_base64_to` and `gsasl_base64_from` are a
parameter (`Gsasl`), with what the client assumes of them, that they are a padded base64 encoder
over the standard alphabet and a decoder that undoes it and rejects a length that is not a multiple
of four. The standard encoder and the strict decoder of `Base64` are such a pair
(`Gsasl.rfc4648`).

* `writeFields_ok` — the writes lay the fields out one after the other, and their counts add up to
  one more than the bytes for each field whose length takes more than one byte.
* `toString_reads_past_buffer` — a token whose fields fill the buffer, or nearly, with a long
  field, has `toString` encode more bytes than the buffer holds.
* `fromString_toString` — when the counted bytes fit the buffer, `toString` gives a string of
  URL-safe letters, and `fromString` reads the token back from it.
-/

namespace HdfsClient

/-- A delegation token: `identifier`, `password`, `kind` and `service`. -/
structure Token where
  identifier : List UInt8
  password : List UInt8
  kind : List UInt8
  service : List UInt8
  deriving DecidableEq, Repr

/-- How `toString` fails: the exception it throws, or a read past the end of its buffer. -/
inductive TokenFailure
  | exception (e : HdfsError)
  | undefined
  deriving DecidableEq, Repr

/-- What `Token` uses of gsasl: `gsasl_base64_to(in, len, &out, &outlen)` and
`gsasl_base64_from(in, inlen, &out, &outlen)`, the second `none` where it fails; and what the round
trip assumes of them. -/
structure Gsasl where
  gsasl_base64_to : List UInt8 → List Char
  gsasl_base64_from : List Char → Option (List UInt8)
  to_eq_letters_append_pad : ∀ bs, ∃ ls,
    gsasl_base64_to bs = ls ++ List.replicate (Base64.padding bs.length) '=' ∧
      ∀ c ∈ ls, Base64.IsLetter c
  length_to : ∀ bs, (gsasl_base64_to bs).length % 4 = 0
  from_to : ∀ bs, gsasl_base64_from (gsasl_base64_to bs) = some bs
  from_eq_none_of_length : ∀ cs : List Char, cs.length % 4 ≠ 0 → gsasl_base64_from cs = none

/-- The standard padded encoder and the strict decoder of RFC 4648. -/
def Gsasl.rfc4648 : Gsasl where
  gsasl_base64_to := Base64.encode
  gsasl_base64_from := Base64.decode
  to_eq_letters_append_pad := Base64.encode_eq_letters_append_pad
  length_to bs := by
    rw [Base64.length_encode]
    omega
  from_to := Base64.decode_encode
  from_eq_none_of_length _ := Base64.decode_eq_none_of_length

namespace Token

open WritableUtils

variable (gsasl : Gsasl)

/-- A character of the encoding in the URL-safe alphabet: `+` becomes `-` and `/` becomes `_`. -/
def toUrlSafe (c : Char) : Char := if c = '+' then '-' else if c = '/' then '_' else c

/-- The loop of `Base64Encode` over the encoding: the characters in the URL-safe alphabet, up to the
first `=`, where `retval.resize(i)` ends the string. -/
def urlSafe : List Char → List Char
  | [] => []
  | c :: cs => if c = '=' then [] else toUrlSafe c :: urlSafe cs

/-- `Base64Encode(input, len)`, on the `len` bytes. -/
def Base64Encode (input : List UInt8) : List Char := urlSafe (gsasl.gsasl_base64_to input)

/-- The first loop of `Base64Decode`: `-` back to `+`, `_` back to `/`. -/
def fromUrlSafe (input : List Char) : List Char :=
  input.map fun c => if c = '-' then '+' else if c = '_' then '/' else c

/-- The second loop of `Base64Decode`: `gsasl_base64_from`, and while it rejects its input, one
more `=`, at most `left` more times. -/
def decodeAppending (input : List Char) : Nat → Option (List UInt8)
  | 0 => gsasl.gsasl_base64_from input
  | left + 1 =>
    match gsasl.gsasl_base64_from input with
    | some out => some out
    | none => decodeAppending (input ++ ['=']) left

/-- `Base64Decode(urlSafe, buffer)`: the bytes, or `none` where it throws
`std::invalid_argument`. -/
def Base64Decode (urlSafe : List Char) : Option (List UInt8) :=
  decodeAppending gsasl (fromUrlSafe urlSafe) 2

/-- The writes of `toString` into a buffer of 1024 bytes: the sum of the counts they answer, and
the buffer. -/
def writeFields (t : Token) : Except WritableError (Nat × List UInt8) := do
  let out := WritableUtils.new (List.replicate 1024 0)
  let (n₁, out) ← out.WriteInt32 (Int32.ofNat t.identifier.length)
  let (n₂, out) ← out.WriteRaw t.identifier t.identifier.length
  let (n₃, out) ← out.WriteInt32 (Int32.ofNat t.password.length)
  let (n₄, out) ← out.WriteRaw t.password t.password.length
  let (n₅, out) ← out.WriteText t.kind
  let (n₆, out) ← out.WriteText t.service
  pure (n₁ + n₂ + n₃ + n₄ + n₅ + n₆, out.buffer)

/-- `toString()`: the base64 of the first `len` bytes of the buffer, `len` the sum of the counts. An
exception of the writes is nested in an `HdfsIOException`; a `len` past the buffer has
`Base64Encode` read past its end. -/
def toString (t : Token) : Except TokenFailure (List Char) :=
  match writeFields t with
  | .error _ => .error (.exception .ioException)
  | .ok (len, buffer) =>
    if len > buffer.length then .error .undefined else .ok (Base64Encode gsasl (buffer.take len))

/-- The reads of `fromString`. `resize` to a negative `int32_t` length throws. -/
def readFields (buffer : List UInt8) : Except WritableError Token := do
  let r := WritableUtils.new buffer
  let (len, r) ← r.ReadInt32
  if len.toInt < 0 then throw .lengthError
  let (identifier, r) ← r.ReadRaw len.toInt.toNat
  let (len, r) ← r.ReadInt32
  if len.toInt < 0 then throw .lengthError
  let (password, r) ← r.ReadRaw len.toInt.toNat
  let (kind, r) ← r.ReadText
  let (service, _) ← r.ReadText
  pure ⟨identifier, password, kind, service⟩

/-- `fromString(str)`: any exception is nested in an `HdfsInvalidBlockToken`. -/
def fromString (str : List Char) : Except HdfsError Token :=
  match Base64Decode gsasl str with
  | none => .error .invalidBlockToken
  | some buffer =>
    match readFields buffer with
    | .ok t => .ok t
    | .error _ => .error .invalidBlockToken

/-! ## What `toString` writes -/

/-- A field as `toString` writes it: the VLong of its length, then its bytes. -/
def fieldBytes (s : List UInt8) : List UInt8 := vlongBytes s.length ++ s

/-- One when the length of a field takes more than one byte, where `WriteInt64` counts one byte
too many. -/
def wide (s : List UInt8) : Nat := if s.length ≤ 127 then 0 else 1

/-- The bytes of a token, as `toString` writes them. -/
def serialise (t : Token) : List UInt8 :=
  fieldBytes t.identifier ++ fieldBytes t.password ++ fieldBytes t.kind ++ fieldBytes t.service

/-- The bytes the counts of the writes add to those written. -/
def overcount (t : Token) : Nat := wide t.identifier + wide t.password + wide t.kind + wide t.service

theorem length_serialise (t : Token) :
    t.serialise.length = (fieldBytes t.identifier).length + (fieldBytes t.password).length +
      (fieldBytes t.kind).length + (fieldBytes t.service).length := by
  simp only [serialise, List.length_append]

theorem length_lt_of_fieldBytes {s : List UInt8} {n : Nat} (h : (fieldBytes s).length ≤ n) :
    s.length ≤ n := by
  simp only [fieldBytes, List.length_append] at h
  omega

/-- `WriteInt32` of the length of a field, then `WriteRaw` of its bytes. -/
theorem writeRaw_field {s : List UInt8} (hlen : s.length < 2 ^ 31) {w : WritableUtils}
    (h : w.current + (fieldBytes s).length ≤ w.len) :
    w.WriteInt32 (Int32.ofNat s.length) =
        .ok ((vlongBytes s.length).length + wide s, w.put (vlongBytes s.length)) ∧
      (w.put (vlongBytes s.length)).WriteRaw s s.length = .ok (s.length, w.put (fieldBytes s)) := by
  have hval : (Int32.ofNat s.length).toInt = s.length := Int32.toInt_ofNat_of_lt hlen
  have hsize : (fieldBytes s).length = (vlongBytes s.length).length + s.length := by
    simp [fieldBytes]
  constructor
  · have hwide : (if -112 ≤ (s.length : Int) ∧ (s.length : Int) ≤ 127 then 0 else 1) = wide s := by
      simp only [wide]
      split_ifs <;> omega
    rw [WriteInt32_ok _ (by rw [hval]; omega), hval, hwide]
  · rw [WriteRaw_ok (by rw [len_put (by omega), current_put]; omega) (Nat.le_refl _), List.take_length,
      put_put (by omega)]
    rfl

/-- `WriteText` of a field. -/
theorem writeText_field {s : List UInt8} (hlen : s.length < 2 ^ 31) {w : WritableUtils}
    (h : w.current + (fieldBytes s).length ≤ w.len) :
    w.WriteText s = .ok ((fieldBytes s).length + wide s, w.put (fieldBytes s)) := by
  have hsize : (fieldBytes s).length = (vlongBytes s.length).length + s.length := by
    simp [fieldBytes]
  rw [WriteText_ok hlen (by omega), hsize]
  simp only [wide, fieldBytes]
  congr 2
  omega

/-- **What `toString` writes.** When the fields fit the buffer, the writes lay them out one after
the other, and the counts add up to the bytes written plus `overcount`. -/
theorem writeFields_ok {t : Token} (h : t.serialise.length ≤ 1024) :
    writeFields t = .ok (t.serialise.length + t.overcount,
      t.serialise ++ List.replicate (1024 - t.serialise.length) 0) := by
  have hser := length_serialise t
  let w₀ := WritableUtils.new (List.replicate 1024 0)
  have hcur₀ : w₀.current = 0 := rfl
  have hlen₀ : w₀.len = 1024 := List.length_replicate
  -- the buffer after each field, which keeps its length
  let w₁ := w₀.put (fieldBytes t.identifier)
  let w₂ := w₁.put (fieldBytes t.password)
  let w₃ := w₂.put (fieldBytes t.kind)
  have hcur₁ : w₁.current = (fieldBytes t.identifier).length := by rw [current_put, hcur₀]; omega
  have hcur₂ : w₂.current = w₁.current + (fieldBytes t.password).length := current_put _ _
  have hcur₃ : w₃.current = w₂.current + (fieldBytes t.kind).length := current_put _ _
  have hlen₁ : w₁.len = 1024 := by rw [len_put (by omega), hlen₀]
  have hlen₂ : w₂.len = 1024 := by rw [len_put (by omega), hlen₁]
  have hlen₃ : w₃.len = 1024 := by rw [len_put (by omega), hlen₂]
  have hid := length_lt_of_fieldBytes (s := t.identifier) (n := 1024) (by omega)
  have hpw := length_lt_of_fieldBytes (s := t.password) (n := 1024) (by omega)
  have hkind := length_lt_of_fieldBytes (s := t.kind) (n := 1024) (by omega)
  have hservice := length_lt_of_fieldBytes (s := t.service) (n := 1024) (by omega)
  obtain ⟨hint₁, hraw₁⟩ := writeRaw_field (s := t.identifier) (w := w₀) (by omega) (by omega)
  obtain ⟨hint₂, hraw₂⟩ := writeRaw_field (s := t.password) (w := w₁) (by omega) (by omega)
  have htext₃ := writeText_field (s := t.kind) (w := w₂) (by omega) (by omega)
  have htext₄ := writeText_field (s := t.service) (w := w₃) (by omega) (by omega)
  unfold writeFields
  dsimp only [bind, Except.bind]
  rw [hint₁]
  dsimp only
  rw [hraw₁]
  dsimp only
  rw [hint₂]
  dsimp only
  rw [hraw₂]
  dsimp only
  rw [htext₃]
  dsimp only
  rw [htext₄]
  dsimp only
  -- the four writes are one write of the whole token
  have hbuffer : (w₃.put (fieldBytes t.service)).buffer =
      t.serialise ++ List.replicate (1024 - t.serialise.length) 0 := by
    have h₂ : w₂ = w₀.put (fieldBytes t.identifier ++ fieldBytes t.password) :=
      put_put (by rw [hcur₀, hlen₀]; omega)
    have h₃ : w₃ = w₀.put (fieldBytes t.identifier ++ fieldBytes t.password ++ fieldBytes t.kind) := by
      show w₂.put (fieldBytes t.kind) = _
      rw [h₂, put_put (by rw [hcur₀, hlen₀, List.length_append]; omega)]
    have hall : w₃.put (fieldBytes t.service) = w₀.put t.serialise := by
      rw [h₃, put_put (by rw [hcur₀, hlen₀, List.length_append, List.length_append]; omega)]
      rfl
    rw [hall]
    show (List.replicate 1024 0).take 0 ++ t.serialise ++
      (List.replicate 1024 (0 : UInt8)).drop (0 + t.serialise.length) = _
    rw [List.take_zero, List.nil_append, Nat.zero_add, List.drop_replicate]
  rw [hbuffer]
  simp only [fieldBytes, List.length_append] at hser
  simp only [overcount, fieldBytes, List.length_append, pure, Except.pure]
  congr 2
  omega

/-- A token whose fields fit the buffer, but not with the bytes counted too many, has `toString`
encode more bytes than the buffer holds: `Base64Encode` reads past the end of the vector. A field
longer than 127 bytes in a token of exactly 1024 bytes is such a token. -/
theorem toString_reads_past_buffer {t : Token} (hfit : t.serialise.length ≤ 1024)
    (hover : 1024 < t.serialise.length + t.overcount) : t.toString gsasl = .error .undefined := by
  rw [toString, writeFields_ok hfit]
  dsimp only
  rw [if_pos (by simp; omega)]

/-- An identifier of 1000 bytes and a service of 18 bytes fill the buffer exactly; the length
`1000` takes three bytes, which `WriteInt32` counts as four. -/
theorem toString_reads_past_buffer_on_long_identifier :
    (⟨List.replicate 1000 0, [], [], List.replicate 18 0⟩ : Token).toString Gsasl.rfc4648 =
      .error .undefined :=
  toString_reads_past_buffer Gsasl.rfc4648 (by decide +kernel) (by decide +kernel)

/-! ## The round trip -/

/-- The loop of `Base64Encode` on letters and padding: the letters in the URL-safe alphabet. -/
theorem urlSafe_letters_append_pad {ls : List Char} (hls : ∀ c ∈ ls, Base64.IsLetter c) (k : Nat) :
    urlSafe (ls ++ List.replicate k '=') = ls.map toUrlSafe := by
  induction ls with
  | nil =>
    cases k with
    | zero => rfl
    | succ k => rw [List.nil_append, List.replicate_succ, urlSafe, if_pos rfl, List.map_nil]
  | cons c ls ih =>
    have hc : c ≠ '=' := (hls c List.mem_cons_self).ne_of_value Base64.value_pad
    rw [List.cons_append, urlSafe, if_neg hc, ih fun d hd => hls d (List.mem_cons_of_mem c hd),
      List.map_cons]

/-- `-` and `_` are no letters of the standard alphabet, so the first loop of `Base64Decode`
undoes the URL-safe letters. -/
theorem fromUrlSafe_map_toUrlSafe {ls : List Char} (hls : ∀ c ∈ ls, Base64.IsLetter c) :
    fromUrlSafe (ls.map toUrlSafe) = ls := by
  rw [fromUrlSafe, List.map_map]
  conv => rhs; rw [← List.map_id ls]
  apply List.map_congr_left
  intro c hc
  have hdash : c ≠ '-' := (hls c hc).ne_of_value (by decide)
  have hunder : c ≠ '_' := (hls c hc).ne_of_value (by decide)
  simp only [Function.comp_apply, toUrlSafe, id]
  split_ifs <;> simp_all

/-- The second loop of `Base64Decode` on the letters of an encoding with `k` of its `p` signs `=`:
the decoder rejects the string until the `p` signs are back, which takes at most `left` more. -/
theorem decodeAppending_letters {ls : List Char} {bs : List UInt8} {p : Nat}
    (henc : gsasl.gsasl_base64_to bs = ls ++ List.replicate p '=') (hp : p ≤ 2) :
    ∀ left k, k ≤ p → p ≤ k + left →
      decodeAppending gsasl (ls ++ List.replicate k '=') left = some bs := by
  -- the length of the letters leaves `p` to a multiple of four
  have hlen : (ls.length + p) % 4 = 0 := by
    have := gsasl.length_to bs
    rw [henc, List.length_append, List.length_replicate] at this
    exact this
  intro left
  induction left with
  | zero =>
    intro k hk hkl
    obtain rfl : k = p := by omega
    rw [decodeAppending, ← henc, gsasl.from_to]
  | succ left ih =>
    intro k hk hkl
    rw [decodeAppending]
    by_cases hkp : k = p
    · subst hkp
      rw [← henc, gsasl.from_to]
    · have hshort : (ls ++ List.replicate k '=').length % 4 ≠ 0 := by
        rw [List.length_append, List.length_replicate]
        omega
      rw [gsasl.from_eq_none_of_length _ hshort]
      dsimp only
      rw [List.append_assoc, ← List.replicate_succ']
      exact ih (k + 1) (by omega) (by omega)

/-- **`Base64Decode` undoes `Base64Encode`.** -/
theorem Base64Decode_Base64Encode (bs : List UInt8) :
    Base64Decode gsasl (Base64Encode gsasl bs) = some bs := by
  obtain ⟨ls, henc, hls⟩ := gsasl.to_eq_letters_append_pad bs
  have hp : Base64.padding bs.length ≤ 2 := by
    simp only [Base64.padding]
    omega
  rw [Base64Decode, Base64Encode, henc, urlSafe_letters_append_pad hls,
    fromUrlSafe_map_toUrlSafe hls]
  simpa using decodeAppending_letters gsasl henc hp 2 0 (by omega) (by omega)

/-- `Base64Encode` gives URL-safe letters only: no `+`, no `/`, no `=`. -/
theorem Base64Encode_urlSafe (bs : List UInt8) :
    ∀ c ∈ Base64Encode gsasl bs, c ≠ '+' ∧ c ≠ '/' ∧ c ≠ '=' := by
  obtain ⟨ls, henc, hls⟩ := gsasl.to_eq_letters_append_pad bs
  rw [Base64Encode, henc, urlSafe_letters_append_pad hls]
  intro c hc
  obtain ⟨d, hd, rfl⟩ := List.mem_map.1 hc
  have hpad : d ≠ '=' := (hls d hd).ne_of_value Base64.value_pad
  simp only [toUrlSafe]
  split_ifs <;> simp_all

/-- `ReadInt32` then `ReadRaw` of a field: a length that is not negative, then the bytes. -/
theorem readRaw_field {s rest : List UInt8} (hlen : s.length < 2 ^ 31) {r : WritableUtils}
    (h : r.buffer.drop r.current = fieldBytes s ++ rest) :
    ∃ len : Int32,
      r.ReadInt32 = .ok (len, { r with current := r.current + (vlongBytes s.length).length }) ∧
      len.toInt = s.length ∧
      ({ r with current := r.current + (vlongBytes s.length).length } : WritableUtils).ReadRaw
        len.toInt.toNat = .ok (s, { r with current := r.current + (fieldBytes s).length }) := by
  rw [fieldBytes, List.append_assoc] at h
  have hval : (Int32.ofInt (s.length : Int)).toInt = s.length := by
    rw [Int32.ofInt_eq_ofNat, Int32.toInt_ofNat_of_lt hlen]
  have hbytes : ({ r with current := r.current + (vlongBytes s.length).length } : WritableUtils).buffer.drop
      (r.current + (vlongBytes s.length).length) = s ++ rest := by
    rw [← List.drop_drop, h, List.drop_left' rfl]
  refine ⟨_, ReadInt32_vlongBytes (by omega) (by omega) h, hval, ?_⟩
  rw [hval, Int.toNat_natCast, ReadRaw_ok hbytes]
  simp only [fieldBytes, List.length_append, Nat.add_assoc]

/-- `ReadText` of a field. -/
theorem readText_field {s rest : List UInt8} (hlen : s.length < 2 ^ 31) {r : WritableUtils}
    (h : r.buffer.drop r.current = fieldBytes s ++ rest) :
    r.ReadText = .ok (s, { r with current := r.current + (fieldBytes s).length }) :=
  ReadText_vlongBytes hlen h

/-- **What `fromString` reads.** From the bytes of a token, whatever follows them, `readFields`
reads the token back. -/
theorem readFields_serialise {t : Token} (hfit : t.serialise.length < 2 ^ 31)
    (rest : List UInt8) : readFields (t.serialise ++ rest) = .ok t := by
  have hser := length_serialise t
  have hid := length_lt_of_fieldBytes (s := t.identifier) (n := t.serialise.length) (by omega)
  have hpw := length_lt_of_fieldBytes (s := t.password) (n := t.serialise.length) (by omega)
  have hkind := length_lt_of_fieldBytes (s := t.kind) (n := t.serialise.length) (by omega)
  have hservice := length_lt_of_fieldBytes (s := t.service) (n := t.serialise.length) (by omega)
  -- the reader at the start of each field
  let buf := fieldBytes t.identifier ++ (fieldBytes t.password ++ (fieldBytes t.kind ++
    (fieldBytes t.service ++ rest)))
  have hbuf : t.serialise ++ rest = buf := by simp only [buf, serialise, List.append_assoc]
  let r₁ := WritableUtils.new buf
  let r₂ : WritableUtils := { r₁ with current := r₁.current + (fieldBytes t.identifier).length }
  let r₃ : WritableUtils := { r₂ with current := r₂.current + (fieldBytes t.password).length }
  let r₄ : WritableUtils := { r₃ with current := r₃.current + (fieldBytes t.kind).length }
  obtain ⟨len₁, hint₁, hval₁, hraw₁⟩ := readRaw_field (r := r₁) (s := t.identifier) (by omega) List.drop_zero
  obtain ⟨len₂, hint₂, hval₂, hraw₂⟩ := readRaw_field (r := r₂) (s := t.password) (by omega)
    (show buf.drop (0 + _) = _ by rw [Nat.zero_add, List.drop_left' rfl])
  have htext₃ := readText_field (r := r₃) (s := t.kind) (by omega)
    (show buf.drop (0 + _ + _) = _ by rw [Nat.zero_add, ← List.drop_drop, List.drop_left' rfl,
      List.drop_left' rfl])
  have htext₄ := readText_field (r := r₄) (s := t.service) (by omega)
    (show buf.drop (0 + _ + _ + _) = _ by rw [Nat.zero_add, ← List.drop_drop, ← List.drop_drop,
      List.drop_left' rfl, List.drop_left' rfl, List.drop_left' rfl])
  rw [hbuf]
  unfold readFields
  dsimp only [bind, Except.bind]
  rw [hint₁]
  dsimp only
  rw [if_neg (by omega), hraw₁]
  dsimp only
  rw [hint₂]
  dsimp only
  rw [if_neg (by omega), hraw₂]
  dsimp only
  rw [htext₃]
  dsimp only
  rw [htext₄]
  rfl

/-- **The round trip.** When the bytes `toString` counts fit the buffer, `toString` gives a string
of URL-safe letters, with no `+`, `/` or `=`, and `fromString` reads the token back from it. -/
theorem fromString_toString {t : Token} (h : t.serialise.length + t.overcount ≤ 1024) :
    ∃ s, t.toString gsasl = .ok s ∧ (∀ c ∈ s, c ≠ '+' ∧ c ≠ '/' ∧ c ≠ '=') ∧
      fromString gsasl s = .ok t := by
  -- the bytes encoded: the token, then as many zeros of the buffer as were counted too many
  have htake : (t.serialise ++ List.replicate (1024 - t.serialise.length) 0).take
      (t.serialise.length + t.overcount) = t.serialise ++ List.replicate t.overcount 0 := by
    rw [List.take_append, List.take_of_length_le (by omega), Nat.add_sub_cancel_left,
      List.take_replicate, Nat.min_eq_left (by omega)]
  have htoString :
      t.toString gsasl = .ok (Base64Encode gsasl (t.serialise ++ List.replicate t.overcount 0)) := by
    rw [toString, writeFields_ok (by omega)]
    dsimp only
    rw [if_neg (by simp only [List.length_append, List.length_replicate]; omega), htake]
  refine ⟨_, htoString, Base64Encode_urlSafe gsasl _, ?_⟩
  rw [fromString, Base64Decode_Base64Encode]
  dsimp only
  rw [readFields_serialise (by omega)]

/-- An identifier of 200 bytes, whose length takes two bytes and is counted as three: the buffer
still holds the byte counted too many. -/
theorem fromString_toString_on_wide_identifier :
    ∃ s, (⟨List.replicate 200 7, [1], [2, 3], [4]⟩ : Token).toString Gsasl.rfc4648 = .ok s ∧
      (∀ c ∈ s, c ≠ '+' ∧ c ≠ '/' ∧ c ≠ '=') ∧
      fromString Gsasl.rfc4648 s = .ok ⟨List.replicate 200 7, [1], [2, 3], [4]⟩ :=
  fromString_toString Gsasl.rfc4648 (by decide +kernel)

end Token

end HdfsClient
