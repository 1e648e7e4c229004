import Mathlib.Data.List.TakeWhile
import Mathlib.Data.List.Infix
import Mathlib.Data.Nat.Digits.Defs

/-!
# `strtol`

The C library's `strtol(nptr, &end, base)` and `strtoll` read an integer at the front of a C
string: white space, an optional sign, then a numeral whose base, when `base` is 0, comes from its
prefix (`0x` hexadecimal, `0` octal, otherwise decimal). `end` is left after the last digit read,
or at `nptr` when there was none; a value out of the range of `long` sets `errno` to `ERANGE`.
The model follows glibc's `strtol_l.c` as it was before glibc 2.38, the C library it assumes: a
`0b` prefix is no binary numeral here. From 2.38 on, a program built with `_GNU_SOURCE`, as
libhdfs3 is (`CMake/Options.cmake`), gets the C2x `strtol`, which reads `0b` and `0B` as the prefix
of a binary numeral. Its digit loop accumulates in an `unsigned long` and sets
a flag instead when the next value would pass `ULONG_MAX`; that loop is `Radix.readDigits`, over
any alphabet. The range of `long` is checked after the loop.

* `Radix.readDigits_spec` — the loop reads the run of digits at the front, and its flag is set
  exactly when their value passes the largest value of the accumulator.
* `LibC.strto_of_literal` — on a complete C integer literal `strtol` reads to the end and returns
  its value, or `ERANGE`.
* `LibC.literal_of_strto` — when `strtol` reads a non-empty C string to its end, the string is
  such a literal.
-/

/-! ## Reading digits -/

namespace Radix

variable {α : Type*} (digit : α → Option Nat) (base max : Nat)

/-- `a` is a digit below `base`. -/
def isDigitIn (a : α) : Bool :=
  match digit a with
  | some d => decide (d < base)
  | none => false

/-- The value in base `base` of the digits of `as`, most significant first. -/
def digitsValue (as : List α) : Nat := Nat.ofDigits base (as.map fun a => (digit a).getD 0).reverse

/-- One digit of the loop: `i * base + d`, or, when that would pass `max`, the flag and `i` as it
was. -/
def addDigit (i : Nat) (overflow : Bool) (d : Nat) : Nat × Bool :=
  if i > max / base ∨ (i = max / base ∧ d > max % base) then (i, true) else (i * base + d, overflow)

/-- The loop over the digits at the front of the input: the accumulator, the flag, and the input
left after the last digit. -/
def readDigits : List α → Nat → Bool → Nat × Bool × List α
  | [], i, overflow => (i, overflow, [])
  | a :: s, i, overflow =>
    match digit a with
    | some d =>
      if d < base then readDigits s (addDigit base max i overflow d).1 (addDigit base max i overflow d).2
      else (i, overflow, a :: s)
    | none => (i, overflow, a :: s)

/-- The accumulator `i` and the flag against the value `t` of the digits read so far: the flag
says that `t` passes `max`, and without it `i` is `t`. -/
structure Tracks (i : Nat) (overflow : Bool) (t : Nat) : Prop where
  flag : overflow = decide (max < t)
  exact : overflow = false → i = t

theorem digitsValue_cons (a : α) (as : List α) :
    digitsValue digit base (a :: as) =
      (digit a).getD 0 * base ^ as.length + digitsValue digit base as := by
  simp only [digitsValue, List.map_cons, List.reverse_cons, Nat.ofDigits_append,
    Nat.ofDigits_singleton, List.length_reverse, List.length_map]
  ring

/-- The test of the loop says that adding the digit passes `max`. -/
theorem passes_iff {i d : Nat} (hd : d < base) :
    (i > max / base ∨ (i = max / base ∧ d > max % base)) ↔ max < i * base + d := by
  have hmax := Nat.div_add_mod' max base
  have hr := Nat.mod_lt max (show 0 < base by omega)
  rcases Nat.lt_trichotomy i (max / base) with hi | rfl | hi
  · have : (i + 1) * base ≤ max / base * base := Nat.mul_le_mul_right _ hi
    rw [Nat.succ_mul] at this
    omega
  · omega
  · have : (max / base + 1) * base ≤ i * base := Nat.mul_le_mul_right _ hi
    rw [Nat.succ_mul] at this
    omega

variable {digit base max}

theorem Tracks.start : Tracks max 0 false 0 := ⟨by simp, fun _ => rfl⟩

theorem Tracks.addDigit {i t : Nat} {o : Bool} (h : Tracks max i o t) {d : Nat} (hd : d < base) :
    Tracks max (addDigit base max i o d).1 (addDigit base max i o d).2 (t * base + d) := by
  have hpass := passes_iff base max (i := i) hd
  cases o with
  | false =>
    -- without the flag `i` is `t`, and the test is whether `t * base + d` passes `max`
    obtain rfl := h.exact rfl
    unfold Radix.addDigit
    split
    · exact ⟨by simp [hpass.1 ‹_›], by simp⟩
    · exact ⟨by simp [show ¬max < i * base + d from fun h' => ‹¬_› (hpass.2 h')], fun _ => rfl⟩
  | true =>
    -- with it `t` passes `max` already, and so does every value after it
    have ht : max < t := by simpa using h.flag.symm
    have hgrow : t ≤ t * base := Nat.le_mul_of_pos_right t (by omega)
    unfold Radix.addDigit
    split <;> exact ⟨(decide_eq_true (by omega)).symm, by simp⟩

variable (digit base) in
/-- **The digit loop.** From any input, the loop stops at the first character that is not a digit
below `base`, and its accumulator and flag track the value of the run of digits before it. -/
theorem readDigits_spec (s : List α) {i t : Nat} {o : Bool} (h : Tracks max i o t) :
    Tracks max (readDigits digit base max s i o).1 (readDigits digit base max s i o).2.1
        (t * base ^ (s.takeWhile (isDigitIn digit base)).length +
          digitsValue digit base (s.takeWhile (isDigitIn digit base))) ∧
      (readDigits digit base max s i o).2.2 = s.dropWhile (isDigitIn digit base) := by
  induction s generalizing i o t with
  | nil => simpa [readDigits, digitsValue] using h
  | cons a s ih =>
    cases hda : digit a with
    | none =>
      have hn : isDigitIn digit base a = false := by simp [isDigitIn, hda]
      simpa [readDigits, hda, List.takeWhile_cons_of_neg, List.dropWhile_cons_of_neg, hn,
        digitsValue] using h
    | some d =>
      by_cases hd : d < base
      · have hy : isDigitIn digit base a = true := by simp [isDigitIn, hda, hd]
        obtain ⟨h₁, h₂⟩ := ih (h.addDigit hd)
        rw [List.takeWhile_cons_of_pos hy, List.dropWhile_cons_of_pos hy]
        simp only [readDigits, hda, if_pos hd]
        refine ⟨?_, h₂⟩
        -- the run `a :: run` after `t` has the value of `run` after `t * base + d`
        convert h₁ using 1
        rw [List.length_cons, digitsValue_cons, hda, Option.getD_some, pow_succ]
        ring
      · have hn : isDigitIn digit base a = false := by simp [isDigitIn, hda, hd]
        simpa [readDigits, hda, hd, List.takeWhile_cons_of_neg, List.dropWhile_cons_of_neg, hn,
          digitsValue] using h

variable (max) in
/-- A run of digits to the end of the input is read whole, from a zero accumulator. -/
theorem readDigits_all {s : List α} (hs : ∀ a ∈ s, isDigitIn digit base a) :
    Tracks max (readDigits digit base max s 0 false).1 (readDigits digit base max s 0 false).2.1
        (digitsValue digit base s) ∧
      (readDigits digit base max s 0 false).2.2 = [] := by
  obtain ⟨h₁, h₂⟩ := readDigits_spec digit base s (Tracks.start : Tracks max 0 false 0)
  rw [List.takeWhile_eq_self_iff.2 hs, zero_mul, zero_add] at h₁
  exact ⟨h₁, h₂.trans (List.dropWhile_eq_nil_iff.2 hs)⟩

end Radix

namespace LibC

open Radix

/-! ## The model -/

/-- `isspace` in the C locale: space, `\t`, `\n`, `\v`, `\f` and `\r`. -/
def isspace (c : Char) : Bool :=
  c == ' ' || c == '\t' || c == '\n' || c == '\x0b' || c == '\x0c' || c == '\r'

/-- The character `*(s + i)` of a C string; past its end, the terminating NUL. -/
def charAt (s : List Char) (i : Nat) : Char := (s.drop i).headD '\x00'

/-- A character as `strtol` reads a digit: `0` to `9`, then the letters of either case from 10
on. -/
def strtolDigit (c : Char) : Option Nat :=
  if '0' ≤ c ∧ c ≤ '9' then some (c.toNat - '0'.toNat)
  else if c.isAlpha then some (c.toUpper.toNat - 'A'.toNat + 10)
  else none

/-- The values `strtol` stores in `errno`. -/
inductive Errno
  | EINVAL
  | ERANGE
  deriving DecidableEq, Repr

/-- What `strtol(nptr, &end, base)` gives: the value, `end - nptr`, and what it stored in
`errno`, if anything. -/
structure StrtolResult where
  value : Int
  endPos : Nat
  errno : Option Errno
  deriving DecidableEq, Repr

/-- The sign: whether it is `-`, and the string after it. -/
def skipSign (s : List Char) : Bool × List Char :=
  if charAt s 0 = '-' then (true, s.drop 1)
  else if charAt s 0 = '+' then (false, s.drop 1)
  else (false, s)

/-- The prefix and the base. `0x` or `0X` makes the base 16, for `base` 0 or 16, and is skipped;
a `0` otherwise makes it 8, for `base` 0, and is kept as a digit; anything else makes it 10, for
`base` 0. -/
def numberPrefix (base : Nat) (s : List Char) : Nat × List Char :=
  if charAt s 0 = '0' then
    if (base = 0 ∨ base = 16) ∧ (charAt s 1).toUpper = 'X' then (16, s.drop 2)
    else if base = 0 then (8, s) else (base, s)
  else if base = 0 then (10, s) else (base, s)

/-- `noconv`, where no digit was read from `save` on: `end` is the `x` of a `0x` that no
hexadecimal digit follows, and `nptr` otherwise; the value is 0. -/
def noconv (nptr save : List Char) : StrtolResult :=
  let k := nptr.length - save.length
  if 2 ≤ k ∧ (charAt nptr (k - 1)).toUpper = 'X' ∧ charAt nptr (k - 2) = '0' then ⟨0, k - 1, none⟩
  else ⟨0, 0, none⟩

/-- `LONG_MAX`, or `-LONG_MIN` for a negative number, for a `long` of `w` bits. -/
def longBound (w : Nat) (negative : Bool) : Nat :=
  if negative then 2 ^ (w - 1) else 2 ^ (w - 1) - 1

/-- `strtol(nptr, &end, base)` for a `long` of `w` bits, as glibc's `strtol_l.c` computes it.
`base` is an `int` there; a negative one is refused like `1` and those past 36. -/
def strto (w : Nat) (nptr : List Char) (base : Nat) : StrtolResult :=
  if base = 1 ∨ 36 < base then ⟨0, 0, some .EINVAL⟩
  else
    let s := nptr.dropWhile isspace
    if charAt s 0 = '\x00' then noconv nptr nptr
    else
      let (negative, s) := skipSign s
      let (base, save) := numberPrefix base s
      let (i, overflow, s) := readDigits strtolDigit base (2 ^ w - 1) save 0 false
      if s.length = save.length then noconv nptr save
      else
        -- a value within `unsigned long` that passes `LONG_MAX` (or `-LONG_MIN`) overflows too
        let overflow := overflow || decide (longBound w negative < i)
        if overflow then
          ⟨if negative then -2 ^ (w - 1) else 2 ^ (w - 1) - 1, nptr.length - s.length, some .ERANGE⟩
        else ⟨if negative then -(i : Int) else i, nptr.length - s.length, none⟩

/-- `strtol`: a `long` has 64 bits (LP64). -/
def strtol (nptr : List Char) (base : Nat) : StrtolResult := strto 64 nptr base

/-- `strtoll`: a `long long` has 64 bits. -/
def strtoll (nptr : List Char) (base : Nat) : StrtolResult := strto 64 nptr base

example : strtol " -0x1F".toList 0 = ⟨-31, 6, none⟩ := by decide
example : strtol "0x".toList 0 = ⟨0, 1, none⟩ := by decide
example : strtol "".toList 0 = ⟨0, 0, none⟩ := by decide

/-! ## C integer literals -/

/-- An octal digit. -/
def isOctDigit (c : Char) : Bool := '0' ≤ c && c ≤ '7'

/-- A hexadecimal digit. -/
def isHexDigit (c : Char) : Bool := c.isDigit || ('a' ≤ c && c ≤ 'f') || ('A' ≤ c && c ≤ 'F')

/-- The value of a hexadecimal digit, so also of an octal or a decimal one. -/
def hexDigitValue (c : Char) : Nat :=
  if c.isDigit then c.toNat - '0'.toNat
  else if 'a' ≤ c ∧ c ≤ 'f' then c.toNat - 'a'.toNat + 10
  else c.toNat - 'A'.toNat + 10

/-- The value of the digits `ds` in base `b`, most significant first. -/
def numeralValue (b : Nat) (ds : List Char) : Nat := Nat.ofDigits b (ds.map hexDigitValue).reverse

/-- The integer constants of C without a suffix (C11 6.4.4.1) and their values: decimal, with a
first digit that is not `0`; octal, after a `0`; hexadecimal, after `0x` or `0X`. -/
inductive IntegerConstant : List Char → Nat → Prop
  | decimal {d : Char} {ds : List Char} (hd : '1' ≤ d ∧ d ≤ '9') (hds : ∀ c ∈ ds, c.isDigit) :
      IntegerConstant (d :: ds) (numeralValue 10 (d :: ds))
  | octal {ds : List Char} (hds : ∀ c ∈ ds, isOctDigit c) :
      IntegerConstant ('0' :: ds) (numeralValue 8 ds)
  | hexadecimal {x : Char} {ds : List Char} (hx : x = 'x' ∨ x = 'X') (hne : ds ≠ [])
      (hds : ∀ c ∈ ds, isHexDigit c) : IntegerConstant ('0' :: x :: ds) (numeralValue 16 ds)

/-- The sign before a number: none, `+` or `-`. -/
def IsSign (sign : List Char) : Prop := sign = [] ∨ sign = ['+'] ∨ sign = ['-']

/-- `s` is a complete integer literal of value `n`, as `strtol` reads one with base 0: white
space, an optional sign, and an integer constant. -/
def IntLiteral (s : List Char) (n : Int) : Prop :=
  ∃ ws sign num m, s = ws ++ sign ++ num ∧ (∀ c ∈ ws, isspace c) ∧ IsSign sign ∧
    IntegerConstant num m ∧ n = if sign = ['-'] then -(m : Int) else m

/-- What `strtol` should give for a literal of value `n`: `n` when a `long` of `w` bits holds it,
and `ERANGE` otherwise. -/
def Converts (w : Nat) (r : StrtolResult) (n : Int) : Prop :=
  if -2 ^ (w - 1) ≤ n ∧ n < 2 ^ (w - 1) then r.errno = none ∧ r.value = n
  else r.errno = some .ERANGE

/-! ## Characters -/

/-- A fact about characters holds of all of them when it holds of the 128 ASCII characters and of
every character past them. -/
theorem forall_char {P : Char → Prop} (hascii : ∀ n < 128, P (Char.ofNat n))
    (hrest : ∀ c : Char, 128 ≤ c.toNat → P c) : ∀ c, P c := by
  intro c
  by_cases h : c.toNat < 128
  · rw [← Char.ofNat_toNat c]
    exact hascii _ h
  · exact hrest c (by omega)

/-- Past ASCII no character is a digit, a letter or white space. -/
theorem nonascii {c : Char} (h : 128 ≤ c.toNat) :
    (∀ d : Char, d.toNat < 128 → c ≠ d) ∧ strtolDigit c = none ∧ c.isDigit = false ∧
      isOctDigit c = false ∧ isHexDigit c = false ∧ isspace c = false ∧ c.toUpper = c ∧
      ¬(c ≤ '9') := by
  have hv : 128 ≤ c.val.toNat := h
  have hlower : ¬(97 ≤ c.toNat ∧ c.toNat ≤ 122) := by omega
  have hupper : ¬(65 ≤ c.toNat ∧ c.toNat ≤ 90) := by omega
  have hdigit : ¬(48 ≤ c.toNat ∧ c.toNat ≤ 57) := by omega
  have hne : ∀ d : Char, d.toNat < 128 → c ≠ d := by
    rintro d hd rfl
    omega
  -- `isAlpha` and `toUpper` by their bodies: the letters are ASCII
  have halpha : c.isAlpha = false := by
    show (decide (c.val ≥ 'A'.val ∧ c.val ≤ 'Z'.val) ||
      (decide (c.val ≥ 'a'.val) && decide (c.val ≤ 'z'.val))) = false
    have hA : 'A'.val.toNat = 65 := rfl
    have hZ : 'Z'.val.toNat = 90 := rfl
    have ha : 'a'.val.toNat = 97 := rfl
    have hz : 'z'.val.toNat = 122 := rfl
    simp only [UInt32.le_iff_toNat_le, ge_iff_le, Bool.or_eq_false_iff, Bool.and_eq_false_iff,
      decide_eq_false_iff_not]
    omega
  have htoUpper : c.toUpper = c := by
    show (if h : 'a'.val ≤ c.val ∧ c.val ≤ 'z'.val then _ else c) = c
    have ha : 'a'.val.toNat = 97 := rfl
    have hz : 'z'.val.toNat = 122 := rfl
    rw [dif_neg]
    simp only [UInt32.le_iff_toNat_le]
    omega
  refine ⟨hne, ?_⟩
  simp only [strtolDigit, Char.isDigit, isOctDigit, isHexDigit, isspace, halpha, htoUpper,
    Char.le_def, UInt32.le_iff_toNat_le]
  simp [hdigit, hne ' ' (by decide), hne '\t' (by decide), hne '\n' (by decide),
    hne '\x0b' (by decide), hne '\x0c' (by decide), hne '\r' (by decide)]
  omega

/-! The digits `strtol` reads in each base are those of C's grammar, with the same values. Each
fact is checked on the ASCII characters and follows from `nonascii` past them. -/

theorem isDigitIn_hex : ∀ c, isDigitIn strtolDigit 16 c = isHexDigit c := by
  refine forall_char (by decide) fun c h => ?_
  obtain ⟨-, hd, -, -, hhex, -⟩ := nonascii h
  simp [isDigitIn, hd, hhex]

theorem isDigitIn_dec : ∀ c, isDigitIn strtolDigit 10 c = c.isDigit := by
  refine forall_char (by decide) fun c h => ?_
  obtain ⟨-, hd, hdig, -⟩ := nonascii h
  simp [isDigitIn, hd, hdig]

theorem isDigitIn_oct : ∀ c, isDigitIn strtolDigit 8 c = isOctDigit c := by
  refine forall_char (by decide) fun c h => ?_
  obtain ⟨-, hd, -, hoct, -⟩ := nonascii h
  simp [isDigitIn, hd, hoct]

/-- On a hexadecimal digit `strtol` reads its value. -/
theorem strtolDigit_of_isHexDigit : ∀ c, isHexDigit c → strtolDigit c = some (hexDigitValue c) := by
  refine forall_char (by decide) fun c h => ?_
  obtain ⟨-, -, -, -, hhex, -⟩ := nonascii h
  simp [hhex]

theorem isHexDigit_of_isDigit : ∀ c : Char, c.isDigit → isHexDigit c := by
  refine forall_char (by decide) fun c h => ?_
  obtain ⟨-, -, hdig, -⟩ := nonascii h
  simp [hdig]

theorem isDigit_of_isOctDigit : ∀ c, isOctDigit c → c.isDigit := by
  refine forall_char (by decide) fun c h => ?_
  obtain ⟨-, -, -, hoct, -⟩ := nonascii h
  simp [hoct]

theorem toUpper_eq_X : ∀ c : Char, c.toUpper = 'X' ↔ c = 'x' ∨ c = 'X' := by
  refine forall_char (by decide) fun c h => ?_
  obtain ⟨hne, -, -, -, -, -, hup, -⟩ := nonascii h
  simp [hup, hne 'x' (by decide), hne 'X' (by decide)]

theorem nonzero_digit : ∀ c : Char, '1' ≤ c ∧ c ≤ '9' ↔ c.isDigit ∧ c ≠ '0' := by
  refine forall_char (by decide) fun c h => ?_
  obtain ⟨-, -, hdig, -, -, -, -, h9⟩ := nonascii h
  simp [hdig, h9]

/-- A digit is none of the characters before a number or in its prefix. -/
theorem digit_ne : ∀ c : Char, c.isDigit →
    isspace c = false ∧ c ≠ '-' ∧ c ≠ '+' ∧ c ≠ 'x' ∧ c ≠ 'X' := by
  refine forall_char (by decide) fun c h => ?_
  obtain ⟨-, -, hdig, -⟩ := nonascii h
  simp [hdig]

/-! ## Positions in a C string -/

@[simp] theorem charAt_nil (i : Nat) : charAt [] i = '\x00' := by
  simp [charAt]

@[simp] theorem charAt_cons_zero (c : Char) (s : List Char) : charAt (c :: s) 0 = c := rfl

@[simp] theorem charAt_cons_succ (c : Char) (s : List Char) (i : Nat) :
    charAt (c :: s) (i + 1) = charAt s i := rfl

/-- In a string without NUL, the NUL is read at its end and past it, and only there. -/
theorem charAt_eq_nul_iff {s : List Char} (h : '\x00' ∉ s) {i : Nat} :
    charAt s i = '\x00' ↔ s.length ≤ i := by
  induction s generalizing i with
  | nil => simp
  | cons c s ih =>
    have hc : c ≠ '\x00' := fun hc => h (hc ▸ List.mem_cons_self)
    cases i with
    | zero => simp [hc]
    | succ i =>
      rw [charAt_cons_succ, ih (fun hs => h (List.mem_cons_of_mem _ hs)), List.length_cons]
      omega

/-- `end` inside `nptr`, as a pointer to the suffix `t`. -/
theorem charAt_suffix {s t : List Char} (h : t <:+ s) : charAt s (s.length - t.length) = charAt t 0 := by
  rw [charAt, ← List.suffix_iff_eq_drop.1 h]
  rfl

/-! ## The steps of `strtol` -/

theorem skipSign_suffix (s : List Char) : (skipSign s).2 <:+ s := by
  unfold skipSign
  split
  · exact List.drop_suffix _ _
  · split
    · exact List.drop_suffix _ _
    · exact List.suffix_refl _

/-- The sign `skipSign` skips. -/
theorem skipSign_spec (s : List Char) :
    ∃ sign, IsSign sign ∧ s = sign ++ (skipSign s).2 ∧ ((skipSign s).1 = true ↔ sign = ['-']) := by
  unfold skipSign
  cases s with
  | nil => exact ⟨[], Or.inl rfl, rfl, by simp⟩
  | cons c s =>
    simp only [charAt_cons_zero]
    by_cases hminus : c = '-'
    · exact ⟨['-'], Or.inr (Or.inr rfl), by simp [hminus], by simp [hminus]⟩
    · by_cases hplus : c = '+'
      · exact ⟨['+'], Or.inr (Or.inl rfl), by simp [hplus], by simp [hplus]⟩
      · exact ⟨[], Or.inl rfl, by simp [hminus, hplus], by simp [hminus, hplus]⟩

/-- Before a number starting with a digit, `skipSign` takes its sign. -/
theorem skipSign_sign {sign num : List Char} (hsign : IsSign sign) {d : Char} {ds : List Char}
    (hnum : num = d :: ds) (hd : d.isDigit) :
    skipSign (sign ++ num) = (decide (sign = ['-']), num) := by
  obtain ⟨-, hminus, hplus, -, -⟩ := digit_ne d hd
  subst hnum
  rcases hsign with rfl | rfl | rfl <;> simp [skipSign, hminus, hplus]

theorem numberPrefix_suffix (base : Nat) (s : List Char) : (numberPrefix base s).2 <:+ s := by
  unfold numberPrefix
  split
  · split
    · exact List.drop_suffix _ _
    · split <;> exact List.suffix_refl _
  · split <;> exact List.suffix_refl _

/-- On strings of hexadecimal digits `strtol` computes the value of C's grammar. -/
theorem digitsValue_strtolDigit {b : Nat} {ds : List Char} (h : ∀ c ∈ ds, isHexDigit c) :
    digitsValue strtolDigit b ds = numeralValue b ds := by
  unfold digitsValue numeralValue
  congr 2
  refine List.map_congr_left fun c hc => ?_
  rw [strtolDigit_of_isHexDigit c (h c hc), Option.getD_some]

/-- An integer constant starts with a digit. -/
theorem IntegerConstant.head {num : List Char} {m : Nat} (h : IntegerConstant num m) :
    ∃ d ds, num = d :: ds ∧ d.isDigit := by
  cases h with
  | decimal hd => exact ⟨_, _, rfl, ((nonzero_digit _).1 hd).1⟩
  | octal => exact ⟨_, _, rfl, by decide⟩
  | hexadecimal => exact ⟨_, _, rfl, by decide⟩

/-- **The prefix of a constant.** `numberPrefix` finds the base of an integer constant, and the
digits after its prefix have its value. -/
theorem IntegerConstant.numberPrefix {num : List Char} {m : Nat} (h : IntegerConstant num m) :
    ∃ base save, LibC.numberPrefix 0 num = (base, save) ∧ save ≠ [] ∧
      (∀ c ∈ save, isDigitIn strtolDigit base c) ∧ digitsValue strtolDigit base save = m := by
  cases h with
  | @decimal d ds hd hds =>
    have hd' := (nonzero_digit d).1 hd
    refine ⟨10, d :: ds, by simp [LibC.numberPrefix, hd'.2], by simp, ?_, ?_⟩
    · intro c hc
      rw [isDigitIn_dec c]
      rcases List.mem_cons.1 hc with rfl | hc
      · exact hd'.1
      · exact hds c hc
    · refine digitsValue_strtolDigit fun c hc => isHexDigit_of_isDigit c ?_
      rcases List.mem_cons.1 hc with rfl | hc
      · exact hd'.1
      · exact hds c hc
  | @octal ds hds =>
    -- the character after the `0` is an octal digit or the NUL, so not an `x`
    have hx : (charAt ds 0).toUpper ≠ 'X' := by
      cases ds with
      | nil => decide
      | cons c ds =>
        rw [charAt_cons_zero, Ne, toUpper_eq_X]
        have := digit_ne c (isDigit_of_isOctDigit c (hds c List.mem_cons_self))
        tauto
    refine ⟨8, '0' :: ds, by simp [LibC.numberPrefix, hx], by simp, ?_, ?_⟩
    · intro c hc
      rw [isDigitIn_oct c]
      rcases List.mem_cons.1 hc with rfl | hc
      · decide
      · exact hds c hc
    · rw [digitsValue_cons, digitsValue_strtolDigit fun c hc =>
        isHexDigit_of_isDigit c (isDigit_of_isOctDigit c (hds c hc))]
      simp [strtolDigit]
  | @hexadecimal x ds hx hne hds =>
    have hX : x.toUpper = 'X' := (toUpper_eq_X x).2 hx
    refine ⟨16, ds, by simp [LibC.numberPrefix, hX], hne, fun c hc => ?_,
      digitsValue_strtolDigit hds⟩
    rw [isDigitIn_hex c]
    exact hds c hc

/-! ## Reading a literal -/

theorem dropWhile_isspace {ws rest : List Char} (hws : ∀ c ∈ ws, isspace c)
    (hrest : isspace (charAt rest 0) = false) : (ws ++ rest).dropWhile isspace = rest := by
  rw [List.dropWhile_append_of_pos hws]
  cases rest with
  | nil => rfl
  | cons c rest => exact List.dropWhile_cons_of_neg (by simpa using hrest)

/-- The end of `strtol`: with the value `m` of the digits tracked by the accumulator and the flag
of the loop, the range check and the sign give the value of the literal, or `ERANGE`. -/
theorem converts_of_tracks {w : Nat} (hw : 0 < w) {i m : Nat} {o : Bool} (negative : Bool)
    (h : Tracks (2 ^ w - 1) i o m) (e : Nat) :
    Converts w
      (if (o || decide (longBound w negative < i)) = true then
        ⟨if negative then -2 ^ (w - 1) else 2 ^ (w - 1) - 1, e, some .ERANGE⟩
      else ⟨if negative then -(i : Int) else i, e, none⟩)
      (if negative then -(m : Int) else m) := by
  obtain ⟨hflag, hexact⟩ := h
  have h2 : 2 ^ w = 2 * 2 ^ (w - 1) := by
    rw [← pow_succ']
    congr 1
    omega
  have hpos : 0 < 2 ^ (w - 1) := Nat.two_pow_pos _
  have hcast : (2 : Int) ^ (w - 1) = ((2 ^ (w - 1) : Nat) : Int) := by norm_cast
  unfold Converts longBound
  rw [hcast]
  cases o with
  | true =>
    -- the digits passed `ULONG_MAX`, so the literal is out of range whatever its sign
    have hm : 2 ^ w - 1 < m := by simpa using hflag.symm
    rw [if_pos (Bool.true_or _)]
    cases negative <;> simp <;> omega
  | false =>
    obtain rfl := hexact rfl
    have hm : i ≤ 2 ^ w - 1 := by simpa using hflag
    -- the accumulator holds the value, and the range check depends on the sign
    cases negative with
    | false => by_cases hb : 2 ^ (w - 1) - 1 < i <;> simp [hb] <;> omega
    | true => by_cases hb : 2 ^ (w - 1) < i <;> simp [hb] <;> omega

/-- **A literal is read whole.** On a complete integer literal `strtol` with base 0 reads to the
end of the string and returns the literal's value, or `ERANGE` when a `long` does not hold it. -/
theorem strto_of_literal {w : Nat} (hw : 0 < w) {s : List Char} {n : Int} (h : IntLiteral s n) :
    (strto w s 0).endPos = s.length ∧ Converts w (strto w s 0) n := by
  obtain ⟨ws, sign, num, m, rfl, hws, hsign, hnum, rfl⟩ := h
  obtain ⟨d, ds, hnd, hd⟩ := hnum.head
  obtain ⟨base, save, hpre, hne, hdig, rfl⟩ := hnum.numberPrefix
  -- the white space goes, and the sign is read
  have hfirst : charAt (sign ++ num) 0 ≠ '\x00' ∧ isspace (charAt (sign ++ num) 0) = false := by
    obtain ⟨hsp, -⟩ := digit_ne d hd
    have hnul : d ≠ '\x00' := by
      rintro rfl
      exact absurd hd (by decide)
    rcases hsign with rfl | rfl | rfl
    · simp [hnd, hsp, hnul]
    all_goals simp [isspace]
  have hdrop : (ws ++ sign ++ num).dropWhile isspace = sign ++ num := by
    rw [List.append_assoc]
    exact dropWhile_isspace hws hfirst.2
  simp only [strto, hdrop, skipSign_sign hsign hnd hd, hpre]
  -- then the digits, to the end
  obtain ⟨htr, hrest⟩ := readDigits_all (2 ^ w - 1) hdig
  generalize readDigits strtolDigit base (2 ^ w - 1) save 0 false = r at htr hrest
  obtain ⟨i, o, rest⟩ := r
  obtain rfl : rest = [] := hrest
  have hlen : ([] : List Char).length ≠ save.length := by
    simpa [eq_comm] using hne
  rw [if_neg (by decide), if_neg hfirst.1, if_neg hlen]
  refine ⟨by split <;> simp, ?_⟩
  have := converts_of_tracks hw (decide (sign = ['-'])) htr ((ws ++ sign ++ num).length - 0)
  simpa using this

/-- Where `noconv` leaves `end` in a non-empty string there is no NUL: it is at the `x` of a `0x`
or at the first character. -/
theorem charAt_noconv {s : List Char} (hnul : '\x00' ∉ s) (hs : s ≠ []) (save : List Char) :
    charAt s (noconv s save).endPos ≠ '\x00' := by
  simp only [noconv]
  split
  · rename_i h
    intro h0
    have hX := h.2.1
    rw [h0] at hX
    exact absurd hX (by decide)
  · rw [Ne, charAt_eq_nul_iff hnul]
    simpa [Nat.pos_iff_ne_zero] using hs

/-- **The prefix read back.** When the digits after the prefix `numberPrefix` finds are all digits
of its base, and there is at least one, the string is an integer constant of their value. -/
theorem integerConstant_of_numberPrefix {s save : List Char} {base : Nat}
    (h : numberPrefix 0 s = (base, save)) (hne : save ≠ [])
    (hdig : ∀ c ∈ save, isDigitIn strtolDigit base c) :
    IntegerConstant s (digitsValue strtolDigit base save) := by
  unfold numberPrefix at h
  by_cases h0 : charAt s 0 = '0'
  · obtain ⟨t, rfl⟩ : ∃ t, s = '0' :: t := by
      cases s with
      | nil => exact absurd h0 (by decide)
      | cons c t => exact ⟨t, by rw [← h0]; rfl⟩
    rw [if_pos h0] at h
    by_cases hx : (charAt ('0' :: t) 1).toUpper = 'X'
    · -- after `0x` the digits are hexadecimal
      rw [if_pos ⟨Or.inl rfl, hx⟩, Prod.mk.injEq] at h
      obtain ⟨rfl, rfl⟩ := h
      cases t with
      | nil => exact absurd hx (by decide)
      | cons x ds =>
        simp only [List.drop_succ_cons, List.drop_zero] at hne hdig ⊢
        have hhex : ∀ c ∈ ds, isHexDigit c := fun c hc => isDigitIn_hex c ▸ hdig c hc
        rw [digitsValue_strtolDigit hhex]
        exact .hexadecimal ((toUpper_eq_X x).1 hx) hne hhex
    · -- after a `0` alone they are octal, and the `0` is one of them
      rw [if_neg (fun h' => hx h'.2), if_pos rfl, Prod.mk.injEq] at h
      obtain ⟨rfl, rfl⟩ := h
      have hoct : ∀ c ∈ t, isOctDigit c :=
        fun c hc => isDigitIn_oct c ▸ hdig c (List.mem_cons_of_mem _ hc)
      rw [digitsValue_cons, digitsValue_strtolDigit fun c hc =>
        isHexDigit_of_isDigit c (isDigit_of_isOctDigit c (hoct c hc))]
      simpa [strtolDigit] using IntegerConstant.octal hoct
  · -- otherwise they are decimal, and the first is not `0`
    rw [if_neg h0, if_pos rfl, Prod.mk.injEq] at h
    obtain ⟨rfl, rfl⟩ := h
    have hdec : ∀ c ∈ s, c.isDigit := fun c hc => isDigitIn_dec c ▸ hdig c hc
    cases s with
    | nil => exact absurd rfl hne
    | cons d ds =>
      rw [digitsValue_strtolDigit fun c hc => isHexDigit_of_isDigit c (hdec c hc)]
      exact .decimal ((nonzero_digit d).2 ⟨hdec d List.mem_cons_self, h0⟩)
        fun c hc => hdec c (List.mem_cons_of_mem _ hc)

/-- **What is read whole is a literal.** When `strtol` with base 0 leaves `end` at the NUL of a
non-empty C string, the string is a complete integer literal. -/
theorem literal_of_strto {w : Nat} {s : List Char} (hnul : '\x00' ∉ s) (hs : s ≠ [])
    (hend : charAt s (strto w s 0).endPos = '\x00') : ∃ n, IntLiteral s n := by
  have hsplit : s.takeWhile isspace ++ s.dropWhile isspace = s := List.takeWhile_append_dropWhile
  obtain ⟨sign, hsign, hs₀, hneg⟩ := skipSign_spec (s.dropWhile isspace)
  have hsuf₀ : (skipSign (s.dropWhile isspace)).2 <:+ s :=
    (skipSign_suffix _).trans (List.dropWhile_suffix _)
  simp only [strto] at hend
  rw [if_neg (by decide)] at hend
  split at hend
  · exact absurd hend (charAt_noconv hnul hs s)
  generalize skipSign (s.dropWhile isspace) = sk at hend hs₀ hneg hsuf₀
  obtain ⟨negative, s₁⟩ := sk
  have hsuf₁ : (numberPrefix 0 s₁).2 <:+ s := (numberPrefix_suffix 0 s₁).trans hsuf₀
  generalize hp : numberPrefix 0 s₁ = p at hend hsuf₁
  obtain ⟨base, save⟩ := p
  have hr := (readDigits_spec strtolDigit base save
    (Tracks.start : Tracks (2 ^ w - 1) 0 false 0)).2
  generalize readDigits strtolDigit base (2 ^ w - 1) save 0 false = r at hend hr
  obtain ⟨i, o, rest⟩ := r
  simp only at hend hr
  split at hend
  · exact absurd hend (charAt_noconv hnul hs save)
  rename_i hlen
  -- `end` is after the digits, and there is nothing after them
  have hsuf : rest <:+ s := hr ▸ (List.dropWhile_suffix _).trans hsuf₁
  have hend' : charAt rest 0 = '\x00' := by
    rw [← charAt_suffix hsuf]
    split at hend <;> exact hend
  have hrest : rest = [] := by
    rw [charAt_eq_nul_iff (fun h => hnul (hsuf.subset h))] at hend'
    exact List.eq_nil_of_length_eq_zero (by omega)
  subst hrest
  have hdig := List.dropWhile_eq_nil_iff.1 hr.symm
  have hne : save ≠ [] := by
    rintro rfl
    exact hlen rfl
  refine ⟨if sign = ['-'] then -(digitsValue strtolDigit base save : Int) else _,
    s.takeWhile isspace, sign, s₁, _, ?_, fun c hc => List.mem_takeWhile_imp hc, hsign,
    integerConstant_of_numberPrefix hp hne hdig, rfl⟩
  rw [List.append_assoc, ← hs₀, hsplit]

end LibC
