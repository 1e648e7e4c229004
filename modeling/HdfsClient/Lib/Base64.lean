import Mathlib.Data.List.Basic

/-!
# Base64

The encoding of RFC 4648 §4. Every three bytes become four letters of a 64-letter alphabet, six bits
each, most significant first. A last group of one or two bytes is padded with `=` to four
characters. `decode` is the strict decoder: it takes whole groups of four only, with `=` only at the
end, so it rejects every string whose length is not a multiple of four.

* `decode_encode` — decoding gives back the bytes encoded.
* `encode_eq_letters_append_pad` — an encoding is letters of the alphabet, then `padding` signs `=`.
* `decode_eq_none_of_length` — a string whose length is not a multiple of four does not decode.
-/

namespace Base64

/-- The letter of a six-bit value: `A`–`Z`, `a`–`z`, `0`–`9`, `+`, `/`. -/
def letter (n : Nat) : Char :=
  if n < 26 then Char.ofNat (n + 65)
  else if n < 52 then Char.ofNat (n + 71)
  else if n < 62 then Char.ofNat (n - 4)
  else if n = 62 then '+' else '/'

/-- The value of a letter of the alphabet; `none` for any other character. -/
def value (c : Char) : Option Nat :=
  if 'A' ≤ c ∧ c ≤ 'Z' then some (c.toNat - 65)
  else if 'a' ≤ c ∧ c ≤ 'z' then some (c.toNat - 71)
  else if '0' ≤ c ∧ c ≤ '9' then some (c.toNat + 4)
  else if c = '+' then some 62
  else if c = '/' then some 63
  else none

theorem value_letter : ∀ n < 64, value (letter n) = some n := by decide

theorem value_pad : value '=' = none := by decide

/-- Three bytes as four letters; fewer as fewer letters and `=`. -/
def encode : List UInt8 → List Char
  | a :: b :: c :: rest =>
    letter (a.toNat / 4) :: letter (a.toNat % 4 * 16 + b.toNat / 16) ::
      letter (b.toNat % 16 * 4 + c.toNat / 64) :: letter (c.toNat % 64) :: encode rest
  | [a, b] =>
    [letter (a.toNat / 4), letter (a.toNat % 4 * 16 + b.toNat / 16), letter (b.toNat % 16 * 4), '=']
  | [a] => [letter (a.toNat / 4), letter (a.toNat % 4 * 16), '=', '=']
  | [] => []

/-- The bytes of a group of four characters: four letters, or, in the last group, three letters and
`=`, or two letters and `==`. -/
def decodeGroup (c₁ c₂ c₃ c₄ : Char) (last : Bool) : Option (List UInt8) :=
  match value c₁, value c₂, value c₃, value c₄ with
  | some s₁, some s₂, some s₃, some s₄ =>
    some [UInt8.ofNat (s₁ * 4 + s₂ / 16), UInt8.ofNat (s₂ % 16 * 16 + s₃ / 4),
      UInt8.ofNat (s₃ % 4 * 64 + s₄)]
  | some s₁, some s₂, some s₃, none =>
    if last ∧ c₄ = '=' then
      some [UInt8.ofNat (s₁ * 4 + s₂ / 16), UInt8.ofNat (s₂ % 16 * 16 + s₃ / 4)]
    else none
  | some s₁, some s₂, none, none =>
    if last ∧ c₃ = '=' ∧ c₄ = '=' then some [UInt8.ofNat (s₁ * 4 + s₂ / 16)] else none
  | _, _, _, _ => none

/-- The strict decoder: groups of four characters, the last of them possibly padded. -/
def decode : List Char → Option (List UInt8)
  | c₁ :: c₂ :: c₃ :: c₄ :: rest =>
    match decodeGroup c₁ c₂ c₃ c₄ rest.isEmpty, decode rest with
    | some bs, some more => some (bs ++ more)
    | _, _ => none
  | [] => some []
  | _ => none

/-- The number of `=` that pad the encoding of `n` bytes. -/
def padding (n : Nat) : Nat := (3 - n % 3) % 3

/-! ## The round trip -/

theorem ofNat_eq {n : Nat} {b : UInt8} (h : n = b.toNat) : UInt8.ofNat n = b := by
  apply UInt8.toNat_inj.mp
  rw [UInt8.toNat_ofNat', h]
  exact Nat.mod_eq_of_lt b.toNat_lt

/-- The letter of a six-bit value reads back as it. -/
theorem value_letter_of_lt {n : Nat} (h : n < 64) : value (letter n) = some n :=
  value_letter n h

/-- **The round trip.** Decoding the encoding of a byte string gives it back. -/
theorem decode_encode (bs : List UInt8) : decode (encode bs) = some bs := by
  fun_induction encode bs with
  | case1 a b c rest ih =>
    have ha := a.toNat_lt
    have hb := b.toNat_lt
    have hc := c.toNat_lt
    -- a whole group of three bytes: four letters
    rw [decode]
    simp only [decodeGroup, value_letter_of_lt (show a.toNat / 4 < 64 by omega),
      value_letter_of_lt (show a.toNat % 4 * 16 + b.toNat / 16 < 64 by omega),
      value_letter_of_lt (show b.toNat % 16 * 4 + c.toNat / 64 < 64 by omega),
      value_letter_of_lt (show c.toNat % 64 < 64 by omega), ih, List.cons_append,
      List.nil_append, Option.some.injEq, List.cons.injEq]
    exact ⟨ofNat_eq (by omega), ofNat_eq (by omega), ofNat_eq (by omega), trivial⟩
  | case2 a b =>
    have ha := a.toNat_lt
    have hb := b.toNat_lt
    rw [decode]
    simp only [decodeGroup, value_letter_of_lt (show a.toNat / 4 < 64 by omega),
      value_letter_of_lt (show a.toNat % 4 * 16 + b.toNat / 16 < 64 by omega),
      value_letter_of_lt (show b.toNat % 16 * 4 < 64 by omega), value_pad]
    simp only [List.isEmpty_nil, true_and, if_true, decode, List.append_nil, Option.some.injEq,
      List.cons.injEq]
    exact ⟨ofNat_eq (by omega), ofNat_eq (by omega), trivial⟩
  | case3 a =>
    have ha := a.toNat_lt
    rw [decode]
    simp only [decodeGroup, value_letter_of_lt (show a.toNat / 4 < 64 by omega),
      value_letter_of_lt (show a.toNat % 4 * 16 < 64 by omega), value_pad]
    simp only [List.isEmpty_nil, true_and, if_true, decode, List.append_nil, Option.some.injEq,
      List.cons.injEq]
    exact ⟨ofNat_eq (by omega), trivial⟩
  | case4 => rfl

/-! ## The shape of an encoding -/

/-- A letter of the alphabet. -/
def IsLetter (c : Char) : Prop := ∃ n < 64, c = letter n

/-- A letter is none of the characters outside the alphabet. -/
theorem IsLetter.ne_of_value {c d : Char} (h : IsLetter c) (hd : value d = none) : c ≠ d := by
  obtain ⟨n, hn, rfl⟩ := h
  intro heq
  have := value_letter n hn
  rw [heq, hd] at this
  cases this

/-- An encoding is letters, then `padding` signs `=`. -/
theorem encode_eq_letters_append_pad (bs : List UInt8) :
    ∃ ls, encode bs = ls ++ List.replicate (padding bs.length) '=' ∧ ∀ c ∈ ls, IsLetter c := by
  fun_induction encode bs with
  | case1 a b c rest ih =>
    obtain ⟨ls, hls, hletters⟩ := ih
    have ha := a.toNat_lt
    have hb := b.toNat_lt
    have hc := c.toNat_lt
    refine ⟨letter (a.toNat / 4) :: letter (a.toNat % 4 * 16 + b.toNat / 16) ::
      letter (b.toNat % 16 * 4 + c.toNat / 64) :: letter (c.toNat % 64) :: ls, ?_, ?_⟩
    · have hpad : padding (a :: b :: c :: rest).length = padding rest.length := by
        simp only [padding, List.length_cons]
        omega
      rw [hls, hpad]
      rfl
    · intro x hx
      simp only [List.mem_cons] at hx
      rcases hx with rfl | rfl | rfl | rfl | hx
      · exact ⟨_, by omega, rfl⟩
      · exact ⟨_, by omega, rfl⟩
      · exact ⟨_, by omega, rfl⟩
      · exact ⟨_, by omega, rfl⟩
      · exact hletters x hx
  | case2 a b =>
    have ha := a.toNat_lt
    have hb := b.toNat_lt
    refine ⟨[letter (a.toNat / 4), letter (a.toNat % 4 * 16 + b.toNat / 16),
      letter (b.toNat % 16 * 4)], rfl, ?_⟩
    intro x hx
    simp only [List.mem_cons, List.not_mem_nil, or_false] at hx
    rcases hx with rfl | rfl | rfl
    · exact ⟨_, by omega, rfl⟩
    · exact ⟨_, by omega, rfl⟩
    · exact ⟨_, by omega, rfl⟩
  | case3 a =>
    have ha := a.toNat_lt
    refine ⟨[letter (a.toNat / 4), letter (a.toNat % 4 * 16)], rfl, ?_⟩
    intro x hx
    simp only [List.mem_cons, List.not_mem_nil, or_false] at hx
    rcases hx with rfl | rfl
    · exact ⟨_, by omega, rfl⟩
    · exact ⟨_, by omega, rfl⟩
  | case4 => exact ⟨[], rfl, by simp⟩

theorem length_encode (bs : List UInt8) : (encode bs).length = 4 * ((bs.length + 2) / 3) := by
  fun_induction encode bs with
  | case1 a b c rest ih =>
    simp only [List.length_cons, ih]
    omega
  | case2 => simp
  | case3 => simp
  | case4 => rfl

/-- A string whose length is not a multiple of four does not decode. -/
theorem decode_eq_none_of_length {cs : List Char} (h : cs.length % 4 ≠ 0) : decode cs = none := by
  fun_induction decode cs with
  | case1 c₁ c₂ c₃ c₄ rest bs more hrest hgroup ih =>
    simp only [List.length_cons] at h
    rw [ih (by omega)] at hrest
    cases hrest
  | case2 => rfl
  | case3 => simp at h
  | case4 => rfl

end Base64
