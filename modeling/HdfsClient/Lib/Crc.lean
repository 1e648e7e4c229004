import Mathlib.Data.List.Basic

/-!
# Reflected CRC registers

A reflected CRC keeps a 32-bit remainder whose bit `0` holds the highest power of `x`. Feeding
one bit divides the remainder by the bit-reversed generator `poly`; feeding a byte adds the byte
into the low octet and divides eight times. Table-driven implementations replace the eight
divisions by one lookup on the low octet.

* `bitSteps_xor` — division is linear over `xor`.
* `byteStep_eq_lookup` — the lookup is exact, for every generator, as soon as the table holds
  the eight-step image of every octet.
* `update_append` — feeding a string is feeding its pieces in order.

Nothing here names a particular generator.
-/

namespace Crc

variable (poly : BitVec 32)

/-- One bit of polynomial division, in reflected order. -/
def bitStep (c : BitVec 32) : BitVec 32 :=
  if c.getLsbD 0 then (c >>> 1) ^^^ poly else c >>> 1

/-- `n` bits of division. -/
def bitSteps : Nat → BitVec 32 → BitVec 32
  | 0, c => c
  | n + 1, c => bitSteps n (bitStep poly c)

/-- Feeding one byte: add it into the low octet, then divide eight times. -/
def byteStep (c : BitVec 32) (b : UInt8) : BitVec 32 :=
  bitSteps poly 8 (c ^^^ b.toBitVec.setWidth 32)

/-- The table a table-driven implementation looks up: the eight-step image of an octet. -/
def tableEntry (i : Nat) : BitVec 32 :=
  bitSteps poly 8 (BitVec.ofNat 32 i)

/-- Feeding a byte string, first byte first. -/
def update (c : BitVec 32) (bs : List UInt8) : BitVec 32 :=
  bs.foldl (byteStep poly) c

/-! ## Division is linear -/

theorem xor_xor_xor_cancel (a b p : BitVec 32) : (a ^^^ p) ^^^ (b ^^^ p) = a ^^^ b := by
  ext i hi
  simp only [BitVec.getElem_xor]
  cases a[i] <;> cases b[i] <;> cases p[i] <;> rfl

theorem bitStep_xor (a b : BitVec 32) :
    bitStep poly (a ^^^ b) = bitStep poly a ^^^ bitStep poly b := by
  unfold bitStep
  simp only [BitVec.getLsbD_xor, BitVec.ushiftRight_xor_distrib]
  cases ha : a.getLsbD 0 <;> cases hb : b.getLsbD 0
  · simp
  · simp only [Bool.false_xor, if_true, Bool.false_eq_true, if_false]
    ac_rfl
  · simp only [Bool.xor_false, if_true, Bool.false_eq_true, if_false]
    ac_rfl
  · simp only [Bool.xor_self, Bool.false_eq_true, if_false, if_true]
    exact (xor_xor_xor_cancel _ _ _).symm

theorem bitSteps_xor (n : Nat) (a b : BitVec 32) :
    bitSteps poly n (a ^^^ b) = bitSteps poly n a ^^^ bitSteps poly n b := by
  induction n generalizing a b with
  | zero => rfl
  | succ n ih => rw [bitSteps, bitStep_xor, ih]; rfl

/-- A remainder whose low `k` bits are clear is only shifted by `k` divisions. -/
theorem bitSteps_of_low_clear (k : Nat) (y : BitVec 32) (hy : ∀ i < k, y.getLsbD i = false) :
    bitSteps poly k y = y >>> k := by
  induction k generalizing y with
  | zero => simp [bitSteps]
  | succ k ih =>
    have h0 : y.getLsbD 0 = false := hy 0 (by omega)
    have hshift : ∀ i < k, (y >>> 1).getLsbD i = false := by
      intro i hi
      simpa [Nat.add_comm] using hy (1 + i) (by omega)
    rw [bitSteps, bitStep, h0, if_neg Bool.false_ne_true, ih _ hshift, ← BitVec.shiftRight_add,
      Nat.add_comm]

/-! ## The octet split -/

theorem getLsbD_255 (i : Nat) : (255#32).getLsbD i = decide (i < 8) := by
  rw [BitVec.getLsbD_ofNat, show (255 : Nat) = 2 ^ 8 - 1 from rfl, Nat.testBit_two_pow_sub_one]
  by_cases hi : i < 8
  · simp [hi, show i < 32 by omega]
  · simp [hi]

theorem split_low_octet (x : BitVec 32) : x = (x &&& 255#32) ^^^ (x &&& ~~~255#32) := by
  ext i hi
  simp only [BitVec.getElem_xor, BitVec.getElem_and, BitVec.getElem_not]
  cases x[i] <;> cases (255#32)[i] <;> rfl

theorem high_part_low_clear (x : BitVec 32) : ∀ i < 8, (x &&& ~~~255#32).getLsbD i = false := by
  intro i hi
  simp only [BitVec.getLsbD_and, BitVec.getLsbD_not, getLsbD_255, hi, decide_true,
    show i < 32 by omega, Bool.not_true, Bool.and_false]

theorem high_part_shift (x : BitVec 32) : (x &&& ~~~255#32) >>> 8 = x >>> 8 := by
  apply BitVec.eq_of_getLsbD_eq
  intro i _
  simp only [BitVec.getLsbD_ushiftRight, BitVec.getLsbD_and, BitVec.getLsbD_not, getLsbD_255]
  by_cases h : 8 + i < 32
  · simp [h]
  · simp [BitVec.getLsbD_of_ge x (8 + i) (by omega)]

/-- Eight divisions act on the low octet alone and shift the rest down. -/
theorem bitSteps_eight (x : BitVec 32) :
    bitSteps poly 8 x = bitSteps poly 8 (x &&& 255#32) ^^^ (x >>> 8) := by
  conv_lhs => rw [split_low_octet x]
  rw [bitSteps_xor, bitSteps_of_low_clear poly 8 _ (high_part_low_clear x), high_part_shift]

theorem byte_shift_eight (b : UInt8) : b.toBitVec.setWidth 32 >>> 8 = 0#32 := by
  apply BitVec.eq_of_getLsbD_eq
  intro i _
  simp only [BitVec.getLsbD_ushiftRight, BitVec.getLsbD_setWidth, BitVec.getLsbD_zero]
  rw [BitVec.getLsbD_of_ge b.toBitVec (8 + i) (by omega), Bool.and_false]

theorem tableEntry_toNat (x : BitVec 32) :
    tableEntry poly (x &&& 255#32).toNat = bitSteps poly 8 (x &&& 255#32) := by
  simp [tableEntry]

/-- **The table lookup is exact.** Feeding a byte is looking up the low octet of `c ^ b` and
adding `c` shifted down by a byte. -/
theorem byteStep_eq_lookup (c : BitVec 32) (b : UInt8) :
    byteStep poly c b =
      tableEntry poly ((c ^^^ b.toBitVec.setWidth 32) &&& 255#32).toNat ^^^ (c >>> 8) := by
  have hhigh : (c ^^^ b.toBitVec.setWidth 32) >>> 8 = c >>> 8 := by
    rw [BitVec.ushiftRight_xor_distrib, byte_shift_eight, BitVec.xor_zero]
  rw [byteStep, bitSteps_eight, hhigh, tableEntry_toNat]

/-! ## Strings -/

@[simp] theorem update_nil (c : BitVec 32) : update poly c [] = c := rfl

@[simp] theorem update_cons (c : BitVec 32) (b : UInt8) (bs : List UInt8) :
    update poly c (b :: bs) = update poly (byteStep poly c b) bs := rfl

theorem update_append (c : BitVec 32) (xs ys : List UInt8) :
    update poly c (xs ++ ys) = update poly (update poly c xs) ys := by
  simp [update, List.foldl_append]

theorem update_flatten (c : BitVec 32) (parts : List (List UInt8)) :
    parts.foldl (update poly) c = update poly c parts.flatten := by
  induction parts generalizing c with
  | nil => rfl
  | cons p ps ih => rw [List.foldl_cons, ih, List.flatten_cons, update_append]

end Crc
