import Mathlib.Data.List.Basic
import Mathlib.Algebra.Group.Nat.Defs

/-!
# Byte order

Numbers read from and written to byte strings, least significant byte first (`leDecode`,
`leBytes`) and most significant first (`beDecode`, `beBytes`). The round trips say that a
string of `k` bytes is recovered from its value, and a value below `256 ^ k` from its `k` bytes.

`base128` reads a base-128 varint (seven bits a byte, low group first, the top bit set on every
byte but the last); `base128_determined` says its answer depends only on the bytes it takes.
-/

namespace Endian

/-- The value of a byte string read least significant byte first. -/
def leDecode : List UInt8 → Nat
  | [] => 0
  | b :: bs => b.toNat + 256 * leDecode bs

/-- The `k` low bytes of `v`, least significant first. -/
def leBytes (v : Nat) : Nat → List UInt8
  | 0 => []
  | k + 1 => UInt8.ofNat v :: leBytes (v / 256) k

/-- The value of a byte string read most significant byte first. -/
def beDecode (bs : List UInt8) : Nat := leDecode bs.reverse

/-- The `k` low bytes of `v`, most significant first. -/
def beBytes (v k : Nat) : List UInt8 := (leBytes v k).reverse

@[simp] theorem length_leBytes (v k : Nat) : (leBytes v k).length = k := by
  induction k generalizing v with
  | zero => rfl
  | succ k ih => simp [leBytes, ih]

@[simp] theorem length_beBytes (v k : Nat) : (beBytes v k).length = k := by
  simp [beBytes]

theorem leDecode_lt (bs : List UInt8) : leDecode bs < 256 ^ bs.length := by
  induction bs with
  | nil => simp [leDecode]
  | cons b bs ih =>
    have hb := b.toNat_lt
    rw [leDecode, List.length_cons, Nat.pow_succ]
    omega

/-- A byte string is the bytes of its own value. -/
theorem leBytes_leDecode (bs : List UInt8) : leBytes (leDecode bs) bs.length = bs := by
  induction bs with
  | nil => rfl
  | cons b bs ih =>
    have hb := b.toNat_lt
    have hdiv : (b.toNat + 256 * leDecode bs) / 256 = leDecode bs := by omega
    have hbyte : UInt8.ofNat (b.toNat + 256 * leDecode bs) = b := by
      apply UInt8.toNat_inj.mp
      rw [UInt8.toNat_ofNat']
      omega
    rw [List.length_cons, leBytes, leDecode, hdiv, hbyte, ih]

/-- A value below `256 ^ k` is the value of its `k` bytes. -/
theorem leDecode_leBytes (v k : Nat) (hv : v < 256 ^ k) : leDecode (leBytes v k) = v := by
  induction k generalizing v with
  | zero => simp at hv; simp [leBytes, leDecode, hv]
  | succ k ih =>
    have hq : v / 256 < 256 ^ k := by
      rw [Nat.pow_succ] at hv
      omega
    rw [leBytes, leDecode, ih _ hq, UInt8.toNat_ofNat']
    omega

theorem beDecode_beBytes (v k : Nat) (hv : v < 256 ^ k) : beDecode (beBytes v k) = v := by
  rw [beDecode, beBytes, List.reverse_reverse, leDecode_leBytes v k hv]

theorem leDecode_append (xs ys : List UInt8) :
    leDecode (xs ++ ys) = leDecode xs + 256 ^ xs.length * leDecode ys := by
  induction xs with
  | nil => simp [leDecode]
  | cons b xs ih =>
    rw [List.cons_append, leDecode, leDecode, ih, List.length_cons, Nat.pow_succ]
    rw [Nat.mul_add, Nat.add_assoc, Nat.mul_comm (256 ^ xs.length) 256, Nat.mul_assoc]

/-- Read most significant first, the first byte counts `256` to the number of bytes after it. -/
theorem beDecode_cons (b : UInt8) (bs : List UInt8) :
    beDecode (b :: bs) = b.toNat * 256 ^ bs.length + beDecode bs := by
  rw [beDecode, List.reverse_cons, leDecode_append, List.length_reverse, beDecode]
  simp [leDecode, Nat.mul_comm, Nat.add_comm]

theorem leBytes_succ (v k : Nat) : leBytes v (k + 1) = leBytes v k ++ [UInt8.ofNat (v / 256 ^ k)] := by
  induction k generalizing v with
  | zero => simp [leBytes]
  | succ k ih =>
    rw [leBytes, ih, leBytes, List.cons_append, Nat.div_div_eq_div_mul, ← Nat.pow_succ']

/-- Written most significant first, the first of `k + 1` bytes is the one `256 ^ k` up. -/
theorem beBytes_succ (v k : Nat) : beBytes v (k + 1) = UInt8.ofNat (v / 256 ^ k) :: beBytes v k := by
  rw [beBytes, leBytes_succ, List.reverse_append, beBytes]
  rfl

/-- Reading `k` bytes into a `8 * k`-bit word and writing the word back gives the bytes. -/
theorem leBytes_ofNat_leDecode (bs : List UInt8) (w : Nat) (hw : 8 * bs.length ≤ w) :
    leBytes (BitVec.ofNat w (leDecode bs)).toNat bs.length = bs := by
  have hlt : leDecode bs < 2 ^ w :=
    calc leDecode bs < 256 ^ bs.length := leDecode_lt bs
      _ = 2 ^ (8 * bs.length) := by rw [Nat.pow_mul]
      _ ≤ 2 ^ w := Nat.pow_le_pow_right (by omega) hw
  rw [BitVec.toNat_ofNat, Nat.mod_eq_of_lt hlt, leBytes_leDecode]

/-! ## Base-128 varints -/

/-- A base-128 varint of at most `k` bytes: its value and the number of bytes it takes, or
`none` when the bytes run out or `k` bytes all carry the continuation bit. -/
def base128 : Nat → List UInt8 → Option (Nat × Nat)
  | 0, _ => none
  | _ + 1, [] => none
  | k + 1, b :: bs =>
    if b.toNat < 128 then some (b.toNat, 1)
    else (base128 k bs).map fun p => (b.toNat - 128 + 128 * p.1, p.2 + 1)

/-- A varint is read from the bytes it takes alone: it takes no more than it is given, and any
bytes after them leave the answer unchanged. -/
theorem base128_determined (k : Nat) (bs : List UInt8) (v n : Nat) (h : base128 k bs = some (v, n)) :
    n ≤ bs.length ∧ ∀ rest, base128 k (bs.take n ++ rest) = some (v, n) := by
  induction k generalizing bs v n with
  | zero => simp [base128] at h
  | succ k ih =>
    cases bs with
    | nil => simp [base128] at h
    | cons b bs =>
      by_cases hb : b.toNat < 128
      · -- the last byte: one byte taken
        simp only [base128, hb, if_true, Option.some.injEq, Prod.mk.injEq] at h
        obtain ⟨rfl, rfl⟩ := h
        refine ⟨by simp, fun rest => ?_⟩
        simp [base128, hb]
      · -- a continuation byte: the rest is a varint of at most `k` bytes
        simp only [base128, hb, if_false, Option.map_eq_some_iff] at h
        obtain ⟨⟨v', n'⟩, hrest, hvn⟩ := h
        simp only [Prod.mk.injEq] at hvn
        obtain ⟨rfl, rfl⟩ := hvn
        obtain ⟨hlen, hext⟩ := ih bs v' n' hrest
        refine ⟨by simpa using hlen, fun rest => ?_⟩
        simp [base128, hb, hext rest]

/-- The base-128 varint of `v` in at most `k` bytes: seven bits a byte, low group first, the top
bit set on every byte but the last. -/
def base128Bytes : Nat → Nat → List UInt8
  | 0, _ => []
  | k + 1, v => if v < 128 then [UInt8.ofNat v] else UInt8.ofNat (v % 128 + 128) :: base128Bytes k (v / 128)

end Endian
