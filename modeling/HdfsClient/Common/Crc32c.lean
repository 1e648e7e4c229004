import HdfsClient.Lib.Crc
import HdfsClient.Lib.Endian
import Mathlib.Tactic.IntervalCases

/-!
# CRC-32C, in software and in hardware

`SWCrc32c` (`common/SWCrc32c.cpp`) feeds a byte at a time through the table
`crc_tableil8_o32`. `HWCrc32c` (`common/HWCrc32c.cpp`, the `__LP64__` build) splits the input at
8-byte address boundaries: an unaligned head of `0` to `7` bytes, whole 8-byte words, and a
tail, and it feeds heads and tails through the fall-through switch of `updateInt64`.

Both keep a 32-bit register that starts at `0xFFFFFFFF` and is complemented by `getValue`.

* `swStep_eq_byteStep` — the table step is one byte of reflected division by the CRC-32C
  generator `0x82F63B78`, for every register and every byte.
* `HWCrc32c.update_crc` — under the assumption that the SSE4.2 `crc32` instructions compute
  that same division over their operand's bytes, least significant first, the hardware path
  leaves the register the software path leaves, at every alignment.
-/

namespace HdfsClient

open Endian

/-- The reversed CRC-32C generator. -/
def castagnoli : BitVec 32 := 0x82F63B78#32

/-! ## The software path -/

/-- `crc_tableil8_o32`, as the source lists it. -/
def crcTableil8O32 : List (BitVec 32) := [
  0x00000000, 0xF26B8303, 0xE13B70F7, 0x1350F3F4, 0xC79A971F, 0x35F1141C,
  0x26A1E7E8, 0xD4CA64EB, 0x8AD958CF, 0x78B2DBCC, 0x6BE22838, 0x9989AB3B,
  0x4D43CFD0, 0xBF284CD3, 0xAC78BF27, 0x5E133C24, 0x105EC76F, 0xE235446C,
  0xF165B798, 0x030E349B, 0xD7C45070, 0x25AFD373, 0x36FF2087, 0xC494A384,
  0x9A879FA0, 0x68EC1CA3, 0x7BBCEF57, 0x89D76C54, 0x5D1D08BF, 0xAF768BBC,
  0xBC267848, 0x4E4DFB4B, 0x20BD8EDE, 0xD2D60DDD, 0xC186FE29, 0x33ED7D2A,
  0xE72719C1, 0x154C9AC2, 0x061C6936, 0xF477EA35, 0xAA64D611, 0x580F5512,
  0x4B5FA6E6, 0xB93425E5, 0x6DFE410E, 0x9F95C20D, 0x8CC531F9, 0x7EAEB2FA,
  0x30E349B1, 0xC288CAB2, 0xD1D83946, 0x23B3BA45, 0xF779DEAE, 0x05125DAD,
  0x1642AE59, 0xE4292D5A, 0xBA3A117E, 0x4851927D, 0x5B016189, 0xA96AE28A,
  0x7DA08661, 0x8FCB0562, 0x9C9BF696, 0x6EF07595, 0x417B1DBC, 0xB3109EBF,
  0xA0406D4B, 0x522BEE48, 0x86E18AA3, 0x748A09A0, 0x67DAFA54, 0x95B17957,
  0xCBA24573, 0x39C9C670, 0x2A993584, 0xD8F2B687, 0x0C38D26C, 0xFE53516F,
  0xED03A29B, 0x1F682198, 0x5125DAD3, 0xA34E59D0, 0xB01EAA24, 0x42752927,
  0x96BF4DCC, 0x64D4CECF, 0x77843D3B, 0x85EFBE38, 0xDBFC821C, 0x2997011F,
  0x3AC7F2EB, 0xC8AC71E8, 0x1C661503, 0xEE0D9600, 0xFD5D65F4, 0x0F36E6F7,
  0x61C69362, 0x93AD1061, 0x80FDE395, 0x72966096, 0xA65C047D, 0x5437877E,
  0x4767748A, 0xB50CF789, 0xEB1FCBAD, 0x197448AE, 0x0A24BB5A, 0xF84F3859,
  0x2C855CB2, 0xDEEEDFB1, 0xCDBE2C45, 0x3FD5AF46, 0x7198540D, 0x83F3D70E,
  0x90A324FA, 0x62C8A7F9, 0xB602C312, 0x44694011, 0x5739B3E5, 0xA55230E6,
  0xFB410CC2, 0x092A8FC1, 0x1A7A7C35, 0xE811FF36, 0x3CDB9BDD, 0xCEB018DE,
  0xDDE0EB2A, 0x2F8B6829, 0x82F63B78, 0x709DB87B, 0x63CD4B8F, 0x91A6C88C,
  0x456CAC67, 0xB7072F64, 0xA457DC90, 0x563C5F93, 0x082F63B7, 0xFA44E0B4,
  0xE9141340, 0x1B7F9043, 0xCFB5F4A8, 0x3DDE77AB, 0x2E8E845F, 0xDCE5075C,
  0x92A8FC17, 0x60C37F14, 0x73938CE0, 0x81F80FE3, 0x55326B08, 0xA759E80B,
  0xB4091BFF, 0x466298FC, 0x1871A4D8, 0xEA1A27DB, 0xF94AD42F, 0x0B21572C,
  0xDFEB33C7, 0x2D80B0C4, 0x3ED04330, 0xCCBBC033, 0xA24BB5A6, 0x502036A5,
  0x4370C551, 0xB11B4652, 0x65D122B9, 0x97BAA1BA, 0x84EA524E, 0x7681D14D,
  0x2892ED69, 0xDAF96E6A, 0xC9A99D9E, 0x3BC21E9D, 0xEF087A76, 0x1D63F975,
  0x0E330A81, 0xFC588982, 0xB21572C9, 0x407EF1CA, 0x532E023E, 0xA145813D,
  0x758FE5D6, 0x87E466D5, 0x94B49521, 0x66DF1622, 0x38CC2A06, 0xCAA7A905,
  0xD9F75AF1, 0x2B9CD9F2, 0xFF56BD19, 0x0D3D3E1A, 0x1E6DCDEE, 0xEC064EED,
  0xC38D26C4, 0x31E6A5C7, 0x22B65633, 0xD0DDD530, 0x0417B1DB, 0xF67C32D8,
  0xE52CC12C, 0x1747422F, 0x49547E0B, 0xBB3FFD08, 0xA86F0EFC, 0x5A048DFF,
  0x8ECEE914, 0x7CA56A17, 0x6FF599E3, 0x9D9E1AE0, 0xD3D3E1AB, 0x21B862A8,
  0x32E8915C, 0xC083125F, 0x144976B4, 0xE622F5B7, 0xF5720643, 0x07198540,
  0x590AB964, 0xAB613A67, 0xB831C993, 0x4A5A4A90, 0x9E902E7B, 0x6CFBAD78,
  0x7FAB5E8C, 0x8DC0DD8F, 0xE330A81A, 0x115B2B19, 0x020BD8ED, 0xF0605BEE,
  0x24AA3F05, 0xD6C1BC06, 0xC5914FF2, 0x37FACCF1, 0x69E9F0D5, 0x9B8273D6,
  0x88D28022, 0x7AB90321, 0xAE7367CA, 0x5C18E4C9, 0x4F48173D, 0xBD23943E,
  0xF36E6F75, 0x0105EC76, 0x12551F82, 0xE03E9C81, 0x34F4F86A, 0xC69F7B69,
  0xD5CF889D, 0x27A40B9E, 0x79B737BA, 0x8BDCB4B9, 0x988C474D, 0x6AE7C44E,
  0xBE2DA0A5, 0x4C4623A6, 0x5F16D052, 0xAD7D5351]

set_option maxRecDepth 8000 in
/-- The table is the eight-step image of every octet under the CRC-32C generator. -/
theorem crcTableil8O32_eq :
    crcTableil8O32 = (List.range 256).map (Crc.tableEntry castagnoli) := by
  decide

/-- One iteration of the loop of `SWCrc32c::update`. The byte is a `char`, so it is sign-extended
before the `xor`; the mask keeps only its low octet. -/
def swStep (crc : BitVec 32) (b : UInt8) : BitVec 32 :=
  crcTableil8O32.getD ((crc ^^^ b.toBitVec.signExtend 32) &&& 0xFF#32).toNat 0 ^^^ (crc >>> 8)

/-- A checksum object: the running register. -/
structure SWCrc32c where
  crc : BitVec 32
  deriving DecidableEq, Repr

namespace SWCrc32c

/-- The constructor and `reset` both load `0xFFFFFFFF`. -/
def init : SWCrc32c := ⟨0xFFFFFFFF#32⟩

def reset (_ : SWCrc32c) : SWCrc32c := init

def getValue (s : SWCrc32c) : BitVec 32 := ~~~s.crc

def update (s : SWCrc32c) (b : List UInt8) : SWCrc32c := ⟨b.foldl swStep s.crc⟩

end SWCrc32c

theorem signExtend_low_octet (c : BitVec 32) (b : UInt8) :
    (c ^^^ b.toBitVec.signExtend 32) &&& 0xFF#32 = (c ^^^ b.toBitVec.setWidth 32) &&& 255#32 := by
  apply BitVec.eq_of_getLsbD_eq
  intro i hi
  simp only [BitVec.getLsbD_and, BitVec.getLsbD_xor, Crc.getLsbD_255]
  by_cases h8 : i < 8
  · simp [BitVec.getElem_signExtend, h8, hi]
  · simp [h8]

theorem crcTableil8O32_getD (i : Nat) (hi : i < 256) :
    crcTableil8O32.getD i 0 = Crc.tableEntry castagnoli i := by
  rw [crcTableil8O32_eq]
  simp [List.getD_eq_getElem?_getD, hi]

theorem low_octet_lt (x : BitVec 32) : (x &&& 255#32).toNat < 256 := by
  rw [BitVec.toNat_and]
  exact Nat.lt_of_le_of_lt Nat.and_le_right (by decide)

/-- **The table step is CRC-32C division.** -/
theorem swStep_eq_byteStep (c : BitVec 32) (b : UInt8) :
    swStep c b = Crc.byteStep castagnoli c b := by
  rw [swStep, signExtend_low_octet, crcTableil8O32_getD _ (low_octet_lt _),
    Crc.byteStep_eq_lookup]

theorem SWCrc32c.update_crc (s : SWCrc32c) (b : List UInt8) :
    (s.update b).crc = Crc.update castagnoli s.crc b := by
  simp only [update, Crc.update]
  induction b generalizing s with
  | nil => rfl
  | cons x xs ih =>
    simp only [List.foldl_cons, swStep_eq_byteStep]
    exact ih ⟨_⟩

/-! ## The hardware path -/

/-- The SSE4.2 instructions `crc32b`, `crc32w`, `crc32l` and `crc32q`, as `_mm_crc32_u8`,
`_mm_crc32_u16`, `_mm_crc32_u32` and `_mm_crc32_u64` issue them. -/
structure Sse42 where
  crc32b : BitVec 32 → BitVec 8 → BitVec 32
  crc32w : BitVec 32 → BitVec 16 → BitVec 32
  crc32l : BitVec 32 → BitVec 32 → BitVec 32
  crc32q : BitVec 64 → BitVec 64 → BitVec 64

/-- What the hardware path relies on: each instruction divides its register by the CRC-32C
generator over the operand's bytes, least significant first. The 64-bit form works on the low
half of its register and clears the high half. -/
structure Sse42.ComputesCrc32c (hw : Sse42) : Prop where
  crc32b : ∀ c v, hw.crc32b c v = Crc.update castagnoli c (leBytes v.toNat 1)
  crc32w : ∀ c v, hw.crc32w c v = Crc.update castagnoli c (leBytes v.toNat 2)
  crc32l : ∀ c v, hw.crc32l c v = Crc.update castagnoli c (leBytes v.toNat 4)
  crc32q : ∀ c v,
    hw.crc32q c v = (Crc.update castagnoli (c.setWidth 32) (leBytes v.toNat 8)).setWidth 64

/-- A `w`-bit load of `k` bytes at offset `p` of the buffer, least significant byte first as
on x86. -/
def load (w : Nat) (b : List UInt8) (p k : Nat) : BitVec w :=
  BitVec.ofNat w (leDecode ((b.drop p).take k))

/-- A checksum object of the hardware path: the running register. -/
structure HWCrc32c where
  crc : BitVec 32
  deriving DecidableEq, Repr

namespace HWCrc32c

def getValue (s : HWCrc32c) : BitVec 32 := ~~~s.crc

/-- `updateInt64(b, len)` for `len < 8`, at offset `p`. Each entry of the switch runs on into
the next ones until a `break`: `7` is `1 + 2 + 4`, `6` is `2 + 4`, `3` is `1 + 2`, `5` is
`4 + 1`. The pointer moves as `b++` and `b += 2`, `b += 4` do. -/
def updateInt64 (hw : Sse42) (crc : BitVec 32) (b : List UInt8) (p : Nat) : Nat → BitVec 32
  | 7 => hw.crc32l (hw.crc32w (hw.crc32b crc (load 8 b p 1)) (load 16 b (p + 1) 2))
      (load 32 b (p + 1 + 2) 4)
  | 6 => hw.crc32l (hw.crc32w crc (load 16 b p 2)) (load 32 b (p + 2) 4)
  | 4 => hw.crc32l crc (load 32 b p 4)
  | 3 => hw.crc32w (hw.crc32b crc (load 8 b p 1)) (load 16 b (p + 1) 2)
  | 2 => hw.crc32w crc (load 16 b p 2)
  | 5 => hw.crc32b (hw.crc32l crc (load 32 b p 4)) (load 8 b (p + 4) 1)
  | 1 => hw.crc32b crc (load 8 b p 1)
  | _ => crc

/-- The word loop `for (int i = len / bytes; i > 0; --i)`: the register is widened to the
instruction's 64 bits and the result truncated back into it. -/
def updateWords (hw : Sse42) (crc : BitVec 32) (b : List UInt8) (p : Nat) : Nat → BitVec 32
  | 0 => crc
  | i + 1 => updateWords hw ((hw.crc32q (crc.setWidth 64) (load 64 b p 8)).setWidth 32) b (p + 8) i

/-- `HWCrc32c::update(b, len)` on the `__LP64__` build, for a buffer whose first byte sits at
address `addr`. -/
def update (hw : Sse42) (s : HWCrc32c) (addr : Nat) (b : List UInt8) : HWCrc32c :=
  let len := b.length
  let align := 8 - addr % 8
  let align := if align = 8 then 0 else align
  let align := if len < align then len else align
  let crc := updateInt64 hw s.crc b 0 align
  let len := len - align
  if 0 < len then
    let crc := updateWords hw crc b align (len / 8)
    -- `len &= bytes - 1`, after the pointer has passed the words
    ⟨updateInt64 hw crc b (align + len / 8 * 8) (len % 8)⟩
  else ⟨crc⟩

end HWCrc32c

/-! ## The two paths agree -/

/-- The `k` bytes of the buffer from offset `p`. -/
def seg (b : List UInt8) (p k : Nat) : List UInt8 := (b.drop p).take k

theorem length_seg (b : List UInt8) (p k : Nat) (h : p + k ≤ b.length) : (seg b p k).length = k := by
  simp [seg]
  omega

theorem seg_zero_length (b : List UInt8) : seg b 0 b.length = b := by
  simp [seg]

theorem update_seg_add (c : BitVec 32) (b : List UInt8) {p q : Nat} (m n : Nat)
    (hq : q = p + m) :
    Crc.update castagnoli (Crc.update castagnoli c (seg b p m)) (seg b q n) =
      Crc.update castagnoli c (seg b p (m + n)) := by
  rw [← Crc.update_append, seg, seg, seg, List.take_add, List.drop_drop, hq]

/-- A load followed by the instruction's byte order gives back the bytes loaded. -/
theorem leBytes_load (b : List UInt8) (w p k : Nat) (hk : p + k ≤ b.length) (hw : 8 * k ≤ w) :
    leBytes (load w b p k).toNat k = seg b p k := by
  have hlen := length_seg b p k hk
  have h := leBytes_ofNat_leDecode (seg b p k) w (by omega)
  rw [hlen] at h
  exact h

section Hardware

variable {hw : Sse42} (h : hw.ComputesCrc32c)
include h

theorem crc32q_truncate (c : BitVec 32) (v : BitVec 64) :
    (hw.crc32q (c.setWidth 64) v).setWidth 32 = Crc.update castagnoli c (leBytes v.toNat 8) := by
  rw [h.crc32q, BitVec.setWidth_setWidth_of_le _ (by omega), BitVec.setWidth_setWidth_of_le _ (by omega),
    BitVec.setWidth_eq, BitVec.setWidth_eq]

theorem crc32b_load (c : BitVec 32) (b : List UInt8) (p : Nat) (hp : p + 1 ≤ b.length) :
    hw.crc32b c (load 8 b p 1) = Crc.update castagnoli c (seg b p 1) := by
  rw [h.crc32b, leBytes_load b 8 p 1 hp (by omega)]

theorem crc32w_load (c : BitVec 32) (b : List UInt8) (p : Nat) (hp : p + 2 ≤ b.length) :
    hw.crc32w c (load 16 b p 2) = Crc.update castagnoli c (seg b p 2) := by
  rw [h.crc32w, leBytes_load b 16 p 2 hp (by omega)]

theorem crc32l_load (c : BitVec 32) (b : List UInt8) (p : Nat) (hp : p + 4 ≤ b.length) :
    hw.crc32l c (load 32 b p 4) = Crc.update castagnoli c (seg b p 4) := by
  rw [h.crc32l, leBytes_load b 32 p 4 hp (by omega)]

/-- The switch of `updateInt64` feeds exactly the `len` bytes from `p`, in order. -/
theorem updateInt64_eq (crc : BitVec 32) (b : List UInt8) (p len : Nat) (hlen : len < 8)
    (hp : p + len ≤ b.length) :
    HWCrc32c.updateInt64 hw crc b p len = Crc.update castagnoli crc (seg b p len) := by
  interval_cases len <;>
    simp (disch := omega) only [HWCrc32c.updateInt64, crc32b_load h, crc32w_load h,
      crc32l_load h] <;>
    first
    | rfl
    | repeat rw [update_seg_add _ _ _ _ rfl]

/-- The word loop feeds `8 * i` bytes from `p`. -/
theorem updateWords_eq (crc : BitVec 32) (b : List UInt8) (p i : Nat) (hp : p + 8 * i ≤ b.length) :
    HWCrc32c.updateWords hw crc b p i = Crc.update castagnoli crc (seg b p (8 * i)) := by
  induction i generalizing crc p with
  | zero => simp [HWCrc32c.updateWords, seg]
  | succ i ih =>
    rw [HWCrc32c.updateWords, ih _ _ (by omega), crc32q_truncate h,
      leBytes_load b 64 p 8 (by omega) (by omega), update_seg_add _ _ _ _ rfl]
    congr 2
    omega

/-- **The hardware path leaves the software path's register**, at every alignment. -/
theorem HWCrc32c.update_crc (s : HWCrc32c) (addr : Nat) (b : List UInt8) :
    (HWCrc32c.update hw s addr b).crc = Crc.update castagnoli s.crc b := by
  -- `a` is the head length; the rest splits into `q` words and an `r`-byte tail
  set a := (if b.length < (if 8 - addr % 8 = 8 then 0 else 8 - addr % 8) then b.length
    else (if 8 - addr % 8 = 8 then 0 else 8 - addr % 8)) with ha
  have ha8 : a < 8 := by rw [ha]; split_ifs <;> omega
  have hal : a ≤ b.length := by rw [ha]; split_ifs <;> omega
  have hhead := updateInt64_eq h s.crc b 0 a ha8 (by omega)
  simp only [HWCrc32c.update, ← ha]
  split_ifs with hpos
  · set q := (b.length - a) / 8
    have hr : (b.length - a) % 8 < 8 := Nat.mod_lt _ (by omega)
    have hq8 : a + q * 8 = a + 8 * q := by omega
    have hall : a + (8 * q + (b.length - a) % 8) = b.length := by omega
    rw [updateInt64_eq h _ _ _ _ hr (by omega), updateWords_eq h _ _ _ _ (by omega), hhead,
      update_seg_add _ _ _ _ hq8, update_seg_add _ _ _ _ (by simp)]
    rw [hall, seg_zero_length]
  · rw [hhead]
    have : a = b.length := by omega
    rw [this, seg_zero_length]

theorem HWCrc32c.foldl_update_crc (c : BitVec 32) (calls : List (Nat × List UInt8)) :
    (calls.foldl (fun s call => HWCrc32c.update hw s call.1 call.2) ⟨c⟩).crc =
      Crc.update castagnoli c (calls.map Prod.snd).flatten := by
  induction calls generalizing c with
  | nil => rfl
  | cons call calls ih =>
    rw [List.foldl_cons, List.map_cons, List.flatten_cons, Crc.update_append,
      ← HWCrc32c.update_crc h ⟨c⟩ call.1 call.2]
    exact ih _

end Hardware

/-- **CRC-32C in hardware is CRC-32C in software.** Under the instruction assumption,
`HWCrc32c::update` leaves the register `SWCrc32c::update` leaves, for every register, buffer and
start address; so successive updates over any split of the input, each piece at its own address,
give the `getValue` of one software update over the whole input. -/
theorem hwCrc32c_agrees_with_swCrc32c (hw : Sse42) (h : hw.ComputesCrc32c) :
    (∀ (c : BitVec 32) (addr : Nat) (b : List UInt8),
      (HWCrc32c.update hw ⟨c⟩ addr b).crc = (SWCrc32c.update ⟨c⟩ b).crc) ∧
    ∀ (c : BitVec 32) (calls : List (Nat × List UInt8)),
      (calls.foldl (fun s call => HWCrc32c.update hw s call.1 call.2) ⟨c⟩).getValue =
        (SWCrc32c.update ⟨c⟩ (calls.map Prod.snd).flatten).getValue := by
  constructor
  · intro c addr b
    rw [HWCrc32c.update_crc h, SWCrc32c.update_crc]
  · intro c calls
    simp only [HWCrc32c.getValue, SWCrc32c.getValue]
    rw [HWCrc32c.foldl_update_crc h, SWCrc32c.update_crc]

/-- The instructions exactly as the assumption describes them. -/
def referenceSse42 : Sse42 where
  crc32b c v := Crc.update castagnoli c (leBytes v.toNat 1)
  crc32w c v := Crc.update castagnoli c (leBytes v.toNat 2)
  crc32l c v := Crc.update castagnoli c (leBytes v.toNat 4)
  crc32q c v := (Crc.update castagnoli (c.setWidth 32) (leBytes v.toNat 8)).setWidth 64

theorem referenceSse42_computesCrc32c : referenceSse42.ComputesCrc32c :=
  ⟨fun _ _ => rfl, fun _ _ => rfl, fun _ _ => rfl, fun _ _ => rfl⟩

/-- Nineteen bytes at address `3`: a 5-byte head, one word and a 6-byte tail, which take the
`4 + 1` and `2 + 4` entries of the switch. -/
theorem hwCrc32c_agrees_at_address_three :
    referenceSse42.ComputesCrc32c ∧
      (HWCrc32c.update referenceSse42 ⟨0xFFFFFFFF#32⟩ 3 ((List.range 19).map UInt8.ofNat)).crc =
        (SWCrc32c.update ⟨0xFFFFFFFF#32⟩ ((List.range 19).map UInt8.ofNat)).crc :=
  ⟨referenceSse42_computesCrc32c,
    (hwCrc32c_agrees_with_swCrc32c referenceSse42 referenceSse42_computesCrc32c).1 _ _ _⟩

/-- The CRC-32C check value of `"123456789"`. -/
example :
    (SWCrc32c.init.update [0x31, 0x32, 0x33, 0x34, 0x35, 0x36, 0x37, 0x38, 0x39]).getValue =
      0xE3069283#32 := by
  decide

end HdfsClient
