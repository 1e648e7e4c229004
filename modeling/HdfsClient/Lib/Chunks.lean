import Mathlib.Data.List.Basic

/-!
# Writing at an offset, and cutting at chunk boundaries

A file written in packets is rebuilt by writing each packet's data at its offset, over what is
there (`writeAt`). A stream that sends the same bytes twice at overlapping offsets rebuilds the
right content as long as each write puts bytes of the content at their own place over a front
part of it (`writeAt_prefix`).

Checksums cover chunks: the data of a packet is cut at the offsets that are multiples of the chunk
size (`pieces`).

* `writeAt_prefix` — writing a piece of `C` at its place over a prefix of `C` gives a prefix of `C`.
* `writeAt_nil` — writing nothing inside the image leaves it alone.
* `pieces_append` — data that ends at a chunk boundary is cut on its own.
* `pieces_of_le` — data inside one chunk is one piece.
* `drop_take_flatMap_range` — in records of one width laid end to end, record `j` is found at
  `j` widths.
-/

namespace Chunks

variable {α : Type*}

/-- Write `data` over `img` at `off`, padding with `z` where `img` is shorter. -/
def writeAt (z : α) (img : List α) (off : Nat) (data : List α) : List α :=
  img.take off ++ List.replicate (off - img.length) z ++ data ++ img.drop (off + data.length)

/-- **Overwriting inside a prefix.** Writing the piece of `C` at `off` over a prefix of `C` that
reaches `off` gives the prefix of `C` that reaches the end of both. -/
theorem writeAt_prefix {z : α} {img C data : List α} {off : Nat} (himg : img <+: C)
    (hoff : off ≤ img.length) (hdata : (C.drop off).take data.length = data) :
    writeAt z img off data = C.take (max img.length (off + data.length)) := by
  have hi : img = C.take img.length := List.prefix_iff_eq_take.mp himg
  have hfront : img.take off = C.take off := by
    rw [hi, List.take_take, Nat.min_eq_left hoff]
  have hback : img.drop (off + data.length) =
      (C.drop (off + data.length)).take (img.length - (off + data.length)) := by
    rw [hi, List.drop_take, ← hi]
  -- the front part of `C` up to the end of `data`
  have hupto : C.take off ++ data = C.take (off + data.length) := by
    rw [List.take_add, hdata]
  unfold writeAt
  rw [hfront, Nat.sub_eq_zero_of_le hoff, List.replicate_zero, List.append_nil, hupto, hback]
  by_cases hle : img.length ≤ off + data.length
  · rw [Nat.sub_eq_zero_of_le hle, List.take_zero, List.append_nil, Nat.max_eq_right hle]
  · rw [Nat.max_eq_left (by omega), ← List.take_add, Nat.add_sub_cancel' (by omega)]

/-- Writing nothing inside `img` leaves it as it is. -/
theorem writeAt_nil {z : α} {img : List α} {off : Nat} (hoff : off ≤ img.length) :
    writeAt z img off [] = img := by
  rw [writeAt, Nat.sub_eq_zero_of_le hoff, List.replicate_zero, List.append_nil, List.append_nil,
    List.length_nil, Nat.add_zero, List.take_append_drop]

section Inside

variable {z : α} {img data : List α} {off : Nat}

/-- Inside the image, a write replaces the part at `off` and keeps the rest. -/
theorem writeAt_of_le (hoff : off ≤ img.length) :
    writeAt z img off data = img.take off ++ data ++ img.drop (off + data.length) := by
  rw [writeAt, Nat.sub_eq_zero_of_le hoff, List.replicate_zero, List.append_nil]

theorem length_writeAt (h : off + data.length ≤ img.length) :
    (writeAt z img off data).length = img.length := by
  rw [writeAt_of_le (by omega)]
  simp only [List.length_append, List.length_take, List.length_drop]
  omega

/-- What was written is read back at `off`. -/
theorem take_drop_writeAt_self (hoff : off ≤ img.length) :
    ((writeAt z img off data).drop off).take data.length = data := by
  have hT : (img.take off).length = off := by simp; omega
  rw [writeAt_of_le hoff, List.append_assoc, List.drop_left' hT, List.take_left' rfl]

/-- Before `off`, the image is as it was. -/
theorem take_writeAt (hoff : off ≤ img.length) : (writeAt z img off data).take off = img.take off := by
  have hT : (img.take off).length = off := by simp; omega
  rw [writeAt_of_le hoff, List.append_assoc, List.take_left' hT]

/-- A part of the image that ends before `off` is as it was. -/
theorem take_drop_writeAt_of_le {a n : Nat} (hoff : off ≤ img.length) (h : a + n ≤ off) :
    ((writeAt z img off data).drop a).take n = (img.drop a).take n := by
  have hcut : ∀ l : List α, (l.drop a).take n = ((l.take off).drop a).take n := fun l => by
    rw [List.drop_take, List.take_take, Nat.min_eq_left (by omega)]
  rw [hcut, take_writeAt hoff, ← hcut]

/-- From the end of the write on, the image is as it was. -/
theorem drop_writeAt_of_le {a : Nat} (hoff : off ≤ img.length) (ha : off + data.length ≤ a) :
    (writeAt z img off data).drop a = img.drop a := by
  have hT : (img.take off ++ data).length = off + data.length := by simp; omega
  rw [writeAt_of_le hoff, List.drop_append, List.drop_eq_nil_of_le (by omega), List.nil_append,
    hT, List.drop_drop, Nat.add_sub_cancel' ha]

/-- Writing what is already there changes nothing. -/
theorem writeAt_self {n : Nat} (h : off + n ≤ img.length) :
    writeAt z img off ((img.drop off).take n) = img := by
  have hlen : ((img.drop off).take n).length = n := by simp; omega
  rw [writeAt_of_le (by omega), hlen, List.append_assoc, ← List.drop_drop, List.take_append_drop,
    List.take_append_drop]

end Inside

/-- Cut `data`, which starts at offset `off`, at the offsets that are multiples of `c` (into
single elements for `c = 0`). -/
def pieces (c off : Nat) : List α → List (List α)
  | [] => []
  | a :: as =>
    (a :: as).take (max 1 (c - off % c)) ::
      pieces c (off + max 1 (c - off % c)) ((a :: as).drop (max 1 (c - off % c)))
termination_by data => data.length
decreasing_by
  rw [List.length_drop, List.length_cons]
  omega

@[simp] theorem pieces_nil (c off : Nat) : pieces c off ([] : List α) = [] := by
  rw [pieces]

theorem pieces_cons_eq {c off : Nat} {data : List α} (hd : data ≠ []) (hc : 0 < c) :
    pieces c off data =
      data.take (c - off % c) :: pieces c (off + (c - off % c)) (data.drop (c - off % c)) := by
  obtain ⟨a, as, rfl⟩ := List.exists_cons_of_ne_nil hd
  have hstep : max 1 (c - off % c) = c - off % c :=
    Nat.max_eq_right (Nat.sub_pos_of_lt (Nat.mod_lt _ hc))
  rw [pieces, hstep]

/-- Data inside one chunk is one piece. -/
theorem pieces_of_le {c off : Nat} {data : List α} (hd : data ≠ []) (hc : 0 < c)
    (hlen : data.length ≤ c - off % c) : pieces c off data = [data] := by
  rw [pieces_cons_eq hd hc, List.take_of_length_le hlen, List.drop_of_length_le hlen, pieces_nil]

/-- Non-empty data that ends at a chunk boundary reaches the first boundary after its start. -/
theorem le_length_of_mod_eq_zero {c off : Nat} {a : List α} (ha : a ≠ [])
    (hend : (off + a.length) % c = 0) : c - off % c ≤ a.length := by
  by_contra hlt
  have hpos : 0 < a.length := List.length_pos_iff.mpr ha
  -- otherwise the end falls strictly between two boundaries
  have hsmall : off % c + a.length < c := by omega
  have hmod : (off + a.length) % c = off % c + a.length := by
    rw [Nat.add_mod, Nat.mod_eq_of_lt (show a.length < c by omega), Nat.mod_eq_of_lt hsmall]
  omega

/-- **Cutting at a boundary.** Data that ends at a chunk boundary is cut on its own, and what
follows is cut from there. -/
theorem pieces_append {c : Nat} (hc : 0 < c) :
    ∀ (off : Nat) (a b : List α), (off + a.length) % c = 0 →
      pieces c off (a ++ b) = pieces c off a ++ pieces c (off + a.length) b
  | off, a, b, hend => by
    by_cases ha : a = []
    · subst ha
      simp
    · have hn := le_length_of_mod_eq_zero ha hend
      have hab : a ++ b ≠ [] := by simp [ha]
      rw [pieces_cons_eq hab hc, pieces_cons_eq ha hc, List.take_append_of_le_length hn,
        List.drop_append_of_le_length hn, List.cons_append]
      -- the rest of `a` again ends at the boundary
      have hrest : (off + (c - off % c) + (a.drop (c - off % c)).length) % c = 0 := by
        rw [List.length_drop, show off + (c - off % c) + (a.length - (c - off % c)) =
          off + a.length by omega]
        exact hend
      rw [pieces_append hc _ _ b hrest, List.length_drop,
        show off + (c - off % c) + (a.length - (c - off % c)) = off + a.length by omega]
termination_by _ a => a.length
decreasing_by
  have : 0 < c - off % c := Nat.sub_pos_of_lt (Nat.mod_lt _ hc)
  rw [List.length_drop]
  omega

/-! ## Records of one width -/

section Records

variable {w : Nat} (f : Nat → List α)

theorem length_flatMap_range (hf : ∀ j, (f j).length = w) (n : Nat) :
    ((List.range n).flatMap f).length = w * n := by
  induction n with
  | zero => simp
  | succ n ih =>
    rw [List.range_succ, List.flatMap_append, List.length_append, ih, List.flatMap_singleton, hf,
      Nat.mul_succ]

/-- **Record `j`.** Among records of width `w` laid end to end, record `j` starts at `w * j`. -/
theorem drop_take_flatMap_range (hf : ∀ j, (f j).length = w) :
    ∀ {n j : Nat}, j < n → (((List.range n).flatMap f).drop (w * j)).take w = f j
  | 0, j, hj => absurd hj (Nat.not_lt_zero j)
  | n + 1, j, hj => by
    have hlen := length_flatMap_range f hf n
    rw [List.range_succ, List.flatMap_append, List.flatMap_singleton]
    rcases Nat.lt_succ_iff_lt_or_eq.mp hj with hlt | rfl
    · have hle : w * j + w ≤ w * n := by rw [← Nat.mul_succ]; exact Nat.mul_le_mul_left w hlt
      rw [List.drop_append_of_le_length (by omega),
        List.take_append_of_le_length (by rw [List.length_drop, hlen]; omega)]
      exact drop_take_flatMap_range hf hlt
    · rw [List.drop_append_of_le_length (by omega), ← hlen, List.drop_length, List.nil_append,
        List.take_of_length_le (Nat.le_of_eq (hf _))]

end Records

end Chunks
