import HdfsClient.Client.InputStream

/-!
# The stream is a cursor over the bytes of the file

For a cluster whose namenode answers with blocks that tile the file from the offset asked for
(`Cluster.Tiles`), every call on the stream, until a `seek` past the end, behaves as a call on a
cursor over the bytes of the file (`CursorStep`): `seek` moves the cursor inside the file, `read`
hands over the next bytes, at least one and none past the end of the block that holds the cursor,
and `readFully` hands over exactly the bytes asked for, or throws the end of the stream when the
file ends first. A `seek` past the end does throw the end of the stream, as the cursor does, but the
stream keeps it and throws it again at every later call.

`Inv` is what the stream keeps between calls: no exception kept, the cursor inside the file, block
locations that tile the file, the block being read holding the cursor, and the reader, when there
is one, at the cursor.

* `LocatedBlocks.findBlock_finds_holding_block` — in blocks sorted by offset that do not overlap,
  `findBlock` finds the block that holds a position before `fileLength`, and nothing where no block
  holds it, negative positions included (`std::lower_bound` and the step back).
* `LocatedBlocks.Known.findBlock_spec` — in block locations as the stream keeps them, what is found
  is readable and holds the position.
* `updateBlockInfos_spec` — fresh block locations tile the file and hold the cursor.
* `Inv.readInternal_ok`, `Inv.readInternal_end`, `Inv.seekInternal_ok`,
  `Inv.seekInternal_past_end`, `Inv.readFullyLoop_spec` — each call, on a stream with the invariant.
* `Inv.apply_step`, `run_follows_cursor` — a run without a `seek` past the end is a run of the
  cursor.
* `apply_of_lastError`, `seek_past_end_sticks` — once the end of the stream from a `seek` is kept,
  every call throws it and changes nothing.
-/

namespace HdfsClient

/-! ## A cursor over the bytes of a file -/

/-- **What a call on a cursor over `file` answers, and where it leaves the cursor.** `seek` moves the
cursor anywhere inside the file, and past the end throws the end of the stream and leaves the cursor
where it is; `read` hands over the next bytes, at least one when asked for one, and throws the end of
the stream at the end of the file; `readFully` hands over exactly the bytes asked for, or, when the
file ends first, reads up to the end and throws the end of the stream. -/
inductive CursorStep (file : List UInt8) :
    Nat → InputCall → Except InputError (List UInt8) → Nat → Prop
  | seek {c pos : Nat} : pos ≤ file.length → CursorStep file c (.seek pos) (.ok []) pos
  | seekPastEnd {c pos : Nat} : file.length < pos →
      CursorStep file c (.seek pos) (.error .endOfStream) c
  | read {c size k : Nat} : c < file.length → k ≤ size → (0 < size → 0 < k) →
      c + k ≤ file.length → CursorStep file c (.read size) (.ok ((file.drop c).take k)) (c + k)
  | readAtEnd {c size : Nat} : file.length ≤ c → CursorStep file c (.read size) (.error .endOfStream) c
  | readFully {c size : Nat} : c + size ≤ file.length →
      CursorStep file c (.readFully size) (.ok ((file.drop c).take size)) (c + size)
  | readFullyPastEnd {c size : Nat} : file.length < c + size →
      CursorStep file c (.readFully size) (.error .endOfStream) file.length

/-- Calls in turn on the cursor, with their answers, from one cursor to another. -/
inductive CursorRun (file : List UInt8) :
    Nat → List InputCall → List (Except InputError (List UInt8)) → Nat → Prop
  | nil {c : Nat} : CursorRun file c [] [] c
  | cons {c c' c'' : Nat} {call : InputCall} {calls : List InputCall}
      {a : Except InputError (List UInt8)} {answers : List (Except InputError (List UInt8))} :
      CursorStep file c call a c' → CursorRun file c' calls answers c'' →
      CursorRun file c (call :: calls) (a :: answers) c''

/-- **A cluster whose answers tile the file.** For every offset, `getBlockLocations` answers with
blocks that follow one another, each not empty and inside the file, the first holding the offset
when it is before `fileLength`; a complete file ends at `fileLength`; a file whose last block is
being written has that block at `fileLength`, and its visible length makes up the file. A read of a
block reader hands over at least one byte, and no more than asked for. -/
structure Cluster.Tiles (cl : Cluster) : Prop where
  contiguous : ∀ o, Intervals.Contiguous LocatedBlock.offset LocatedBlock.numBytes
    (cl.getBlockLocations o).blocks
  nonempty : ∀ o, ∀ b ∈ (cl.getBlockLocations o).blocks, 0 < b.numBytes
  inside : ∀ o, ∀ b ∈ (cl.getBlockLocations o).blocks, b.offset + b.numBytes ≤ cl.file.length
  covers : ∀ o, o < (cl.getBlockLocations o).fileLength →
    ∃ b ∈ (cl.getBlockLocations o).blocks, b.offset ≤ o ∧ o < b.offset + b.numBytes
  complete : ∀ o, (cl.getBlockLocations o).isLastBlockComplete = true →
    (cl.getBlockLocations o).fileLength = cl.file.length
  underConstruction : ∀ o, (cl.getBlockLocations o).isLastBlockComplete = false →
    ∃ last, (cl.getBlockLocations o).lastBlock = some last ∧
      last.offset = (cl.getBlockLocations o).fileLength ∧
      (cl.getBlockLocations o).fileLength + cl.readBlockLength last = cl.file.length
  readSize_pos : ∀ n size, 0 < size → 0 < cl.readSize n size
  readSize_le : ∀ n size, cl.readSize n size ≤ size

/-- A block the stream may read from: not empty, and inside the file. -/
structure Readable (cl : Cluster) (b : LocatedBlock) : Prop where
  pos : 0 < b.numBytes
  inside : b.offset + b.numBytes ≤ cl.file.length

/-- **Block locations as the stream keeps them**: blocks that follow one another, not empty and
inside the file; the length of the file, with `lastLength` for a last block being written, which
then sits at `fileLength` with that length. -/
structure LocatedBlocks.Known (cl : Cluster) (lbs : LocatedBlocks) (lastLength : Nat) : Prop where
  contiguous : Intervals.Contiguous LocatedBlock.offset LocatedBlock.numBytes lbs.blocks
  nonempty : ∀ b ∈ lbs.blocks, 0 < b.numBytes
  inside : ∀ b ∈ lbs.blocks, b.offset + b.numBytes ≤ cl.file.length
  length_eq : lbs.fileLength + (if lbs.isLastBlockComplete then 0 else lastLength) = cl.file.length
  last : lbs.isLastBlockComplete = false →
    ∃ last, lbs.lastBlock = some last ∧ last.offset = lbs.fileLength ∧ last.numBytes = lastLength

/-! ## Finding the block that holds a position -/

namespace LocatedBlocks

/-- Before `fileLength`, what `findBlock` finds is a known block that holds the position. -/
theorem findBlock_holds {lbs : LocatedBlocks} {p : Int} {b : LocatedBlock}
    (hp : p < lbs.fileLength) (h : lbs.findBlock p = some b) :
    b ∈ lbs.blocks ∧ b.offset ≤ p ∧ p < b.offset + b.numBytes := by
  unfold findBlock at h
  rw [if_pos hp] at h
  split at h
  · cases h
  · split at h
    · cases h
    obtain ⟨r, hr, hcheck⟩ := Option.bind_eq_some_iff.mp h
    -- the check at the end: the block holds the position
    split at hcheck
    · cases hcheck
    rename_i hin
    cases hcheck
    refine ⟨?_, by omega, by omega⟩
    -- the block comes from the list: at the lower bound, before it, or last
    split at hr
    · exact List.mem_of_getLast? hr
    · split at hr
      · exact List.mem_of_getElem? hr
      · cases hr
        exact List.mem_of_getElem? ‹_›

/-- `findBlock_holds` at the cursor, a position that is not negative. -/
theorem findBlock_of_lt {lbs : LocatedBlocks} {p : Nat} {b : LocatedBlock}
    (hp : p < lbs.fileLength) (h : lbs.findBlock p = some b) :
    b ∈ lbs.blocks ∧ b.offset ≤ p ∧ p < b.offset + b.numBytes := by
  obtain ⟨hb, hlo, hhi⟩ := findBlock_holds (by omega) h
  exact ⟨hb, by omega, by omega⟩

/-- **Finding in increasing blocks.** In blocks that start one after the other and do not overlap,
`findBlock` finds the block that holds a position before `fileLength`: at the lower bound when it
starts there, just before it otherwise. -/
theorem findBlock_eq_of_holds {lbs : LocatedBlocks}
    (hinc : Intervals.Increasing LocatedBlock.offset LocatedBlock.numBytes lbs.blocks)
    {p : Int} {b : LocatedBlock} (hb : b ∈ lbs.blocks)
    (hlo : b.offset ≤ p) (hhi : p < b.offset + b.numBytes) (hp : p < lbs.fileLength) :
    lbs.findBlock p = some b := by
  obtain ⟨pre, post, hsplit, hpre, hpost⟩ := hinc.split hb
  -- the blocks before `b` start before `p`
  have hbefore : ∀ a ∈ pre, ¬ p ≤ (a.offset : Int) := fun a ha => by
    have := (hpre a ha).1
    omega
  have hcheck : (some b).bind (fun r : LocatedBlock =>
      if p < r.offset ∨ p ≥ r.offset + r.numBytes then none else some r) = some b := by
    simp only [Option.bind_some]
    rw [if_neg (by omega)]
  unfold findBlock
  rw [if_pos hp]
  split
  · rename_i hnil
    rw [hsplit] at hnil
    simp at hnil
  · rename_i first rest hblocks
    -- the first block starts at `p` or before
    have hfirst : (first.offset : Int) ≤ p := by
      cases pre with
      | nil =>
        rw [hsplit, List.nil_append, List.cons.injEq] at hblocks
        rw [← hblocks.1]
        exact hlo
      | cons a pre =>
        rw [hsplit, List.cons_append, List.cons.injEq] at hblocks
        rw [← hblocks.1]
        exact Int.le_of_lt (Int.not_le.mp (hbefore a List.mem_cons_self))
    rw [if_neg (Int.not_lt.mpr hfirst)]
    dsimp only
    by_cases hat : (b.offset : Int) = p
    · -- `b` starts at `p`: the lower bound lands on it
      have hidx : lbs.blocks[Intervals.lowerBound (fun b : LocatedBlock => (b.offset : Int))
          lbs.blocks p]? = some b := by
        rw [hsplit, Intervals.lowerBound_append_cons hbefore (Int.le_of_eq hat.symm)]
        simp
      rw [hidx]
      simp only [gt_iff_lt, hat, Int.lt_irrefl, if_false]
      exact hcheck
    · cases post with
      | nil =>
        -- `b` is the last block, and the lower bound is past the end
        have hall : ∀ a ∈ lbs.blocks, ¬ p ≤ (a.offset : Int) := fun a ha => by
          rw [hsplit, List.mem_append, List.mem_singleton] at ha
          rcases ha with ha | rfl
          · exact hbefore a ha
          · omega
        have hidx : lbs.blocks[Intervals.lowerBound (fun b : LocatedBlock => (b.offset : Int))
            lbs.blocks p]? = none := by
          rw [Intervals.lowerBound_of_forall_not_le hall]
          simp
        have hlast : lbs.blocks.getLast? = some b := by
          rw [hsplit]
          simp
        rw [hidx]
        dsimp only
        rw [hlast]
        exact hcheck
      | cons c post =>
        -- the block after `b` starts past `p`: the lower bound lands on it, and `b` is before it
        have hc : p < c.offset := by
          have := (hpost c List.mem_cons_self).2
          omega
        have hbefore' : ∀ a ∈ pre ++ [b], ¬ p ≤ (a.offset : Int) := fun a ha => by
          rw [List.mem_append, List.mem_singleton] at ha
          rcases ha with ha | rfl
          · exact hbefore a ha
          · omega
        have hbound : Intervals.lowerBound (fun b : LocatedBlock => (b.offset : Int)) lbs.blocks p =
            pre.length + 1 := by
          rw [hsplit, show pre ++ b :: c :: post = (pre ++ [b]) ++ c :: post by simp,
            Intervals.lowerBound_append_cons hbefore' (Int.le_of_lt hc)]
          simp
        have hidx : lbs.blocks[pre.length + 1]? = some c := by
          rw [hsplit]
          simp
        have hprev : lbs.blocks[pre.length + 1 - 1]? = some b := by
          rw [hsplit, Nat.add_sub_cancel]
          simp
        rw [hbound, hidx]
        simp only [gt_iff_lt, hc, if_true]
        rw [hprev]
        exact hcheck

/-- **Finding in a tiling.** `findBlock_eq_of_holds` at the cursor, in blocks that follow one another,
none empty. -/
theorem findBlock_eq_of_mem {lbs : LocatedBlocks}
    (hc : Intervals.Contiguous LocatedBlock.offset LocatedBlock.numBytes lbs.blocks)
    (hpos : ∀ a ∈ lbs.blocks, 0 < a.numBytes) {p : Nat} {b : LocatedBlock} (hb : b ∈ lbs.blocks)
    (hlo : b.offset ≤ p) (hhi : p < b.offset + b.numBytes) (hp : p < lbs.fileLength) :
    lbs.findBlock p = some b :=
  findBlock_eq_of_holds (hc.increasing hpos) hb (by omega) (by omega) (by omega)

/-- **`findBlock` finds the block that holds the position, and only it.** In blocks sorted by
strictly increasing offset that do not overlap, for every position before `fileLength`, negative
ones included, `findBlock` finds a block exactly when it is a known block that holds the position,
so that no block, or a second one, can hold a position where it finds one; and it finds nothing
exactly when no known block holds the position. -/
theorem findBlock_finds_holding_block (lbs : LocatedBlocks)
    (hinc : Intervals.Increasing LocatedBlock.offset LocatedBlock.numBytes lbs.blocks)
    (position : Int) (hp : position < lbs.fileLength) :
    (∀ b, lbs.findBlock position = some b ↔
      b ∈ lbs.blocks ∧ b.offset ≤ position ∧ position < b.offset + b.numBytes) ∧
    (lbs.findBlock position = none ↔
      ∀ b ∈ lbs.blocks, ¬ (b.offset ≤ position ∧ position < b.offset + b.numBytes)) := by
  have hsome : ∀ b, lbs.findBlock position = some b ↔
      b ∈ lbs.blocks ∧ b.offset ≤ position ∧ position < b.offset + b.numBytes := fun b =>
    ⟨findBlock_holds hp, fun ⟨hb, hlo, hhi⟩ => findBlock_eq_of_holds hinc hb hlo hhi hp⟩
  refine ⟨hsome, ?_⟩
  constructor
  · intro hnone b hb hholds
    have := (hsome b).mpr ⟨hb, hholds⟩
    rw [hnone] at this
    cases this
  · intro hnot
    cases hfind : lbs.findBlock position with
    | none => rfl
    | some b =>
      obtain ⟨hb, hholds⟩ := (hsome b).mp hfind
      exact absurd hholds (hnot b hb)

/-- Two blocks of 10 and 5 bytes: the position `-3` is in neither. -/
theorem findBlock_finds_holding_block_negative :
    Intervals.Increasing LocatedBlock.offset LocatedBlock.numBytes [⟨0, 10⟩, ⟨10, 5⟩] ∧
      (-3 : Int) < (⟨15, true, none, [⟨0, 10⟩, ⟨10, 5⟩]⟩ : LocatedBlocks).fileLength ∧
      (⟨15, true, none, [⟨0, 10⟩, ⟨10, 5⟩]⟩ : LocatedBlocks).findBlock (-3) = none :=
  have hinc : Intervals.Increasing LocatedBlock.offset LocatedBlock.numBytes
      [⟨0, 10⟩, ⟨10, 5⟩] := by
    simp [Intervals.Increasing]
  have hp : (-3 : Int) < (⟨15, true, none, [⟨0, 10⟩, ⟨10, 5⟩]⟩ : LocatedBlocks).fileLength := by
    decide
  ⟨hinc, hp, ((findBlock_finds_holding_block _ hinc (-3) hp).2).mpr (by simp)⟩

/-- From `fileLength` on, `findBlock` answers with the last block. -/
theorem findBlock_of_le {lbs : LocatedBlocks} {p : Nat} (hp : lbs.fileLength ≤ p) :
    lbs.findBlock p = lbs.lastBlock := by
  rw [findBlock, if_neg (by omega)]

/-- **What is found holds the position.** In block locations as the stream keeps them, the block
that `findBlock` finds for a position inside the file is readable and holds the position: a known
block before `fileLength`, the last block being written from there on. -/
theorem Known.findBlock_spec {cl : Cluster} {lbs : LocatedBlocks} {n p : Nat} {b : LocatedBlock}
    (hk : lbs.Known cl n) (hp : p < cl.file.length) (h : lbs.findBlock p = some b) :
    Readable cl b ∧ b.offset ≤ p ∧ p < b.offset + b.numBytes := by
  by_cases hlt : p < lbs.fileLength
  · obtain ⟨hb, hlo, hhi⟩ := findBlock_of_lt hlt h
    exact ⟨⟨hk.nonempty b hb, hk.inside b hb⟩, hlo, hhi⟩
  · rw [findBlock_of_le (Nat.le_of_not_lt hlt)] at h
    have hlen := hk.length_eq
    -- inside the file but past `fileLength`: the last block is being written
    cases hc : lbs.isLastBlockComplete
    · obtain ⟨last, hlast, hoff, hnum⟩ := hk.last hc
      rw [hlast, Option.some.injEq] at h
      subst h
      rw [hc, if_neg Bool.false_ne_true] at hlen
      exact ⟨⟨by omega, by omega⟩, by omega, by omega⟩
    · rw [hc, if_pos rfl] at hlen
      omega

end LocatedBlocks

/-- A reader inside its block hands over the bytes of the file from the block's offset plus its
own cursor. -/
theorem BlockReader.read_eq {cl : Cluster} {r : BlockReader} {n size : Nat}
    (h : r.cursor + cl.readSize n size ≤ r.block.numBytes) :
    r.read cl n size = (cl.file.drop (r.block.offset + r.cursor)).take (cl.readSize n size) := by
  rw [BlockReader.read, List.drop_take, List.take_take, List.drop_drop, Nat.min_eq_left (by omega)]

/-- Reading `k` bytes and then `todo - k` more from where they end reads `todo` bytes. -/
theorem take_append_take_drop {α : Type} {l : List α} {c k todo : Nat} (hk : k ≤ todo) :
    (l.drop c).take k ++ (l.drop (c + k)).take (todo - k) = (l.drop c).take todo := by
  rw [← List.drop_drop, ← List.take_add, Nat.add_sub_of_le hk]

/-! ## Fresh block locations -/

namespace InputStreamImpl

variable {cl : Cluster}

/-- `getBlockLocations` answers with blocks sorted by offset, which `Convert` keeps as they are. -/
theorem sort_getBlockLocations (hcl : cl.Tiles) (o : Nat) :
    (cl.getBlockLocations o).blocks.mergeSort (fun a b => decide (a.offset ≤ b.offset)) =
      (cl.getBlockLocations o).blocks := by
  apply List.mergeSort_of_pairwise
  refine ((hcl.contiguous o).pairwise (hcl.nonempty o)).imp fun h => ?_
  exact decide_eq_true (by omega)

/-- **Fresh block locations.** `updateBlockInfos` changes nothing but the block locations and the
length of a last block being written; what it keeps tiles the file, and holds the cursor when it is
inside the file. -/
theorem updateBlockInfos_spec (hcl : cl.Tiles) (s : InputStreamImpl) :
    ∃ lbs n, s.updateBlockInfos cl = { s with lbs := some lbs, lastBlockBeingWrittenLength := n } ∧
      lbs.Known cl n ∧ (s.cursor < cl.file.length → ∃ b, lbs.findBlock s.cursor = some b) := by
  have hsort := sort_getBlockLocations hcl s.cursor
  -- before `fileLength`, a block of the answer holds the cursor
  have hcover : ∀ lbs : LocatedBlocks, lbs.fileLength = (cl.getBlockLocations s.cursor).fileLength →
      lbs.blocks = (cl.getBlockLocations s.cursor).blocks → s.cursor < lbs.fileLength →
      ∃ b, lbs.findBlock s.cursor = some b := by
    intro lbs hlen hblocks hp
    obtain ⟨b, hb, hlo, hhi⟩ := hcl.covers s.cursor (hlen ▸ hp)
    rw [← hblocks] at hb
    refine ⟨b, LocatedBlocks.findBlock_eq_of_mem ?_ ?_ hb hlo hhi hp⟩
    · rw [hblocks]; exact hcl.contiguous s.cursor
    · rw [hblocks]; exact hcl.nonempty s.cursor
  -- what `Convert` keeps of the answer is known, once the length of the file is
  have hknown : ∀ (lbs : LocatedBlocks) (n : Nat), lbs.blocks = (cl.getBlockLocations s.cursor).blocks →
      lbs.fileLength + (if lbs.isLastBlockComplete then 0 else n) = cl.file.length →
      (lbs.isLastBlockComplete = false →
        ∃ last, lbs.lastBlock = some last ∧ last.offset = lbs.fileLength ∧ last.numBytes = n) →
      lbs.Known cl n := fun lbs n h hlen hlast =>
    ⟨h ▸ hcl.contiguous s.cursor, h ▸ hcl.nonempty s.cursor, h ▸ hcl.inside s.cursor, hlen, hlast⟩
  unfold updateBlockInfos
  cases hc : (cl.getBlockLocations s.cursor).isLastBlockComplete
  · -- the last block is being written: its visible length becomes its length
    obtain ⟨last, hlast, hoff, hlen⟩ := hcl.underConstruction s.cursor hc
    have hconv : ((s.lbs.getD .empty).convert (cl.getBlockLocations s.cursor)).lastBlock = some last := by
      simp [LocatedBlocks.convert, hlast]
    refine ⟨{ (s.lbs.getD .empty).convert (cl.getBlockLocations s.cursor) with
      lastBlock := some { last with numBytes := cl.readBlockLength last } },
      cl.readBlockLength last, ?_, ?_, ?_⟩
    · simp only [LocatedBlocks.convert] at hconv ⊢
      simp only [hc, hconv, Bool.false_eq_true, if_false]
    · exact hknown _ _ hsort (by simpa [LocatedBlocks.convert, hc] using hlen)
        fun _ => ⟨_, rfl, hoff, rfl⟩
    · intro hp
      by_cases hlt : s.cursor < (cl.getBlockLocations s.cursor).fileLength
      · exact hcover _ rfl hsort hlt
      · exact ⟨_, LocatedBlocks.findBlock_of_le (Nat.le_of_not_lt hlt)⟩
  · -- a complete file ends at `fileLength`
    have hlen := hcl.complete s.cursor hc
    refine ⟨(s.lbs.getD .empty).convert (cl.getBlockLocations s.cursor), 0, ?_, ?_, ?_⟩
    · simp only [LocatedBlocks.convert, hc, if_true]
    · exact hknown _ _ hsort (by simpa [LocatedBlocks.convert, hc] using hlen)
        fun h => by cases hc.symm.trans h
    · intro hp
      exact hcover _ rfl hsort (by show s.cursor < (cl.getBlockLocations s.cursor).fileLength; omega)

/-! ## What the stream keeps between calls -/

/-- **The invariant of a healthy stream.** No exception kept; the cursor inside the file; the block
locations, when there are any, as the stream keeps them; a cursor before `endOfCurBlock` inside the
current block, which is readable and ends there; and a block reader, when there is one, on the
current block at the cursor. -/
structure Inv (cl : Cluster) (s : InputStreamImpl) : Prop where
  healthy : s.lastError = none
  cursor_le : s.cursor ≤ cl.file.length
  known : ∀ lbs, s.lbs = some lbs → lbs.Known cl s.lastBlockBeingWrittenLength
  block : s.cursor < s.endOfCurBlock → ∃ b, s.curBlock = some b ∧ Readable cl b ∧
    b.offset ≤ s.cursor ∧ s.endOfCurBlock = b.numBytes + b.offset
  reader : ∀ r, s.blockReader = some r → s.curBlock = some r.block ∧
    r.block.offset + r.cursor = s.cursor ∧ s.cursor ≤ s.endOfCurBlock

namespace Inv

variable {s : InputStreamImpl}

/-- With block locations, the stream knows the length of the file. -/
theorem getFileLength_eq (hi : Inv cl s) {lbs : LocatedBlocks} (h : s.lbs = some lbs) :
    s.getFileLength = cl.file.length := by
  simp only [getFileLength, h]
  exact (hi.known lbs h).length_eq

/-- Block locations as the stream keeps them keep the invariant. -/
theorem withBlocks (hi : Inv cl s) {lbs : LocatedBlocks} {n : Nat} (hk : lbs.Known cl n) :
    Inv cl { s with lbs := some lbs, lastBlockBeingWrittenLength := n } :=
  { hi with known := fun l hl => by cases hl; exact hk }

/-- `seekToBlock` onto a readable block that holds the cursor keeps the invariant. -/
theorem seekToBlock (hi : Inv cl s) {b : LocatedBlock} (hb : Readable cl b)
    (hlo : b.offset ≤ s.cursor) : Inv cl (s.seekToBlock b) :=
  { hi with
    block := fun _ => ⟨b, rfl, hb, hlo, rfl⟩
    reader := fun r hr => by cases hr }

/-- Before `endOfCurBlock`, `readOneBlock` has a reader on the current block at the cursor: the one
there is, or the one `setupBlockReader` opens. -/
theorem reader_ready (hi : Inv cl s) (hlt : s.cursor < s.endOfCurBlock) :
    ∃ r, (if s.blockReader.isNone then s.setupBlockReader else s) = { s with blockReader := some r } ∧
      Readable cl r.block ∧ r.block.offset + r.cursor = s.cursor ∧ s.curBlock = some r.block ∧
      s.endOfCurBlock = r.block.numBytes + r.block.offset := by
  obtain ⟨b, hb, hread, hlo, heoc⟩ := hi.block hlt
  cases hr : s.blockReader with
  | none =>
    refine ⟨⟨b, s.cursor - b.offset⟩, ?_, hread, by dsimp only; omega, hb, heoc⟩
    simp only [Option.isNone_none, if_true, setupBlockReader, hb]
  | some r =>
    -- the reader there is sits on the current block
    obtain ⟨hrb, hrc, -⟩ := hi.reader r hr
    rw [hb, Option.some.injEq] at hrb
    subst hrb
    refine ⟨r, ?_, hread, hrc, hb, heoc⟩
    simp only [Option.isNone_some, Bool.false_eq_true, if_false]
    cases s
    cases hr
    rfl

/-- A `seek` that drops the reader keeps the invariant. -/
theorem drop (hi : Inv cl s) {pos : Nat} (hpos : pos ≤ cl.file.length) :
    Inv cl { s with endOfCurBlock := 0, blockReader := none, cursor := pos } :=
  { hi with
    cursor_le := hpos
    block := fun h => absurd h (Nat.not_lt_zero _)
    reader := fun r hr => by cases hr }

/-- A `seek` forward inside the block being read, where the reader skips, keeps the invariant. -/
theorem skip (hi : Inv cl s) {r : BlockReader} (hr : s.blockReader = some r) {pos : Nat}
    (hfwd : s.cursor < pos) (hin : pos < s.endOfCurBlock) :
    Inv cl { s with blockReader := some (r.skip (pos - s.cursor)), cursor := pos } := by
  obtain ⟨b, hb, hread, hlo, heoc⟩ := hi.block (Nat.lt_trans hfwd hin)
  obtain ⟨hcur, hrc, -⟩ := hi.reader r hr
  have hinside := hread.inside
  exact
    { hi with
      cursor_le := by dsimp only; omega
      block := fun _ => ⟨b, hb, hread, by dsimp only; omega, heoc⟩
      reader := fun r' hr' => by
        cases hr'
        exact ⟨hcur, by simp only [BlockReader.skip]; omega, by dsimp only; omega⟩ }

/-- **The block locations, fresh or kept.** Where the stream fetches them whenever it has none, what
it then has is as the stream keeps them, and nothing else changes: the locations it kept, or fresh
ones that hold the cursor when it is inside the file. -/
theorem refresh (hcl : cl.Tiles) (hi : Inv cl s) {u : Bool} (hu : s.lbs = none → u = true) :
    ∃ lbs n, (if u = true then s.updateBlockInfos cl else s) =
      { s with lbs := some lbs, lastBlockBeingWrittenLength := n } ∧ lbs.Known cl n ∧
      (u = false → s.lbs = some lbs) ∧
      (u = true → s.cursor < cl.file.length → ∃ b, lbs.findBlock s.cursor = some b) := by
  cases u with
  | true =>
    obtain ⟨lbs, n, heq, hk, hfind⟩ := updateBlockInfos_spec hcl s
    exact ⟨lbs, n, heq, hk, (fun h => by cases h), fun _ => hfind⟩
  | false =>
    cases hl : s.lbs with
    | none => exact absurd (hu hl) Bool.false_ne_true
    | some lbs =>
      refine ⟨lbs, s.lastBlockBeingWrittenLength, ?_, hi.known lbs hl, fun _ => rfl,
        fun h => absurd h Bool.false_ne_true⟩
      cases s
      cases hl
      rfl

/-- Fresh block locations keep the invariant and the cursor, and give the length of the file. -/
theorem updateBlockInfos (hcl : cl.Tiles) (hi : Inv cl s) :
    Inv cl (s.updateBlockInfos cl) ∧ (s.updateBlockInfos cl).cursor = s.cursor ∧
      (s.updateBlockInfos cl).getFileLength = cl.file.length := by
  obtain ⟨lbs, n, heq, hk, -⟩ := updateBlockInfos_spec hcl s
  rw [heq]
  exact ⟨hi.withBlocks hk, rfl, (hi.withBlocks hk).getFileLength_eq rfl⟩

section Tiles

variable (hcl : cl.Tiles)
include hcl

/-- **One read of the block reader.** Before the end of the block, `readOneBlock` hands over the
next bytes of the file, as many as the reader gives, none past the end of the block and at least one
when asked for one; the reader and the cursor move on together. -/
theorem readOneBlock_spec (hi : Inv cl s) (hlt : s.cursor < s.endOfCurBlock) (size : Nat) :
    ∃ k s', s.readOneBlock cl size = (.ok ((cl.file.drop s.cursor).take k), s') ∧ k ≤ size ∧
      (0 < size → 0 < k) ∧ s.cursor + k ≤ s.endOfCurBlock ∧ s'.cursor = s.cursor + k ∧
      s'.curBlock = s.curBlock ∧ Inv cl s' := by
  obtain ⟨r, hsetup, hread, hrc, hcur, heoc⟩ := hi.reader_ready hlt
  have hinside := hread.inside
  -- the reader hands over what the cluster gives for this read, clipped at the end of the block
  set k := cl.readSize s.readerCalls (min size (s.endOfCurBlock - s.cursor))
  have hkle : k ≤ min size (s.endOfCurBlock - s.cursor) := hcl.readSize_le _ _
  have hbytes : r.read cl s.readerCalls (min size (s.endOfCurBlock - s.cursor)) =
      (cl.file.drop s.cursor).take k := by
    rw [BlockReader.read_eq (by omega), hrc]
  have hlen : ((cl.file.drop s.cursor).take k).length = k := by
    rw [List.length_take, List.length_drop]
    omega
  refine ⟨k, { s with
      cursor := s.cursor + k
      blockReader := some { r with cursor := r.cursor + k }
      readerCalls := s.readerCalls + 1 }, ?_, by omega,
    fun h => hcl.readSize_pos _ _ (by omega), by omega, rfl, rfl, ?_⟩
  · rw [readOneBlock]
    dsimp only
    rw [hsetup]
    dsimp only
    rw [hbytes, hlen]
  · exact
      { healthy := hi.healthy
        cursor_le := by dsimp only; omega
        known := hi.known
        block := fun _ => ⟨r.block, hcur, hread, by dsimp only; omega, heoc⟩
        reader := fun r' hr' => by
          cases hr'
          exact ⟨hcur, by dsimp only; omega, by dsimp only; omega⟩ }

/-- **Where `readInternal` reads from.** Inside the file, `readInternal` comes to `readOneBlock` on a
stream with the invariant whose cursor is before the end of its block: at once, or after
`seekToBlock` onto the block `findBlock` finds, with fresh block locations first when there are
none, or none that hold the cursor. -/
theorem readInternal_block (hi : Inv cl s) (hlt : s.cursor < cl.file.length) (size : Nat) :
    ∃ s1, Inv cl s1 ∧ s1.cursor = s.cursor ∧ s1.cursor < s1.endOfCurBlock ∧
      s.readInternal cl size = s1.readOneBlock cl size := by
  rw [readInternal]
  generalize hu : (s.lbs.isNone || decide (s.cursor ≥ s.getFileLength) ||
    (decide (s.cursor ≥ s.endOfCurBlock) && (s.lbs.bind (·.findBlock s.cursor)).isNone)) = u
  obtain ⟨lbs, n, heq, hk, hkept, hfresh⟩ :=
    hi.refresh hcl (show s.lbs = none → u = true from fun hl => by rw [← hu, hl]; rfl)
  -- the cursor is still inside the file, whose length the stream knows
  have hin : ({ s with lbs := some lbs, lastBlockBeingWrittenLength := n } : InputStreamImpl).cursor <
      ({ s with lbs := some lbs, lastBlockBeingWrittenLength := n } : InputStreamImpl).getFileLength := by
    rw [(hi.withBlocks hk).getFileLength_eq rfl]
    exact hlt
  rw [heq, if_neg fun h => Nat.not_le.mpr hin h.2]
  dsimp only
  by_cases hend : s.cursor ≥ s.endOfCurBlock
  · -- past its block, the cursor is held by the block locations: fresh ones, or kept ones for
    -- which `findBlock` found it
    obtain ⟨b, hb⟩ : ∃ b, lbs.findBlock s.cursor = some b := by
      cases u with
      | true => exact hfresh rfl hlt
      | false =>
        simp only [hkept rfl, Bool.or_eq_false_iff, Bool.and_eq_false_iff,
          decide_eq_false_iff_not] at hu
        obtain ⟨-, hfound | hfound⟩ := hu
        · exact absurd hend hfound
        · exact Option.ne_none_iff_exists'.mp fun h => by simp [h] at hfound
    obtain ⟨hread, hlo, hhi⟩ := hk.findBlock_spec hlt hb
    rw [if_pos hend, Option.bind_some, hb]
    exact ⟨_, (hi.withBlocks hk).seekToBlock hread hlo, rfl,
      by show s.cursor < b.numBytes + b.offset; omega, rfl⟩
  · rw [if_neg hend]
    exact ⟨_, hi.withBlocks hk, rfl, Nat.lt_of_not_le hend, rfl⟩

/-- **`readInternal` inside the file.** It hands over the next bytes of the file, as many as the
block reader gives and none past the end of the block that holds the cursor, at least one when
asked for one, and moves the cursor past them. -/
theorem readInternal_ok (hi : Inv cl s) (hlt : s.cursor < cl.file.length) (size : Nat) :
    ∃ k s', s.readInternal cl size = (.ok ((cl.file.drop s.cursor).take k), s') ∧ k ≤ size ∧
      (0 < size → 0 < k) ∧ s'.cursor = s.cursor + k ∧
      (∃ b, s'.curBlock = some b ∧ b.offset ≤ s.cursor ∧ s.cursor + k ≤ b.offset + b.numBytes) ∧
      Inv cl s' := by
  obtain ⟨s1, hi1, hc1, hin, heq⟩ := hi.readInternal_block hcl hlt size
  obtain ⟨b, hb, -, hlo, heoc⟩ := hi1.block hin
  obtain ⟨k, s', hread, hk, hpos, hend, hc', hb', hi'⟩ := hi1.readOneBlock_spec hcl hin size
  rw [hc1] at hread hend hc' hlo
  exact ⟨k, s', heq.trans hread, hk, hpos, hc', ⟨b, hb'.trans hb, hlo, by omega⟩, hi'⟩

/-- **`readInternal` at the end of the file** throws the end of the stream, with fresh block
locations and the cursor where it is. -/
theorem readInternal_end (hi : Inv cl s) (hend : cl.file.length ≤ s.cursor) (size : Nat) :
    ∃ s', s.readInternal cl size = (.error .endOfStream, s') ∧ s'.cursor = s.cursor ∧ Inv cl s' := by
  -- the block locations are fetched again: there are none, or the cursor is at their end
  have hu : (s.lbs.isNone || decide (s.cursor ≥ s.getFileLength) ||
      (decide (s.cursor ≥ s.endOfCurBlock) && (s.lbs.bind (·.findBlock s.cursor)).isNone)) = true := by
    cases hl : s.lbs with
    | none => simp
    | some lbs => simp [hi.getFileLength_eq hl, hend]
  obtain ⟨hi', hc, hlen⟩ := hi.updateBlockInfos hcl
  rw [readInternal, hu]
  simp only [if_true, true_and]
  rw [if_pos (by rw [hc, hlen]; exact hend)]
  exact ⟨_, rfl, hc, hi'⟩

/-- **`seekInternal` inside the file** moves the cursor to the position: the reader skips forward
inside its block, and is dropped otherwise. -/
theorem seekInternal_ok (hi : Inv cl s) {pos : Nat} (hpos : pos ≤ cl.file.length) :
    ∃ s', s.seekInternal cl pos = (.ok (), s') ∧ s'.cursor = pos ∧ Inv cl s' := by
  rw [seekInternal]
  by_cases hat : s.cursor = pos
  · rw [if_pos hat]
    exact ⟨s, rfl, hat, hi⟩
  rw [if_neg hat]
  generalize hu : (s.lbs.isNone || decide (pos > s.getFileLength)) = u
  dsimp only
  obtain ⟨lbs, n, heq, hk, -, -⟩ :=
    hi.refresh hcl (show s.lbs = none → u = true from fun hl => by rw [← hu, hl]; rfl)
  have hlen := (hi.withBlocks hk).getFileLength_eq rfl
  rw [heq, if_neg fun h => absurd (hlen ▸ h.2) (Nat.not_lt.mpr hpos)]
  dsimp only
  -- forward inside the block being read, the reader skips; otherwise it is dropped
  cases hr : s.blockReader with
  | none => exact ⟨_, rfl, rfl, (hi.withBlocks hk).drop hpos⟩
  | some r =>
    dsimp only
    by_cases hskip : pos > s.cursor ∧ pos < s.endOfCurBlock
    · rw [if_pos hskip]
      exact ⟨_, rfl, rfl, (hi.withBlocks hk).skip hr hskip.1 hskip.2⟩
    · rw [if_neg hskip]
      exact ⟨_, rfl, rfl, (hi.withBlocks hk).drop hpos⟩

/-- **`seekInternal` past the end of the file** throws the end of the stream, with fresh block
locations and the cursor where it is. -/
theorem seekInternal_past_end (hi : Inv cl s) {pos : Nat} (hpos : cl.file.length < pos) :
    ∃ s', s.seekInternal cl pos = (.error .endOfStream, s') ∧ s'.cursor = s.cursor ∧ Inv cl s' := by
  have hne : s.cursor ≠ pos := by have := hi.cursor_le; omega
  -- the block locations are fetched again: there are none, or the position is past their end
  have hu : (s.lbs.isNone || decide (pos > s.getFileLength)) = true := by
    cases hl : s.lbs with
    | none => simp
    | some lbs => simp [hi.getFileLength_eq hl, hpos]
  obtain ⟨hi', hc, hlen⟩ := hi.updateBlockInfos hcl
  rw [seekInternal, if_neg hne]
  simp only [hu, if_true, true_and]
  rw [if_pos (hlen ▸ hpos)]
  exact ⟨_, rfl, hc, hi'⟩

/-- **The loop of `readFully`.** With a round for each byte at least, the loop hands over, after what
it has, exactly the bytes asked for when the file holds them, and moves the cursor past them; when
the file ends first, it reads up to the end and throws the end of the stream. -/
theorem readFullyLoop_spec {fuel todo : Nat} (hfuel : todo < fuel) (acc : List UInt8)
    (hi : Inv cl s) :
    ∃ s', readFullyLoop cl fuel todo acc s =
        (if s.cursor + todo ≤ cl.file.length then .ok (acc ++ (cl.file.drop s.cursor).take todo)
          else .error .endOfStream, s') ∧
      s'.cursor = min (s.cursor + todo) cl.file.length ∧ Inv cl s' := by
  -- induction on the rounds left; each round that reads hands over one byte at least
  induction fuel generalizing todo acc s with
  | zero => exact absurd hfuel (Nat.not_lt_zero _)
  | succ fuel ih =>
    have hle := hi.cursor_le
    rw [readFullyLoop]
    by_cases h0 : todo = 0
    · subst h0
      rw [if_pos rfl]
      exact ⟨s, by simp [hle], by omega, hi⟩
    rw [if_neg h0]
    by_cases hend : cl.file.length ≤ s.cursor
    · -- at the end of the file
      obtain ⟨s', hread, hc', hi'⟩ := hi.readInternal_end hcl hend (min todo 2147483647)
      rw [hread, if_neg (by omega)]
      exact ⟨s', rfl, by omega, hi'⟩
    · -- one round, then the rest from where it ends
      obtain ⟨k, s', hread, hk, hpos, hc', -, hi'⟩ :=
        hi.readInternal_ok hcl (Nat.lt_of_not_le hend) (min todo 2147483647)
      have hk0 : 0 < k := hpos (by omega)
      have hle' := hi'.cursor_le
      have hlen : ((cl.file.drop s.cursor).take k).length = k := by
        rw [List.length_take, List.length_drop]
        omega
      obtain ⟨s'', hrest, hc'', hi''⟩ :=
        ih (show todo - k < fuel by omega) (acc ++ (cl.file.drop s.cursor).take k) hi'
      rw [hread]
      dsimp only
      rw [hlen, hrest, hc']
      refine ⟨s'', ?_, by omega, hi''⟩
      by_cases hfit : s.cursor + todo ≤ cl.file.length
      · rw [if_pos (by omega), if_pos hfit, List.append_assoc,
          take_append_take_drop (Nat.le_trans hk (Nat.min_le_left _ _))]
      · rw [if_neg (by omega), if_neg hfit]

/-- **Each call is a step of the cursor.** On a stream with the invariant, a call other than a
`seek` past the end answers as the cursor does and moves as it does, and the invariant stays. -/
theorem apply_step (hi : Inv cl s) (call : InputCall)
    (hseek : ∀ pos, call = .seek pos → pos ≤ cl.file.length) :
    ∃ a s', s.apply cl call = (a, s') ∧ CursorStep cl.file s.cursor call a s'.cursor ∧ Inv cl s' := by
  have hstatus := checkStatus_of_none hi.healthy
  cases call with
  | seek pos =>
    obtain ⟨s', hmove, hc, hi'⟩ := hi.seekInternal_ok hcl (hseek pos rfl)
    have hseek' : s.seek cl pos = (.ok (), s') := by
      rw [seek, hstatus]
      dsimp only
      rw [hmove]
    refine ⟨.ok [], s', by rw [apply, hseek']; rfl, ?_, hi'⟩
    rw [hc]
    exact .seek (hseek pos rfl)
  | read size =>
    by_cases hend : cl.file.length ≤ s.cursor
    · obtain ⟨s', hread, hc, hi'⟩ := hi.readInternal_end hcl hend size
      refine ⟨_, s', by rw [apply, read, hstatus]; dsimp only; rw [hread, keepUnlessEnd_endOfStream],
        ?_, hi'⟩
      rw [hc]
      exact .readAtEnd hend
    · obtain ⟨k, s', hread, hk, hpos, hc, -, hi'⟩ :=
        hi.readInternal_ok hcl (Nat.lt_of_not_le hend) size
      refine ⟨_, s', by rw [apply, read, hstatus]; dsimp only; rw [hread, keepUnlessEnd_ok], ?_, hi'⟩
      rw [hc]
      exact .read (Nat.lt_of_not_le hend) hk hpos (hc ▸ hi'.cursor_le)
  | readFully size =>
    obtain ⟨s', hloop, hc, hi'⟩ := hi.readFullyLoop_spec hcl (Nat.lt_succ_self size) []
    have happly : s.apply cl (.readFully size) = keepUnlessEnd (readFullyLoop cl (size + 1) size [] s) := by
      rw [apply, readFully, hstatus]
    rw [hloop] at happly
    -- the file holds the bytes asked for, or ends first
    by_cases hfit : s.cursor + size ≤ cl.file.length
    · rw [if_pos hfit, List.nil_append, keepUnlessEnd_ok] at happly
      refine ⟨_, s', happly, ?_, hi'⟩
      rw [hc, Nat.min_eq_left hfit]
      exact .readFully hfit
    · rw [if_neg hfit, keepUnlessEnd_endOfStream] at happly
      refine ⟨_, s', happly, ?_, hi'⟩
      rw [hc, Nat.min_eq_right (by omega)]
      exact .readFullyPastEnd (by omega)

/-- **A run is a run of the cursor.** From a stream with the invariant, calls none of which is a
`seek` past the end answer as the cursor does, and the invariant stays. -/
theorem run_cursor (hi : Inv cl s) (calls : List InputCall)
    (hseek : ∀ pos, InputCall.seek pos ∈ calls → pos ≤ cl.file.length) :
    CursorRun cl.file s.cursor calls (s.run cl calls).1 (s.run cl calls).2.cursor ∧
      Inv cl (s.run cl calls).2 := by
  -- induction on the calls, the step lemma at each
  induction calls generalizing s with
  | nil => exact ⟨.nil, hi⟩
  | cons call calls ih =>
    obtain ⟨a, s', happly, hstep, hi'⟩ :=
      hi.apply_step hcl call fun pos hc => hseek pos (hc ▸ List.mem_cons_self)
    obtain ⟨hrun, hinv⟩ := ih hi' fun pos hpos => hseek pos (List.mem_cons_of_mem call hpos)
    simp only [run, happly]
    exact ⟨.cons hstep hrun, hinv⟩

end Tiles

end Inv

/-! ## From the open stream on -/

/-- The stream before `openInternal` has the invariant. -/
theorem Inv.init : Inv cl init :=
  { healthy := rfl
    cursor_le := Nat.zero_le _
    known := fun _ h => by cases h
    block := fun h => absurd h (Nat.lt_irrefl 0)
    reader := fun _ h => by cases h }

/-- The open stream has the invariant, with the cursor at the start of the file. -/
theorem Inv.openInternal (hcl : cl.Tiles) : Inv cl (openInternal cl) ∧ (openInternal cl).cursor = 0 := by
  obtain ⟨hi, hc, -⟩ := Inv.init.updateBlockInfos hcl
  exact ⟨hi, hc⟩

/-- **The open stream is a cursor over the file.** For a cluster whose answers tile the file, calls
on the open stream, none of which is a `seek` past the end, answer as the cursor from the start of
the file does. -/
theorem run_follows_cursor (hcl : cl.Tiles) (calls : List InputCall)
    (hseek : ∀ pos, InputCall.seek pos ∈ calls → pos ≤ cl.file.length) :
    CursorRun cl.file 0 calls ((openInternal cl).run cl calls).1
      ((openInternal cl).run cl calls).2.cursor := by
  obtain ⟨hi, h0⟩ := Inv.openInternal hcl
  rw [← h0]
  exact (hi.run_cursor hcl calls hseek).1

/-- The file of three bytes in one complete block is tiled by its one block. -/
theorem threeBytes_tiles : threeBytes.Tiles where
  contiguous _ := List.isChain_singleton _
  nonempty _ b hb := by
    rw [List.mem_singleton.mp hb]
    decide
  inside _ b hb := by
    rw [List.mem_singleton.mp hb]
    decide
  covers o ho := ⟨⟨0, 3⟩, List.mem_singleton_self _, Nat.zero_le o, ho⟩
  complete _ _ := rfl
  underConstruction _ h := by cases h
  readSize_pos _ _ h := h
  readSize_le _ size := Nat.le_refl size

theorem run_follows_cursor_on_three_bytes :
    CursorRun threeBytes.file 0 [.read 2, .seek 1, .readFully 2, .seek 3, .read 1]
      ((openInternal threeBytes).run threeBytes [.read 2, .seek 1, .readFully 2, .seek 3, .read 1]).1
      ((openInternal threeBytes).run threeBytes
        [.read 2, .seek 1, .readFully 2, .seek 3, .read 1]).2.cursor :=
  run_follows_cursor threeBytes_tiles _ fun pos hpos => by
    simp only [List.mem_cons, List.mem_nil_iff, or_false, reduceCtorEq, InputCall.seek.injEq,
      false_or] at hpos
    rcases hpos with rfl | rfl <;> decide

/-! ## A kept exception -/

/-- **A kept exception is thrown by every call**, which changes nothing. -/
theorem apply_of_lastError {s : InputStreamImpl} {e : InputError} (h : s.lastError = some e)
    (call : InputCall) : s.apply cl call = (.error e, s) := by
  have hstatus := checkStatus_of_some h
  cases call with
  | seek pos =>
    have hseek : s.seek cl pos = (.error e, s) := by rw [seek, hstatus]
    rw [apply, hseek]
    rfl
  | read size => rw [apply, read, hstatus]
  | readFully size => rw [apply, readFully, hstatus]

/-- From a stream with a kept exception, every call of a run throws it. -/
theorem run_of_lastError {s : InputStreamImpl} {e : InputError} (h : s.lastError = some e)
    (calls : List InputCall) : s.run cl calls = (calls.map fun _ => .error e, s) := by
  induction calls with
  | nil => rfl
  | cons call calls ih => simp only [run, apply_of_lastError h, ih, List.map_cons]

/-- **A `seek` past the end sticks.** On a stream with the invariant, a `seek` past the end of the
file throws the end of the stream and keeps it: every later call throws it again, a `seek` inside
the file and a `read` that the cursor would answer included. -/
theorem seek_past_end_sticks (hcl : cl.Tiles) {s : InputStreamImpl} (hi : Inv cl s) {pos : Nat}
    (hpos : cl.file.length < pos) :
    ∃ s', s.seek cl pos = (.error .endOfStream, s') ∧
      ∀ calls, (s'.run cl calls).1 = calls.map fun _ => .error .endOfStream := by
  obtain ⟨s', hmove, -, -⟩ := hi.seekInternal_past_end hcl hpos
  refine ⟨{ s' with lastError := some .endOfStream }, ?_, fun calls => ?_⟩
  · rw [seek, checkStatus_of_none hi.healthy]
    dsimp only
    rw [hmove]
  · rw [run_of_lastError (e := .endOfStream) rfl]

/-- On the file of three bytes, `seek(5)` throws the end of the stream, and so does every call
after it. -/
theorem seek_past_end_sticks_on_three_bytes :
    ∃ s', (openInternal threeBytes).seek threeBytes 5 = (.error .endOfStream, s') ∧
      ∀ calls, (s'.run threeBytes calls).1 = calls.map fun _ => .error .endOfStream :=
  seek_past_end_sticks threeBytes_tiles (Inv.openInternal threeBytes_tiles).1 (by decide)

end InputStreamImpl

end HdfsClient
