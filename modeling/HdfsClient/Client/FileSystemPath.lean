import HdfsClient.Lib.Resolve
import Mathlib.Data.List.TakeWhile

/-!
# Standard paths

Every path the file system sends to the namenode goes through `getStandardPath`
(`client/FileSystemImpl.cpp`): made absolute against the working directory (`GetAbsPath`), then
canonicalized (`CanonicalizePath`). `CanonicalizePath` splits the path at `/` with `StringSplit`
(`common/StringUtil.h`) and walks the components from the last one, counting the `..` not yet
matched in `skip`: a component with a `..` pending after it is dropped and uses it up.

Paths are lists of characters. `StringSplit` runs `strtok_r` on the string's buffer, which stops at
the first NUL: characters after it are not looked at. No caller hands it one: `getStandardPath` is
called with `const char *` paths, so the strings it builds hold no NUL.

**Theorem (`canonicalizePath_resolves`).** For a path without NUL, `CanonicalizePath` gives the
path resolved from the left on a stack of directories (`resolvePath`), where `..` at the root stays
there; the right-to-left walk agrees with it by `Resolve.stack_eq`. Canonicalizing twice is
canonicalizing once, and `getStandardPath` gives `/` or components after a `/` each, none of them
empty, `.` or `..`.
-/

namespace HdfsClient

namespace FileSystemImpl

/-! ## The functions -/

/-- `StringSplit(str, sep)` as `CanonicalizePath` calls it, on the characters of a path: the tokens
`strtok_r` hands over one by one from the C string `str`, that is, up to its first NUL: the maximal
runs of characters not in the set `sep`. -/
def StringSplit (str sep : List Char) : List (List Char) :=
  ((str.takeWhile (· ≠ '\x00')).splitOnP (· ∈ sep)).filter (· ≠ [])

/-- `GetAbsPath(prefix, path)`: an empty path is the prefix, a path that starts with `/` is
absolute, any other is put under the prefix. -/
def GetAbsPath (pfx path : List Char) : List Char :=
  if path.isEmpty then pfx
  else if path.head? = some '/' then path
  else pfx ++ '/' :: path

/-- The body of `CanonicalizePath`'s loop, on a component `s` before those walked already: `skip`
counts the `..` after it not yet matched, `tmp` holds the components kept. -/
def canonicalizeStep (s : List Char) (acc : Int × List (List Char)) : Int × List (List Char) :=
  if s.isEmpty ∨ s = ['.'] then acc
  else if s = ['.', '.'] then (acc.1 + 1, acc.2)
  else if acc.1 ≤ 0 then (acc.1, s :: acc.2)
  else (acc.1 - 1, acc.2)

/-- `CanonicalizePath(path)`: the components walked from the last one, and the ones kept written
each after a `/`, or `/` when none is. -/
def CanonicalizePath (path : List Char) : List Char :=
  let tmp := ((StringSplit path ['/']).foldr canonicalizeStep (0, [])).2
  let retval := tmp.flatMap ('/' :: ·)
  if retval.isEmpty then ['/'] else retval

/-- `FileSystemImpl::getStandardPath(path)` in the working directory `workingDir`. -/
def getStandardPath (workingDir path : List Char) : List Char :=
  CanonicalizePath (GetAbsPath workingDir path)

/-! ## Resolving a path -/

/-- What a component does to the directory reached: nothing when it is empty or `.`, up for `..`,
down into it otherwise. -/
def componentKind (s : List Char) : Resolve.Kind :=
  if s = [] ∨ s = ['.'] then .drop
  else if s = ['.', '.'] then .pop
  else .push

/-- A path written from its components: each after a `/`, or `/` alone. -/
def render (cs : List (List Char)) : List Char :=
  if cs = [] then ['/'] else cs.flatMap ('/' :: ·)

/-- The directories the path `p` goes through, resolved from the left on a stack: split at every
`/`, then each component acts as `componentKind` says, `..` at the root staying there. -/
def resolvePath (p : List Char) : List (List Char) :=
  Resolve.resolve componentKind (p.splitOn '/')

/-- A canonical path: `/`, or components each after a `/`, none of them empty, `.` or `..`, and
none holding a `/`. -/
def IsCanonical (q : List Char) : Prop :=
  ∃ cs : List (List Char), q = render cs ∧ ∀ c ∈ cs, componentKind c = .push ∧ '/' ∉ c

/-! ## Tokens -/

section Tokens

/-- The pieces of a list split at the elements satisfying `P` are made of elements of the list
that do not. -/
theorem mem_of_mem_splitOnP {α : Type*} {P : α → Bool} :
    ∀ {l t : List α}, t ∈ l.splitOnP P → ∀ c ∈ t, c ∈ l ∧ P c = false
  | [], t, ht => by
    rw [List.splitOnP_nil, List.mem_singleton] at ht
    simp [ht]
  | x :: xs, t, ht => by
    rw [List.splitOnP_cons_eq_if_modifyHead] at ht
    split at ht
    · -- `x` separates: the pieces are the empty one and those of `xs`
      rcases List.mem_cons.mp ht with rfl | ht
      · simp
      · exact fun c hc => (mem_of_mem_splitOnP ht c hc).imp_left (List.mem_cons_of_mem x)
    · -- `x` goes in front of the first piece of `xs`
      rename_i hx
      obtain ⟨h, rest, hL⟩ := List.exists_cons_of_ne_nil (List.splitOnP_ne_nil P xs)
      rw [hL, List.modifyHead_cons] at ht
      intro c hc
      rcases List.mem_cons.mp ht with rfl | ht
      · rcases List.mem_cons.mp hc with rfl | hc
        · exact ⟨List.mem_cons_self, by simpa using hx⟩
        · exact (mem_of_mem_splitOnP (hL ▸ List.mem_cons_self) c hc).imp_left
            (List.mem_cons_of_mem x)
      · exact (mem_of_mem_splitOnP (hL ▸ List.mem_cons_of_mem h ht) c hc).imp_left
          (List.mem_cons_of_mem x)

/-- A token is not empty, and holds neither a separator nor a NUL. -/
theorem mem_StringSplit {str sep t : List Char} (ht : t ∈ StringSplit str sep) :
    t ≠ [] ∧ ∀ c ∈ t, c ∉ sep ∧ c ≠ '\x00' := by
  rw [StringSplit, List.mem_filter] at ht
  obtain ⟨hsplit, hne⟩ := ht
  refine ⟨by simpa using hne, fun c hc => ?_⟩
  obtain ⟨hmem, hsep⟩ := mem_of_mem_splitOnP hsplit c hc
  exact ⟨by simpa using hsep, by simpa using List.mem_takeWhile_imp hmem⟩

/-- Without a NUL, `StringSplit` at `/` is the split at every `/`, without the empty pieces. -/
theorem StringSplit_eq_splitOn {str : List Char} (h : '\x00' ∉ str) :
    StringSplit str ['/'] = (str.splitOn '/').filter (· ≠ []) := by
  have htake : str.takeWhile (· ≠ '\x00') = str :=
    List.takeWhile_eq_self_iff.mpr fun c hc => by simpa using ne_of_mem_of_not_mem hc h
  have hsep : (fun c => decide (c ∈ ['/'])) = (· == '/') := by
    funext c
    rw [Bool.eq_iff_iff]
    simp
  rw [StringSplit, htake, hsep, List.splitOn_eq_splitOnP]

end Tokens

/-! ## The walk from the right -/

section Canonicalize

/-- One round of `CanonicalizePath`'s loop is a letter read from the right, with `skip` the count of
pops pending. -/
theorem canonicalizeStep_eq (s : List Char) (k : Nat) (tmp : List (List Char)) :
    canonicalizeStep s (k, tmp) =
      (((Resolve.stepRight componentKind s (k, tmp)).1 : Int),
        (Resolve.stepRight componentKind s (k, tmp)).2) := by
  by_cases hdrop : s = [] ∨ s = ['.']
  · simp [canonicalizeStep, Resolve.stepRight, componentKind, hdrop]
  · by_cases hup : s = ['.', '.']
    · simp [canonicalizeStep, Resolve.stepRight, componentKind, hup]
    · -- a component to keep: kept when no `..` is pending, else it uses one up
      cases k with
      | zero => simp [canonicalizeStep, Resolve.stepRight, componentKind, hdrop, hup]
      | succ k =>
        simp [canonicalizeStep, Resolve.stepRight, componentKind, hdrop, hup]

theorem foldr_canonicalizeStep (l : List (List Char)) :
    l.foldr canonicalizeStep (0, []) =
      (((Resolve.scanRight componentKind l).1 : Int), (Resolve.scanRight componentKind l).2) := by
  induction l with
  | nil => rfl
  | cons s l ih => rw [List.foldr_cons, ih, Resolve.scanRight_cons, canonicalizeStep_eq]

/-- **`CanonicalizePath` resolves its tokens.** It writes the components that the tokens of
`StringSplit` keep. -/
theorem canonicalizePath_eq (path : List Char) :
    CanonicalizePath path = render (Resolve.resolve componentKind (StringSplit path ['/'])) := by
  rw [CanonicalizePath, foldr_canonicalizeStep, ← Resolve.resolve_eq_scanRight]
  cases Resolve.resolve componentKind (StringSplit path ['/']) with
  | nil => rfl
  | cons c cs => simp [render]

example : CanonicalizePath ['/', 'a', '/', '.', '/', '/', 'b', '/', '.', '.'] = ['/', 'a'] := by
  decide

theorem head_render (cs : List (List Char)) : (render cs).head? = some '/' := by
  cases cs <;> simp [render]

/-- The components `CanonicalizePath` keeps are tokens of its argument, to go down into. -/
theorem canonicalizePath_components (path : List Char) {c : List Char}
    (hc : c ∈ Resolve.resolve componentKind (StringSplit path ['/'])) :
    componentKind c = .push ∧ c ≠ [] ∧ '/' ∉ c ∧ '\x00' ∉ c := by
  obtain ⟨htoken, hkind⟩ := Resolve.mem_resolve hc
  obtain ⟨hne, hchars⟩ := mem_StringSplit htoken
  exact ⟨hkind, hne, fun h => (hchars '/' h).1 (List.mem_singleton_self _),
    fun h => (hchars _ h).2 rfl⟩

theorem isCanonical_canonicalizePath (path : List Char) : IsCanonical (CanonicalizePath path) :=
  ⟨_, canonicalizePath_eq path, fun _ hc =>
    ⟨(canonicalizePath_components path hc).1, (canonicalizePath_components path hc).2.2.1⟩⟩

end Canonicalize

/-! ## Canonical paths are fixed points -/

section Render

/-- Components without `/`, each after a `/`, split back into themselves. -/
theorem splitOn_append_flatMap {c : List Char} {cs : List (List Char)} (hc : '/' ∉ c)
    (hcs : ∀ d ∈ cs, '/' ∉ d) : (c ++ cs.flatMap ('/' :: ·)).splitOn '/' = c :: cs := by
  induction cs generalizing c with
  | nil => simpa using List.splitOn_eq_singleton hc
  | cons d cs ih =>
    rw [List.flatMap_cons, List.cons_append, List.splitOn_append_cons_self_of_not_mem hc,
      ih (hcs d List.mem_cons_self) fun e he => hcs e (List.mem_cons_of_mem d he)]

theorem mem_render {cs : List (List Char)} {x : Char} (hx : x ∈ render cs) :
    x = '/' ∨ ∃ d ∈ cs, x ∈ d := by
  unfold render at hx
  split at hx
  · simp_all
  · simp only [List.mem_flatMap, List.mem_cons] at hx
    obtain ⟨d, hd, rfl | hx⟩ := hx
    · exact .inl rfl
    · exact .inr ⟨d, hd, hx⟩

/-- A path written from tokens splits back into them. -/
theorem StringSplit_render {cs : List (List Char)}
    (hcs : ∀ d ∈ cs, d ≠ [] ∧ '/' ∉ d ∧ '\x00' ∉ d) : StringSplit (render cs) ['/'] = cs := by
  have hnul : '\x00' ∉ render cs := fun h => by
    rcases mem_render h with h | ⟨d, hd, h⟩
    · exact absurd h (by decide)
    · exact (hcs d hd).2.2 h
  rw [StringSplit_eq_splitOn hnul]
  cases cs with
  | nil => rfl
  | cons c cs =>
    have hsplit : ([] ++ (c :: cs).flatMap ('/' :: ·)).splitOn '/' = [] :: c :: cs :=
      splitOn_append_flatMap List.not_mem_nil fun d hd => (hcs d hd).2.1
    rw [render, if_neg (List.cons_ne_nil c cs)]
    rw [List.nil_append] at hsplit
    rw [hsplit, List.filter_cons_of_neg (by simp), List.filter_eq_self.mpr]
    intro d hd
    simpa using (hcs d hd).1

end Render

/-! ## Standard paths are resolved paths -/

/-- **Canonicalizing resolves.** A path without NUL canonicalizes to the path resolved from the
left on a stack, with `..` at the root staying there. Canonicalizing twice is canonicalizing once,
and a standard path is `/` or components after a `/` each, none of them empty, `.` or `..`. -/
theorem canonicalizePath_resolves :
    (∀ p : List Char, '\x00' ∉ p → CanonicalizePath p = render (resolvePath p)) ∧
    (∀ p : List Char, CanonicalizePath (CanonicalizePath p) = CanonicalizePath p) ∧
    (∀ workingDir path : List Char, (getStandardPath workingDir path).head? = some '/' ∧
      IsCanonical (getStandardPath workingDir path)) := by
  refine ⟨fun p hp => ?_, fun p => ?_, fun workingDir path => ?_⟩
  · -- the empty pieces `StringSplit` leaves out do nothing on the stack
    rw [canonicalizePath_eq, StringSplit_eq_splitOn hp, resolvePath, Resolve.resolve_filter]
    intro s _ hs
    have hs' : s = [] := by simpa using hs
    simp [componentKind, hs']
  · -- the components kept are tokens to go down into, and split and resolve to themselves
    have hcs := fun (c : List Char) hc => canonicalizePath_components p (c := c) hc
    rw [canonicalizePath_eq p, canonicalizePath_eq (render _),
      StringSplit_render fun d hd => ⟨(hcs d hd).2.1, (hcs d hd).2.2.1, (hcs d hd).2.2.2⟩,
      Resolve.resolve_of_forall_push fun d hd => (hcs d hd).1]
  · refine ⟨?_, isCanonical_canonicalizePath _⟩
    rw [getStandardPath, canonicalizePath_eq]
    exact head_render _

/-- `a/../../b` climbs above the root and comes back down into `b`. -/
theorem canonicalizePath_resolves_above_root :
    '\x00' ∉ ['a', '/', '.', '.', '/', '.', '.', '/', 'b'] ∧
      CanonicalizePath ['a', '/', '.', '.', '/', '.', '.', '/', 'b'] =
        render (resolvePath ['a', '/', '.', '.', '/', '.', '.', '/', 'b']) :=
  ⟨by decide, canonicalizePath_resolves.1 _ (by decide)⟩

end FileSystemImpl

end HdfsClient
