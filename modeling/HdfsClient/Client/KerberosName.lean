import Mathlib.Data.List.TakeWhile
import Mathlib.Data.List.Infix

/-!
# Kerberos names

`KerberosName::parse` (`client/KerberosName.cpp`) cuts a principal `name/host@realm` into its
parts with the POSIX extended regular expression `([^/@]*)(/([^/@]*))?@([^/@]*)`, matched by
`regexec` against the principal's C string. The pattern is not anchored, and `regexec` reports the
leftmost match, and the longest among those that start there. When nothing matches, a principal
holding an `@` is malformed and any other is a plain user name. `UserInfo::setEffectiveUser` parses
the user name every RPC connection header and token lookup uses.

**The model.** `Matches s m` says what the pattern matches in `s`, with its groups. `regexec` finds
the leftmost match and its longest form by trying each start in turn (`matchFront`);
`regexecFrom_spec` proves that it is the match POSIX specifies.

**Theorem (`new_accepts_every_principal`).** Every principal without NUL is accepted: any `@` in a
string is matched, with empty groups around it (`matches_of_mem_at`). The exception for a malformed
name is never thrown, and `x@y@z` parses as `x@y`, `a/b/c@R` as `b/c@R`.

**Theorem (`new_getPrincipal`).** What `getPrincipal` writes of a name, a host and a realm made of
characters of `[^/@]` parses back into them.
-/

namespace HdfsClient

/-- A character of the class `[^/@]`. -/
def principalChar (c : Char) : Bool := c ≠ '/' ∧ c ≠ '@'

/-- A match of `([^/@]*)(/([^/@]*))?@([^/@]*)`: where it starts, and its groups 1, 3 and 4. Group 3
is `none` when group 2 takes no part in the match. -/
structure PrincipalMatch where
  start : Nat
  name : List Char
  host : Option (List Char)
  realm : List Char
  deriving DecidableEq, Repr

namespace PrincipalMatch

/-- The characters the match covers. -/
def text (m : PrincipalMatch) : List Char :=
  m.name ++ (match m.host with | some h => '/' :: h | none => []) ++ '@' :: m.realm

/-- The pattern matches `s` at `m.start`, with the groups of `m`. -/
def Matches (s : List Char) (m : PrincipalMatch) : Prop :=
  (∀ c ∈ m.name, principalChar c) ∧ (∀ h ∈ m.host, ∀ c ∈ h, principalChar c) ∧
    (∀ c ∈ m.realm, principalChar c) ∧ m.text <+: s.drop m.start

end PrincipalMatch

/-- The longest match at the front of `t`: group 1 takes all of `[^/@]` it can, which must stop at
an `@`, or at a `/` followed by group 3 as long as it goes and an `@`; group 4 takes all it can. -/
def matchFront (t : List Char) : Option (List Char × Option (List Char) × List Char) :=
  let name := t.takeWhile principalChar
  match t.drop name.length with
  | [] => none
  | c :: r =>
    if c = '@' then some (name, none, r.takeWhile principalChar)
    else if c = '/' then
      let host := r.takeWhile principalChar
      match r.drop host.length with
      | [] => none
      | c' :: r' => if c' = '@' then some (name, some host, r'.takeWhile principalChar) else none
    else none

/-- The search of `regexec` through the starts `i, i + 1, ...` of the suffix `t`. -/
def regexecFrom : List Char → Nat → Option PrincipalMatch
  | [], _ => none
  | t@(_ :: t'), i =>
    match matchFront t with
    | some (name, host, realm) => some ⟨i, name, host, realm⟩
    | none => regexecFrom t' (i + 1)

/-- The C string `s.c_str()` stands for: `s` up to its first NUL. -/
def cString (s : List Char) : List Char := s.takeWhile (· ≠ '\x00')

/-- `regexec(&comp, s.c_str(), 5, pmatch, 0)` with the compiled pattern: the leftmost match and the
longest of those that start there, or `REG_NOMATCH`. -/
def regexec (s : List Char) : Option PrincipalMatch := regexecFrom (cString s) 0

/-- A `KerberosName`: `name/host@realm`. -/
structure KerberosName where
  name : List Char
  host : List Char
  realm : List Char
  deriving DecidableEq, Repr

/-- `HdfsIOException` "KerberosName: Malformed Kerberos name: %s". -/
inductive KerberosNameError
  | malformed (principal : List Char)
  deriving DecidableEq, Repr

namespace KerberosName

/-- `parse(principal)`: nothing for an empty principal; without a match, the whole principal is the
name unless it holds an `@`; with one, the groups that take part in it. -/
def parse (k : KerberosName) (principal : List Char) : Except KerberosNameError KerberosName :=
  if principal.isEmpty then pure k
  else
    match regexec principal with
    | none =>
      if '@' ∈ principal then throw (.malformed principal) else pure { k with name := principal }
    | some m => pure { k with name := m.name, host := m.host.getD k.host, realm := m.realm }

/-- `KerberosName(principal)`. -/
def new (principal : List Char) : Except KerberosNameError KerberosName :=
  parse ⟨[], [], []⟩ principal

/-- `getPrincipal()`: the name, then `/host` and `@realm` when they are not empty. -/
def getPrincipal (k : KerberosName) : List Char :=
  k.name ++ (if k.host.isEmpty then [] else '/' :: k.host) ++
    (if k.realm.isEmpty then [] else '@' :: k.realm)

end KerberosName

/-- A `UserInfo`, with the effective user it names RPC connections after. -/
structure UserInfo where
  effectiveUser : KerberosName
  deriving DecidableEq, Repr

namespace UserInfo

/-- `setEffectiveUser(user)`: the user parsed as a Kerberos name. -/
def setEffectiveUser (u : UserInfo) (user : List Char) : Except KerberosNameError UserInfo := do
  let k ← KerberosName.new user
  pure { u with effectiveUser := k }

/-- `getEffectiveUser()`. -/
def getEffectiveUser (u : UserInfo) : List Char := u.effectiveUser.name

/-- `getPrincipal()`. -/
def getPrincipal (u : UserInfo) : List Char := u.effectiveUser.getPrincipal

end UserInfo

/-! ## `regexec` finds the POSIX match -/

section Regexec

/-- The run of `[^/@]` at the front stops at the first character outside the class. -/
theorem takeWhile_principal_append {u v : List Char} (hu : ∀ c ∈ u, principalChar c) {c : Char}
    (hc : principalChar c = false) : (u ++ c :: v).takeWhile principalChar = u := by
  rw [List.takeWhile_append_of_pos hu, List.takeWhile_cons_of_neg (by simp [hc]), List.append_nil]

theorem takeWhile_principal_append_drop (t : List Char) :
    t.takeWhile principalChar ++ t.drop (t.takeWhile principalChar).length = t := by
  conv_rhs => rw [← List.take_append_drop (t.takeWhile principalChar).length t]
  rw [← List.prefix_iff_eq_take.mp (List.takeWhile_prefix _)]

theorem principalChar_of_mem_takeWhile {t : List Char} {c : Char}
    (hc : c ∈ t.takeWhile principalChar) : principalChar c :=
  List.mem_takeWhile_imp hc

/-- What `matchFront` finds is a match at the front. -/
theorem matchFront_sound {t name realm : List Char} {host : Option (List Char)}
    (h : matchFront t = some (name, host, realm)) :
    PrincipalMatch.Matches t ⟨0, name, host, realm⟩ := by
  have ht := takeWhile_principal_append_drop t
  simp only [matchFront] at h
  generalize t.drop (t.takeWhile principalChar).length = d at h ht
  cases d with
  | nil => cases h
  | cons c r =>
    have hr := takeWhile_principal_append_drop r
    dsimp only at h
    split_ifs at h with hat hslash
    · -- `name@realm`
      cases h
      subst hat
      refine ⟨fun _ => principalChar_of_mem_takeWhile, by simp, fun _ => principalChar_of_mem_takeWhile,
        ⟨r.drop (r.takeWhile principalChar).length, ?_⟩⟩
      simp only [PrincipalMatch.text, List.drop_zero, List.append_nil, List.append_assoc,
        List.cons_append, hr, ht]
    · -- `name/host@realm`
      have hh := takeWhile_principal_append_drop r
      generalize r.drop (r.takeWhile principalChar).length = e at h hh
      cases e with
      | nil => cases h
      | cons c' r' =>
        have hr' := takeWhile_principal_append_drop r'
        dsimp only at h
        split_ifs at h with hat'
        cases h
        subst hslash hat'
        refine ⟨fun _ => principalChar_of_mem_takeWhile, ?_, fun _ => principalChar_of_mem_takeWhile,
          ⟨r'.drop (r'.takeWhile principalChar).length, ?_⟩⟩
        · simpa using fun _ => principalChar_of_mem_takeWhile
        · simp only [PrincipalMatch.text, List.drop_zero, List.append_assoc, List.cons_append, hr',
            hh, ht]

/-- **The longest match at the front.** A match at the front has the groups 1 and 3 of
`matchFront`'s, and a group 4 that `matchFront`'s extends. -/
theorem matchFront_complete {t : List Char} {m : PrincipalMatch} (hm : m.Matches t)
    (h0 : m.start = 0) :
    ∃ realm, matchFront t = some (m.name, m.host, realm) ∧ m.realm <+: realm := by
  obtain ⟨hname, hhost, hrealm, w, hw⟩ := hm
  rw [h0, List.drop_zero] at hw
  have hat : principalChar '@' = false := by decide
  have hslash : principalChar '/' = false := by decide
  refine ⟨m.realm ++ w.takeWhile principalChar, ?_, List.prefix_append _ _⟩
  subst hw
  cases hh : m.host with
  | none =>
    simp only [PrincipalMatch.text, hh, List.append_nil, List.append_assoc, List.cons_append]
    simp [matchFront, takeWhile_principal_append hname hat, List.takeWhile_append_of_pos hrealm]
  | some host =>
    have hhost' : ∀ c ∈ host, principalChar c := hhost host (by simp [hh])
    simp only [PrincipalMatch.text, hh, List.append_assoc, List.cons_append]
    simp [matchFront, takeWhile_principal_append hname hslash,
      takeWhile_principal_append hhost' hat, List.takeWhile_append_of_pos hrealm]

/-- A match one character further in. -/
theorem matches_cons_iff {c : Char} {t : List Char} {m : PrincipalMatch} :
    PrincipalMatch.Matches (c :: t) { m with start := m.start + 1 } ↔ m.Matches t := Iff.rfl

/-- A match covers an `@`, so it is never found in the empty string. -/
theorem not_matches_nil (m : PrincipalMatch) : ¬ m.Matches [] := by
  rintro ⟨-, -, -, w, hw⟩
  simp [PrincipalMatch.text] at hw

theorem regexecFrom_shift : ∀ (t : List Char) (i : Nat),
    regexecFrom t i = (regexecFrom t 0).map fun m => { m with start := m.start + i }
  | [], _ => rfl
  | c :: t, i => by
    simp only [regexecFrom]
    cases matchFront (c :: t) with
    | some found => simp
    | none =>
      dsimp only
      rw [regexecFrom_shift t (i + 1), regexecFrom_shift t 1, Option.map_map]
      congr 1
      funext m
      simp only [Function.comp_apply, Nat.add_assoc, Nat.add_comm 1 i]

/-- **`regexec`'s search.** From the front of `t`, `regexecFrom` finds a match that starts no later
than any other, and whose groups 1 and 3 are those of any other match starting there, with a group
4 that extends the other's; or finds none when there is none. -/
theorem regexecFrom_spec : ∀ t : List Char,
    (∀ m : PrincipalMatch, regexecFrom t 0 = some m → m.Matches t ∧
      ∀ m' : PrincipalMatch, m'.Matches t → m.start ≤ m'.start ∧
        (m'.start = m.start → m'.name = m.name ∧ m'.host = m.host ∧ m'.realm <+: m.realm)) ∧
    (regexecFrom t 0 = none → ∀ m' : PrincipalMatch, ¬ m'.Matches t)
  | [] => ⟨fun _ h => (by cases h), fun _ m' => not_matches_nil m'⟩
  | c :: t => by
    obtain ⟨ihsome, ihnone⟩ := regexecFrom_spec t
    -- a match of `c :: t` that does not start at the front is a match of `t`
    have hinner : ∀ m' : PrincipalMatch, m'.Matches (c :: t) → m'.start ≠ 0 →
        ∃ m'' : PrincipalMatch, m''.Matches t ∧ m' = { m'' with start := m''.start + 1 } := by
      intro m' hm' h0
      obtain ⟨j, hj⟩ := Nat.exists_eq_succ_of_ne_zero h0
      have heq : m' = { ({ m' with start := j } : PrincipalMatch) with start := j + 1 } := by
        cases m'
        simp_all
      refine ⟨{ m' with start := j }, ?_, heq⟩
      rw [heq] at hm'
      exact matches_cons_iff.mp hm'
    cases hf : matchFront (c :: t) with
    | some found =>
      obtain ⟨name, host, realm⟩ := found
      have hsome : regexecFrom (c :: t) 0 = some ⟨0, name, host, realm⟩ := by
        simp [regexecFrom, hf]
      refine ⟨fun m hm => ?_, fun h => by rw [hsome] at h; cases h⟩
      rw [hsome] at hm
      cases hm
      refine ⟨matchFront_sound hf, fun m' hm' => ⟨Nat.zero_le _, fun h0 => ?_⟩⟩
      obtain ⟨realm', hfront, hprefix⟩ := matchFront_complete hm' h0
      rw [hf] at hfront
      cases hfront
      exact ⟨rfl, rfl, hprefix⟩
    | none =>
      -- nothing matches at the front, so the search goes on one character further
      have hfront : ∀ m' : PrincipalMatch, m'.Matches (c :: t) → m'.start ≠ 0 := by
        intro m' hm' h0
        obtain ⟨realm', hsome, -⟩ := matchFront_complete hm' h0
        rw [hf] at hsome
        cases hsome
      have hnext : regexecFrom (c :: t) 0 =
          (regexecFrom t 0).map fun m => { m with start := m.start + 1 } := by
        simp only [regexecFrom, hf]
        exact regexecFrom_shift t 1
      refine ⟨fun m hm => ?_, fun h m' hm' => ?_⟩
      · rw [hnext, Option.map_eq_some_iff] at hm
        obtain ⟨m₀, hm₀, rfl⟩ := hm
        obtain ⟨hmatch, hleast⟩ := ihsome m₀ hm₀
        refine ⟨matches_cons_iff.mpr hmatch, fun m' hm' => ?_⟩
        obtain ⟨m'', hm'', rfl⟩ := hinner m' hm' (hfront m' hm')
        obtain ⟨hle, hlong⟩ := hleast m'' hm''
        exact ⟨Nat.succ_le_succ hle, fun heq => hlong (Nat.succ_injective heq)⟩
      · rw [hnext, Option.map_eq_none_iff] at h
        obtain ⟨m'', hm'', rfl⟩ := hinner m' hm' (hfront m' hm')
        exact ihnone h m'' hm''

end Regexec

/-! ## What `parse` accepts -/

section Parse

theorem cString_of_not_mem {p : List Char} (h : '\x00' ∉ p) : cString p = p :=
  List.takeWhile_eq_self_iff.mpr fun c hc => by simpa using ne_of_mem_of_not_mem hc h

/-- Every match covers an `@`. -/
theorem mem_at_of_matches {s : List Char} {m : PrincipalMatch} (hm : m.Matches s) : '@' ∈ s := by
  obtain ⟨-, -, -, w, hw⟩ := hm
  have htext : '@' ∈ m.text := by simp [PrincipalMatch.text]
  have hdrop : '@' ∈ s.drop m.start := hw ▸ List.mem_append_left w htext
  exact List.mem_of_mem_drop hdrop

/-- **Every `@` starts a match**: an empty group 1 before it and an empty group 4 after it. -/
theorem matches_of_mem_at {s : List Char} (h : '@' ∈ s) : ∃ m : PrincipalMatch, m.Matches s := by
  obtain ⟨u, v, rfl⟩ := List.append_of_mem h
  exact ⟨⟨u.length, [], none, []⟩, by simp, by simp, by simp, v, by simp [PrincipalMatch.text]⟩

/-- `regexec` matches exactly when the C string holds an `@`. -/
theorem regexec_eq_none_iff (s : List Char) : regexec s = none ↔ '@' ∉ cString s := by
  constructor
  · intro hnone hat
    obtain ⟨m, hm⟩ := matches_of_mem_at hat
    exact (regexecFrom_spec _).2 hnone m hm
  · intro hat
    cases hr : regexec s with
    | none => rfl
    | some m => exact absurd (mem_at_of_matches ((regexecFrom_spec _).1 m hr).1) hat

/-- A principal without `@` is a user name. -/
theorem new_of_not_mem_at {p : List Char} (h : '@' ∉ p) : KerberosName.new p = .ok ⟨p, [], []⟩ := by
  have hnone : regexec p = none :=
    (regexec_eq_none_iff p).mpr fun hc => h (List.IsPrefix.subset (List.takeWhile_prefix _) hc)
  cases p with
  | nil => rfl
  | cons c p => simp [KerberosName.new, KerberosName.parse, hnone, h, pure, Except.pure]

/-- **`name@realm` and `name/host@realm`.** The principal is the whole of the leftmost match, and
its longest form covers the whole. -/
theorem regexec_whole {p : List Char} (hp : '\x00' ∉ p) {m₀ : PrincipalMatch} (hm₀ : m₀.Matches p)
    (h0 : m₀.start = 0) (hwhole : m₀.text = p) : regexec p = some m₀ := by
  have hc := cString_of_not_mem hp
  have hat : '@' ∈ cString p := by
    rw [hc]
    exact mem_at_of_matches hm₀
  obtain ⟨m, hm⟩ : ∃ m, regexec p = some m := by
    cases hr : regexec p with
    | none => exact absurd ((regexec_eq_none_iff p).mp hr) (not_not.mpr hat)
    | some m => exact ⟨m, rfl⟩
  obtain ⟨hmatch, hleast⟩ := (regexecFrom_spec _).1 m hm
  rw [hc] at hmatch hleast
  -- the leftmost match starts at the front, where `m₀` is the longest there is
  have hstart : m.start = 0 := Nat.le_zero.mp (h0 ▸ (hleast m₀ hm₀).1)
  obtain ⟨hname, hhost, hrealm⟩ := (hleast m₀ hm₀).2 (h0.trans hstart.symm)
  obtain ⟨-, -, -, w, hw⟩ := hmatch
  rw [hstart, List.drop_zero, ← hwhole] at hw
  -- `m` covers no more than `m₀`, which covers all of `p`
  have hlen : m.realm.length ≤ m₀.realm.length := by
    have := congrArg List.length hw
    simp only [PrincipalMatch.text, hname, hhost, List.length_append, List.length_cons] at this
    omega
  have hrealm' : m₀.realm = m.realm := hrealm.eq_of_length (Nat.le_antisymm hrealm.length_le hlen)
  rw [hm]
  cases m
  cases m₀
  simp_all

theorem new_of_regexec {p : List Char} {m : PrincipalMatch} (h : regexec p = some m) :
    KerberosName.new p = .ok ⟨m.name, m.host.getD [], m.realm⟩ := by
  have hne : p ≠ [] := by
    rintro rfl
    cases h
  simp [KerberosName.new, KerberosName.parse, hne, h, pure, Except.pure]

/-- `name@realm` parses into its parts. -/
theorem new_name_realm {name realm : List Char} (hname : ∀ c ∈ name, principalChar c)
    (hrealm : ∀ c ∈ realm, principalChar c) (hnul : '\x00' ∉ name ++ '@' :: realm) :
    KerberosName.new (name ++ '@' :: realm) = .ok ⟨name, [], realm⟩ :=
  new_of_regexec (@regexec_whole _ hnul ⟨0, name, none, realm⟩
    ⟨hname, by simp, hrealm, [], by simp [PrincipalMatch.text]⟩ rfl (by simp [PrincipalMatch.text]))

/-- `name/host@realm` parses into its parts. -/
theorem new_name_host_realm {name host realm : List Char} (hname : ∀ c ∈ name, principalChar c)
    (hhost : ∀ c ∈ host, principalChar c) (hrealm : ∀ c ∈ realm, principalChar c)
    (hnul : '\x00' ∉ name ++ '/' :: host ++ '@' :: realm) :
    KerberosName.new (name ++ '/' :: host ++ '@' :: realm) = .ok ⟨name, host, realm⟩ :=
  new_of_regexec (@regexec_whole _ hnul ⟨0, name, some host, realm⟩
    ⟨hname, by simpa using hhost, hrealm, [], by simp [PrincipalMatch.text]⟩ rfl
    (by simp [PrincipalMatch.text]))

/-- `getPrincipal()` writes the parts back, the host and the realm when they are not empty. -/
theorem getPrincipal_name_host_realm {name host realm : List Char} (hhost : host ≠ [])
    (hrealm : realm ≠ []) :
    KerberosName.getPrincipal ⟨name, host, realm⟩ = name ++ '/' :: host ++ '@' :: realm := by
  simp [KerberosName.getPrincipal, hhost, hrealm]

/-- **Principals round trip.** A name with a realm, and a host or none, all made of characters of
`[^/@]` without NUL, is written by `getPrincipal` as a principal that `KerberosName::parse` cuts
back into the same parts. -/
theorem new_getPrincipal {name host realm : List Char} (hname : ∀ c ∈ name, principalChar c)
    (hhost : ∀ c ∈ host, principalChar c) (hrealm : ∀ c ∈ realm, principalChar c)
    (hne : realm ≠ []) (hnul : '\x00' ∉ name ++ host ++ realm) :
    KerberosName.new (KerberosName.getPrincipal ⟨name, host, realm⟩) = .ok ⟨name, host, realm⟩ := by
  by_cases hh : host = []
  · -- `name@realm`
    subst hh
    have hp : KerberosName.getPrincipal ⟨name, [], realm⟩ = name ++ '@' :: realm := by
      simp [KerberosName.getPrincipal, hne]
    rw [hp]
    exact new_name_realm hname hrealm (by simpa using hnul)
  · -- `name/host@realm`
    rw [getPrincipal_name_host_realm hh hne]
    exact new_name_host_realm hname hhost hrealm (by simpa using hnul)

/-- The service principal `nn/host1@R`. -/
theorem new_getPrincipal_of_service :
    KerberosName.new (KerberosName.getPrincipal ⟨['n', 'n'], ['h', 'o', 's', 't', '1'], ['R']⟩) =
      .ok ⟨['n', 'n'], ['h', 'o', 's', 't', '1'], ['R']⟩ :=
  new_getPrincipal (by simp [principalChar]) (by simp [principalChar]) (by simp [principalChar])
    (List.cons_ne_nil _ _) (by simp)

end Parse

/-! ## Malformed principals are accepted -/

/-- **Every principal is accepted.** A principal without NUL always parses: `regexec` finds a match
at any `@`, so the malformed-name exception is never thrown, and the match found may cover only
part of the principal. -/
theorem new_accepts_every_principal :
    (∀ p : List Char, '\x00' ∉ p → ∃ k, KerberosName.new p = .ok k) ∧
    KerberosName.new ['x', '@', 'y', '@', 'z'] = .ok ⟨['x'], [], ['y']⟩ ∧
    KerberosName.new ['a', '/', 'b', '/', 'c', '@', 'R'] = .ok ⟨['b'], ['c'], ['R']⟩ := by
  refine ⟨fun p hp => ?_, rfl, rfl⟩
  cases hr : regexec p with
  | some m => exact ⟨_, new_of_regexec hr⟩
  | none =>
    -- no match: the C string, which is all of `p`, holds no `@`
    have hat := (regexec_eq_none_iff p).mp hr
    rw [cString_of_not_mem hp] at hat
    exact ⟨_, new_of_not_mem_at hat⟩

/-- `x@y@z` is accepted, as `x@y`. -/
theorem new_accepts_every_principal_two_realms :
    '\x00' ∉ ['x', '@', 'y', '@', 'z'] ∧ ∃ k, KerberosName.new ['x', '@', 'y', '@', 'z'] = .ok k :=
  ⟨by decide, new_accepts_every_principal.1 _ (by decide)⟩

end HdfsClient
