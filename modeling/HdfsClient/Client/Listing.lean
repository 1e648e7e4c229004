import HdfsClient.Lib.Paging
import Mathlib.Data.Char
import Mathlib.Data.List.Lex
import Mathlib.Data.Int.Order.Basic

/-!
# Paged listings of directories and encryption zones

`DirectoryIterator` (`client/DirectoryIterator.cpp`) and `EncryptionZoneIterator`
(`client/EncryptionZoneIterator.cpp`) are one design: the position `next` in the page `lists`, and
a cursor from which the next page is asked for (`startAfter`, the last entry's path; `id`, the
last zone's id). `PagedIterator` is that design once, with the request and the cursor of an
entry as parameters; each iterator is it applied to its own namenode call.

The namenode is an RPC oracle. `NamenodeImpl::getListing` cuts the cursor back to its last path
component and returns `remainingEntries > 0`; `NamenodeImpl::listEncryptionZones` returns
`hasMore` when the answer has zones, and runs off its end without a `return` when it has none,
so its caller gets an unspecified value (`unspecified`).

* `PagedIterator.run_eq` — for a namenode that pages correctly (`Paging.Serves`), every sequence
  of `hasNext`/`getNext` answers as handing out the entries in key order, each once.
* `listsDirectory_complete` and `listsZones_complete` — so do the two iterators, and the loops of
  `listAllDirectoryItems` and `listAllEncryptionZoneItems` end with every entry.
* `listEncryptionZones_unspecified_return` — with the unspecified value true and no zones at all,
  `hasNext` says there is a zone, and `getNext` reads past the empty page.
-/

namespace HdfsClient

open Paging

/-! ## The shared iterator -/

/-- The errors of `getNext`. -/
inductive ListingError
  /-- `HdfsIOException`: "End of the dir flow". -/
  | endOfDirFlow
  /-- `lists[next++]` past the end of the page: undefined behaviour in the source. -/
  | outOfRange
  /-- The loop bound of the model ran out; never, with the bounds the theorems give. -/
  | outOfFuel
  deriving DecidableEq, Repr

/-- The state of `DirectoryIterator` and `EncryptionZoneIterator`: the position `next` in the
page `lists`, and the cursor of the next request. -/
structure PagedIterator (α C : Type) where
  next : Nat
  lists : List α
  cursor : C
  deriving DecidableEq, Repr

/-- The calls a client makes on an iterator. -/
inductive IteratorCall
  | hasNext
  | getNext
  deriving DecidableEq, Repr

/-- What a call answers. -/
inductive IteratorAnswer (α : Type)
  | hasNext (b : Bool)
  | getNext (r : Except ListingError α)

namespace PagedIterator

variable {α C : Type} (request : C → List α × Bool) (cursorOf : α → C)

/-- `getListing()` / `listEncryptionZones()`: clear the page, ask for the next one, move the
cursor to its last entry, and say whether the answer says more or has entries. -/
def fetch (it : PagedIterator α C) : Bool × PagedIterator α C :=
  let r := request it.cursor
  let cursor := match r.1.getLast? with
    | some e => cursorOf e
    | none => it.cursor
  (r.2 || !r.1.isEmpty, ⟨0, r.1, cursor⟩)

/-- `hasNext()`: true while the page has entries left, else what the next fetch says. -/
def hasNext (it : PagedIterator α C) : Bool × PagedIterator α C :=
  if it.lists.length ≤ it.next then fetch request cursorOf it else (true, it)

/-- `getNext()`: fetch when the page is used up (the test of `hasNext`), throw when the fetch
says there is nothing, then return `lists[next++]`. -/
def getNext (it : PagedIterator α C) : Except ListingError α × PagedIterator α C :=
  let r := hasNext request cursorOf it
  if r.1 then
    match r.2.lists[r.2.next]? with
    | some e => (.ok e, { r.2 with next := r.2.next + 1 })
    | none => (.error .outOfRange, r.2)
  else (.error .endOfDirFlow, r.2)

/-- A sequence of calls, with the answers in order. -/
def run : PagedIterator α C → List IteratorCall → List (IteratorAnswer α)
  | _, [] => []
  | it, .hasNext :: cs =>
    let r := hasNext request cursorOf it
    .hasNext r.1 :: run r.2 cs
  | it, .getNext :: cs =>
    let r := getNext request cursorOf it
    .getNext r.1 :: run r.2 cs

/-- `while (it.hasNext()) retval.push_back(it.getNext())`, with at most `fuel` rounds. -/
def listAll : Nat → PagedIterator α C → List α → Except ListingError (List α)
  | 0, _, _ => .error .outOfFuel
  | fuel + 1, it, retval =>
    let h := hasNext request cursorOf it
    if h.1 then
      match getNext request cursorOf h.2 with
      | (.ok e, it) => listAll fuel it (retval ++ [e])
      | (.error err, _) => .error err
    else .ok retval

end PagedIterator

/-! ## What a listing should do

The specification holds the entries still to hand out, in order. -/

namespace Enumerator

variable {α : Type}

/-- Hand out the first entry left, or throw when none is. -/
def getNext : List α → Except ListingError α × List α
  | [] => (.error .endOfDirFlow, [])
  | e :: rest => (.ok e, rest)

/-- A sequence of calls: `hasNext` says whether an entry is left. -/
def run : List α → List IteratorCall → List (IteratorAnswer α)
  | _, [] => []
  | rest, .hasNext :: cs => .hasNext (!rest.isEmpty) :: run rest cs
  | rest, .getNext :: cs => .getNext (getNext rest).1 :: run (getNext rest).2 cs

end Enumerator

/-! ## The iterator hands out the entries in order -/

namespace PagedIterator

variable {α C κ : Type} [LinearOrder κ]

/-- A namenode that pages the entries `es` correctly, for a client whose cursor `c` the namenode
reads as the key `K c`, and which moves its cursor to `cursorOf` the last entry of a page. -/
structure Pages (request : C → List α × Bool) (cursorOf : α → C) (key : α → κ) (K : C → κ)
    (es : List α) : Prop where
  sorted : Sorted key es
  cursor_key : ∀ e, K (cursorOf e) = key e
  serves : ∀ c, Serves key es (K c) (request c).1 (request c).2

/-- What the iterator still has to hand out: the rest of its page, then what follows its
cursor. -/
def remaining (key : α → κ) (K : C → κ) (es : List α) (it : PagedIterator α C) : List α :=
  it.lists.drop it.next ++ after key es (K it.cursor)

section Refinement

variable {request : C → List α × Bool} {cursorOf : α → C} {key : α → κ} {K : C → κ}
  {es : List α}

/-- A fetch says whether anything follows the cursor, and leaves exactly that to hand out. -/
theorem fetch_spec (hp : Pages request cursorOf key K es) (it : PagedIterator α C) :
    (fetch request cursorOf it).1 = !(after key es (K it.cursor)).isEmpty ∧
      (fetch request cursorOf it).2.next = 0 ∧
      (fetch request cursorOf it).2.lists = (request it.cursor).1 ∧
      remaining key K es (fetch request cursorOf it).2 = after key es (K it.cursor) := by
  have hsv := hp.serves it.cursor
  by_cases hpage : (request it.cursor).1 = []
  · -- an empty page: nothing follows, the cursor stays
    have hafter : after key es (K it.cursor) = [] := by
      by_contra hne
      exact hsv.ne_nil hne hpage
    have hmore : (request it.cursor).2 = false := by
      have := hsv.more_iff
      rw [hpage, hafter] at this
      simpa using this
    simp [fetch, remaining, hpage, hafter, hmore]
  · -- a page: the cursor moves to its last entry, and the page and what follows it are all
    have hafter := hsv.page_append_after hp.sorted hpage
    have hne : after key es (K it.cursor) ≠ [] := hsv.ne_nil_iff.mp hpage
    have hpage' : (request it.cursor).1.isEmpty = false := by simpa using hpage
    have hne' : (after key es (K it.cursor)).isEmpty = false := by simpa using hne
    refine ⟨?_, rfl, rfl, ?_⟩
    · simp [fetch, hpage', hne']
    · simp only [fetch, remaining, List.getLast?_eq_some_getLast hpage, List.drop_zero,
        hp.cursor_key]
      exact hafter

/-- `hasNext` says whether anything is left, and leaves the same to hand out; when it says yes,
the page has an entry at `next`. -/
theorem hasNext_spec (hp : Pages request cursorOf key K es) (it : PagedIterator α C) :
    (hasNext request cursorOf it).1 = !(remaining key K es it).isEmpty ∧
      remaining key K es (hasNext request cursorOf it).2 = remaining key K es it ∧
      ((hasNext request cursorOf it).1 = true →
        (hasNext request cursorOf it).2.next < (hasNext request cursorOf it).2.lists.length) := by
  unfold hasNext
  split_ifs with hused
  · -- the page is used up: what is left is what follows the cursor
    have hdrop : it.lists.drop it.next = [] := List.drop_eq_nil_of_le hused
    have hrem : remaining key K es it = after key es (K it.cursor) := by
      simp [remaining, hdrop]
    obtain ⟨hb, hnext, hlists, hfetch⟩ := fetch_spec hp it
    refine ⟨by rw [hb, hrem], by rw [hfetch, hrem], fun htrue => ?_⟩
    rw [hnext, hlists]
    rw [hb] at htrue
    have hne : after key es (K it.cursor) ≠ [] := by simpa using htrue
    exact List.length_pos_iff.mpr ((hp.serves it.cursor).ne_nil hne)
  · -- entries are left in the page
    have hlt : it.next < it.lists.length := Nat.lt_of_not_le hused
    have hne : it.lists.drop it.next ≠ [] := by simpa using hlt
    refine ⟨?_, rfl, fun _ => hlt⟩
    simp [remaining, hne]

/-- `getNext` hands out the first entry left, or throws when none is. -/
theorem getNext_spec (hp : Pages request cursorOf key K es) (it : PagedIterator α C) :
    (getNext request cursorOf it).1 = (Enumerator.getNext (remaining key K es it)).1 ∧
      remaining key K es (getNext request cursorOf it).2 =
        (Enumerator.getNext (remaining key K es it)).2 := by
  obtain ⟨hb, hrem, hlt⟩ := hasNext_spec hp it
  unfold getNext
  dsimp only
  set r := hasNext request cursorOf it
  cases hr : r.1 with
  | false =>
    -- nothing is left: both throw
    rw [hr] at hb
    have hnil : remaining key K es it = [] := by simpa using hb.symm
    rw [if_neg (by simp), hnil]
    exact ⟨rfl, hrem.trans hnil⟩
  | true =>
    -- the entry at `next` is the first one left
    have hi := hlt hr
    have hcons : remaining key K es r.2 =
        r.2.lists[r.2.next] :: remaining key K es { r.2 with next := r.2.next + 1 } := by
      simp only [remaining, List.drop_eq_getElem_cons hi, List.cons_append]
    rw [if_pos rfl, List.getElem?_eq_getElem hi, ← hrem, hcons]
    exact ⟨rfl, rfl⟩

/-- **The iterator refines the specification.** Every sequence of calls answers as handing out
what the iterator has left, in order. -/
theorem run_eq (hp : Pages request cursorOf key K es) (it : PagedIterator α C)
    (calls : List IteratorCall) :
    run request cursorOf it calls = Enumerator.run (remaining key K es it) calls := by
  induction calls generalizing it with
  | nil => rfl
  | cons c cs ih =>
    cases c with
    | hasNext =>
      obtain ⟨hb, hrem, -⟩ := hasNext_spec hp it
      simp only [run, Enumerator.run, hb, ih, hrem]
    | getNext =>
      obtain ⟨hv, hrem⟩ := getNext_spec hp it
      simp only [run, Enumerator.run, hv, ih, hrem]

/-- `while (it.hasNext()) retval.push_back(it.getNext())` ends with everything left, given more
rounds than entries. -/
theorem listAll_eq (hp : Pages request cursorOf key K es) (fuel : Nat) (it : PagedIterator α C)
    (retval : List α) (hfuel : (remaining key K es it).length < fuel) :
    listAll request cursorOf fuel it retval = .ok (retval ++ remaining key K es it) := by
  induction fuel generalizing it retval with
  | zero => omega
  | succ fuel ih =>
    obtain ⟨hb, hrem, -⟩ := hasNext_spec hp it
    cases hrest : remaining key K es it with
    | nil =>
      rw [hrest] at hb
      simp [listAll, hb]
    | cons e rest =>
      -- one round hands out `e`
      rw [hrest] at hb hrem
      have htrue : (hasNext request cursorOf it).1 = true := by simpa using hb
      obtain ⟨hv, hrem'⟩ := getNext_spec hp (hasNext request cursorOf it).2
      rw [hrem] at hv hrem'
      simp only [Enumerator.getNext] at hv hrem'
      have hok : getNext request cursorOf (hasNext request cursorOf it).2 =
          (.ok e, (getNext request cursorOf (hasNext request cursorOf it).2).2) := Prod.ext hv rfl
      have hlen : (remaining key K es
          (getNext request cursorOf (hasNext request cursorOf it).2).2).length < fuel := by
        rw [hrem']
        rw [hrest] at hfuel
        simpa using hfuel
      rw [listAll]
      simp only [htrue, if_true]
      rw [hok]
      dsimp only
      rw [ih _ _ hlen, hrem', List.append_assoc, List.singleton_append]

end Refinement

end PagedIterator

/-! ## Directories -/

/-- `std::string::find_last_of(c)`: the position of the last `c`. -/
def findLastOf (c : Char) : List Char → Option Nat
  | [] => none
  | x :: xs =>
    match findLastOf c xs with
    | some i => some (i + 1)
    | none => if x = c then some 0 else none

/-- The `startAfter` that `NamenodeImpl::getListing` sends: what follows the last `/`, unless
there is no `/` or it ends the string. -/
def startAfterName (startAfter : List Char) : List Char :=
  match findLastOf '/' startAfter with
  | some pos => if pos ≠ startAfter.length - 1 then startAfter.drop (pos + 1) else startAfter
  | none => startAfter

/-- A directory entry as the client holds it; of its fields the listings read only the path. -/
structure FileStatus where
  path : List Char
  deriving DecidableEq, Repr

/-- `Convert(src, fileStatus, proto)`: the path of an entry is the directory's, a `/`, and the
entry's name. -/
def FileStatus.ofName (src name : List Char) : FileStatus := ⟨src ++ '/' :: name⟩

/-- The namenode's answer to `getListing`: the names of the partial listing, and
`remainingEntries`. -/
structure DirectoryListing where
  partialListing : List (List Char)
  remainingEntries : Nat
  deriving DecidableEq, Repr

/-- `NamenodeImpl::getListing(src, startAfter, needLocation, dl)`: ask after the last component
of `startAfter`, append the entries to `dl`, and say whether more remain. -/
def namenodeGetListing (rpc : List Char → List Char → DirectoryListing) (src startAfter : List Char)
    (dl : List FileStatus) : List FileStatus × Bool :=
  let r := rpc src (startAfterName startAfter)
  (dl ++ r.partialListing.map (FileStatus.ofName src), decide (0 < r.remainingEntries))

namespace DirectoryIterator

variable (rpc : List Char → List Char → DirectoryListing) (path : List Char)

/-- `DirectoryIterator(fs, path, needLocations)`: nothing fetched, `startAfter` empty. -/
def new : PagedIterator FileStatus (List Char) := ⟨0, [], []⟩

/-- What `getListing()` asks: `lists.clear()`, then
`FileSystemImpl::getListing(path, startAfter, needLocations, lists)`. -/
def request (startAfter : List Char) : List FileStatus × Bool :=
  namenodeGetListing rpc path startAfter []

def getListing := PagedIterator.fetch (request rpc path) FileStatus.path

def hasNext := PagedIterator.hasNext (request rpc path) FileStatus.path

def getNext := PagedIterator.getNext (request rpc path) FileStatus.path

end DirectoryIterator

/-- The loop of `FileSystemImpl::listAllDirectoryItems(path, needLocation)`, with at most `fuel`
rounds: `while (getListing(p, startAfter, needLocation, retval)) startAfter =
retval.back().getPath();`. -/
def listAllDirectoryItemsLoop (rpc : List Char → List Char → DirectoryListing) (p : List Char) :
    Nat → List Char → List FileStatus → Except ListingError (List FileStatus)
  | 0, _, _ => .error .outOfFuel
  | fuel + 1, startAfter, retval =>
    let r := namenodeGetListing rpc p startAfter retval
    if r.2 then
      match r.1.getLast? with
      | some last => listAllDirectoryItemsLoop rpc p fuel last.path r.1
      -- `retval.back()` of an empty vector
      | none => .error .outOfRange
    else .ok r.1

def listAllDirectoryItems (rpc : List Char → List Char → DirectoryListing) (p : List Char)
    (fuel : Nat) : Except ListingError (List FileStatus) :=
  listAllDirectoryItemsLoop rpc p fuel [] []

/-! ### Paths back to names -/

theorem findLastOf_eq_none {c : Char} {ys : List Char} (h : c ∉ ys) : findLastOf c ys = none := by
  induction ys with
  | nil => rfl
  | cons y ys ih =>
    have hy : y ≠ c := fun hyc => h (hyc ▸ List.mem_cons_self)
    have hys : c ∉ ys := fun hc => h (List.mem_cons_of_mem y hc)
    simp [findLastOf, ih hys, hy]

theorem findLastOf_append {c : Char} (xs : List Char) {ys : List Char} (h : c ∉ ys) :
    findLastOf c (xs ++ c :: ys) = some xs.length := by
  induction xs with
  | nil => simp [findLastOf, findLastOf_eq_none h]
  | cons x xs ih => simp [findLastOf, ih]

/-- The name of a directory entry: not empty, and without `/`. -/
def ValidName (name : List Char) : Prop := name ≠ [] ∧ '/' ∉ name

/-- The namenode reads the path of an entry back as the entry's name. -/
theorem startAfterName_ofName (src : List Char) {name : List Char} (h : ValidName name) :
    startAfterName (FileStatus.ofName src name).path = name := by
  have hpos := findLastOf_append src h.2
  have hname : name.length ≠ 0 := by simpa using h.1
  have hne : src.length ≠ (src ++ '/' :: name).length - 1 := by
    simp only [List.length_append, List.length_cons]
    omega
  have hdrop : (src ++ '/' :: name).drop (src.length + 1) = name := by
    rw [List.drop_append, List.drop_eq_nil_of_le (by omega), List.nil_append,
      show src.length + 1 - src.length = 1 by omega]
    rfl
  simp only [FileStatus.ofName, startAfterName, hpos, if_pos hne, hdrop]

/-! ### Directory listings are complete -/

/-- A namenode that lists the directory `p` as `names`: valid names in increasing order, served
page by page. -/
structure ListsDirectory (rpc : List Char → List Char → DirectoryListing) (p : List Char)
    (names : List (List Char)) : Prop where
  valid : ∀ n ∈ names, ValidName n
  sorted : Sorted id names
  serves : ∀ n, Serves id names n (rpc p n).partialListing (decide (0 < (rpc p n).remainingEntries))

section Directory

variable {rpc : List Char → List Char → DirectoryListing} {p : List Char}
  {names : List (List Char)}

theorem ListsDirectory.key_ofName (h : ListsDirectory rpc p names) :
    ∀ n ∈ names, (startAfterName ∘ FileStatus.path) (FileStatus.ofName p n) = id n :=
  fun n hn => startAfterName_ofName p (h.valid n hn)

/-- The directory's namenode pages the entries as the iterator reads them. -/
theorem ListsDirectory.pages (h : ListsDirectory rpc p names) :
    PagedIterator.Pages (DirectoryIterator.request rpc p) FileStatus.path
      (startAfterName ∘ FileStatus.path) startAfterName (names.map (FileStatus.ofName p)) where
  sorted := h.sorted.map h.key_ofName
  cursor_key _ := rfl
  serves c := by
    have hsv := (h.serves (startAfterName c)).map h.key_ofName
    simpa [DirectoryIterator.request, namenodeGetListing] using hsv

/-- Every valid name comes after the empty `startAfter`. -/
theorem ListsDirectory.after_empty (h : ListsDirectory rpc p names) :
    after (startAfterName ∘ FileStatus.path) (names.map (FileStatus.ofName p)) (startAfterName []) =
      names.map (FileStatus.ofName p) := by
  rw [after_map h.key_ofName]
  congr 1
  apply List.filter_eq_self.mpr
  intro n hn
  obtain ⟨a, l, rfl⟩ := List.exists_cons_of_ne_nil (h.valid n hn).1
  simp [startAfterName, findLastOf, List.nil_lt_cons]

/-- **Directory listings are complete.** Every sequence of `hasNext`/`getNext` on a new
`DirectoryIterator` answers as handing out the directory's entries in order, each once: `hasNext`
is true exactly while some are left, and `getNext` throws only after the last. -/
theorem directoryIterator_run (h : ListsDirectory rpc p names) (calls : List IteratorCall) :
    PagedIterator.run (DirectoryIterator.request rpc p) FileStatus.path DirectoryIterator.new calls =
      Enumerator.run (names.map (FileStatus.ofName p)) calls := by
  rw [PagedIterator.run_eq h.pages]
  congr 1
  simp [PagedIterator.remaining, DirectoryIterator.new, h.after_empty]

theorem namenodeGetListing_append (src startAfter : List Char) (dl : List FileStatus) :
    namenodeGetListing rpc src startAfter dl =
      (dl ++ (DirectoryIterator.request rpc src startAfter).1,
        (DirectoryIterator.request rpc src startAfter).2) := by
  simp [DirectoryIterator.request, namenodeGetListing]

/-- The loop of `listAllDirectoryItems` ends, given more rounds than entries, with everything
after its cursor. -/
theorem listAllDirectoryItemsLoop_eq {κ : Type} [LinearOrder κ] {key : FileStatus → κ}
    {K : List Char → κ} {es : List FileStatus}
    (hp : PagedIterator.Pages (DirectoryIterator.request rpc p) FileStatus.path key K es)
    (fuel : Nat) (startAfter : List Char) (retval : List FileStatus)
    (hfuel : (after key es (K startAfter)).length < fuel) :
    listAllDirectoryItemsLoop rpc p fuel startAfter retval =
      .ok (retval ++ after key es (K startAfter)) := by
  induction fuel generalizing startAfter retval with
  | zero => omega
  | succ fuel ih =>
    have hsv := hp.serves startAfter
    rw [listAllDirectoryItemsLoop, namenodeGetListing_append]
    cases hmore : (DirectoryIterator.request rpc p startAfter).2 with
    | false =>
      -- the last page: it holds everything left
      rw [hmore] at hsv
      simp only [Bool.false_eq_true, if_false]
      rw [← hsv.eq_after_of_false]
    | true =>
      -- more to come: ask again after the page's last entry
      rw [hmore] at hsv
      have hne := hsv.ne_nil_of_more
      have hnext := hsv.page_append_after hp.sorted hne
      have hlast : (retval ++ (DirectoryIterator.request rpc p startAfter).1).getLast? =
          some ((DirectoryIterator.request rpc p startAfter).1.getLast hne) := by
        rw [List.getLast?_append, List.getLast?_eq_some_getLast hne]
        rfl
      have hlen : (after key es (K ((DirectoryIterator.request rpc p startAfter).1.getLast
          hne).path)).length < fuel := by
        rw [hp.cursor_key]
        have hpos := List.length_pos_iff.mpr hne
        have hsum := congrArg List.length hnext
        rw [List.length_append] at hsum
        omega
      simp only [if_true, hlast]
      rw [ih _ _ hlen, hp.cursor_key, List.append_assoc, hnext]

/-- `listAllDirectoryItems` ends, given more rounds than entries, with every entry in order. -/
theorem listAllDirectoryItems_eq (h : ListsDirectory rpc p names) (fuel : Nat)
    (hfuel : names.length < fuel) :
    listAllDirectoryItems rpc p fuel = .ok (names.map (FileStatus.ofName p)) := by
  have hloop := listAllDirectoryItemsLoop_eq h.pages fuel [] []
    (by rw [h.after_empty]; simpa using hfuel)
  rw [h.after_empty, List.nil_append] at hloop
  exact hloop

/-- **Directory listings are complete.** For a namenode that lists the directory page by page,
every sequence of `hasNext`/`getNext` on a new `DirectoryIterator` answers as handing out the
directory's entries in order, each once; and `listAllDirectoryItems`, given more rounds than
entries, returns them all, in order. -/
theorem listsDirectory_complete (h : ListsDirectory rpc p names) (fuel : Nat)
    (hfuel : names.length < fuel) :
    (∀ calls, PagedIterator.run (DirectoryIterator.request rpc p) FileStatus.path
        DirectoryIterator.new calls = Enumerator.run (names.map (FileStatus.ofName p)) calls) ∧
      listAllDirectoryItems rpc p fuel = .ok (names.map (FileStatus.ofName p)) :=
  ⟨directoryIterator_run h, listAllDirectoryItems_eq h fuel hfuel⟩

end Directory

/-- A namenode that lists `names` one entry at a time. -/
def listsOneByOne (names : List (List Char)) (_src startAfter : List Char) : DirectoryListing :=
  ⟨(after id names startAfter).take 1, (after id names startAfter).length - 1⟩

theorem listsDirectory_listsOneByOne {names : List (List Char)} (hvalid : ∀ n ∈ names, ValidName n)
    (hsorted : Sorted id names) (p : List Char) : ListsDirectory (listsOneByOne names) p names where
  valid := hvalid
  sorted := hsorted
  serves n := by
    have hsv : Serves id names n ((after id names n).take 1)
        (decide (1 < (after id names n).length)) := serves_take names n Nat.one_pos
    have hmore : decide (0 < (after id names n).length - 1) = decide (1 < (after id names n).length) := by
      simp only [decide_eq_decide]
      omega
    rw [listsOneByOne, hmore]
    exact hsv

/-- The directory `/d` holding `a` and `b`, listed one entry at a time, in three rounds. -/
theorem listsDirectory_complete_one_by_one :
    (∀ n ∈ [['a'], ['b']], ValidName n) ∧ Sorted id [['a'], ['b']] ∧
      (∀ calls, PagedIterator.run (DirectoryIterator.request (listsOneByOne [['a'], ['b']]) ['/', 'd'])
          FileStatus.path DirectoryIterator.new calls =
        Enumerator.run ([['a'], ['b']].map (FileStatus.ofName ['/', 'd'])) calls) ∧
      listAllDirectoryItems (listsOneByOne [['a'], ['b']]) ['/', 'd'] 3 =
        .ok ([['a'], ['b']].map (FileStatus.ofName ['/', 'd'])) := by
  have hvalid : ∀ n ∈ [['a'], ['b']], ValidName n := by simp [ValidName]
  have hsorted : Sorted id [['a'], ['b']] := by
    unfold Sorted
    decide
  exact ⟨hvalid, hsorted,
    listsDirectory_complete (listsDirectory_listsOneByOne hvalid hsorted ['/', 'd']) 3 (by decide)⟩

/-! ## Encryption zones -/

/-- An encryption zone as the client holds it; of its fields the listings read only the id. -/
structure EncryptionZoneInfo where
  id : Int
  deriving DecidableEq, Repr

/-- The namenode's answer to `listEncryptionZones`: the zones and `hasMore`. -/
structure EncryptionZoneListing where
  zones : List EncryptionZoneInfo
  hasMore : Bool
  deriving DecidableEq, Repr

/-- `NamenodeImpl::listEncryptionZones(id, ezl)`: with zones in the answer, append them and
return `hasMore`; with none, the function runs off its end, and its caller gets the unspecified
value `unspecified`. -/
def namenodeListEncryptionZones (rpc : Int → EncryptionZoneListing) (unspecified : Bool)
    (id : Int) (ezl : List EncryptionZoneInfo) : List EncryptionZoneInfo × Bool :=
  let r := rpc id
  if r.zones.length ≠ 0 then (ezl ++ r.zones, r.hasMore) else (ezl, unspecified)

namespace EncryptionZoneIterator

variable (rpc : Int → EncryptionZoneListing) (unspecified : Bool)

/-- `FileSystemImpl::listEncryptionZone()`: `EncryptionZoneIterator(this, 0)`. -/
def new : PagedIterator EncryptionZoneInfo Int := ⟨0, [], 0⟩

/-- What `listEncryptionZones()` asks: `lists.clear()`, then
`FileSystemImpl::listEncryptionZones(id, lists)`. -/
def request (id : Int) : List EncryptionZoneInfo × Bool :=
  namenodeListEncryptionZones rpc unspecified id []

def listEncryptionZones := PagedIterator.fetch (request rpc unspecified) EncryptionZoneInfo.id

def hasNext := PagedIterator.hasNext (request rpc unspecified) EncryptionZoneInfo.id

def getNext := PagedIterator.getNext (request rpc unspecified) EncryptionZoneInfo.id

end EncryptionZoneIterator

/-- `FileSystemImpl::listAllEncryptionZoneItems()`, with at most `fuel` rounds. -/
def listAllEncryptionZoneItems (rpc : Int → EncryptionZoneListing) (unspecified : Bool)
    (fuel : Nat) : Except ListingError (List EncryptionZoneInfo) :=
  PagedIterator.listAll (EncryptionZoneIterator.request rpc unspecified) EncryptionZoneInfo.id fuel
    EncryptionZoneIterator.new []

/-- A namenode that lists the zones `zones`: positive ids in increasing order, served page by
page. -/
structure ListsZones (rpc : Int → EncryptionZoneListing) (zones : List EncryptionZoneInfo) :
    Prop where
  pos : ∀ z ∈ zones, 0 < z.id
  sorted : Sorted EncryptionZoneInfo.id zones
  serves : ∀ c, Serves EncryptionZoneInfo.id zones c (rpc c).zones (rpc c).hasMore

section Zones

variable {rpc : Int → EncryptionZoneListing} {zones : List EncryptionZoneInfo}

/-- Taking the missing `return` as `false`, the namenode pages the zones as the iterator reads
them. -/
theorem ListsZones.pages (h : ListsZones rpc zones) :
    PagedIterator.Pages (EncryptionZoneIterator.request rpc false) EncryptionZoneInfo.id
      EncryptionZoneInfo.id id zones where
  sorted := h.sorted
  cursor_key _ := rfl
  serves c := by
    have hsv := h.serves c
    by_cases hz : (rpc c).zones = []
    · -- no zones after `c`: `false` is the answer a `return` would have to give
      have hafter : after EncryptionZoneInfo.id zones c = [] := by
        by_contra hne
        exact hsv.ne_nil hne hz
      simp only [EncryptionZoneIterator.request, namenodeListEncryptionZones, hz, List.length_nil,
        ne_eq, not_true_eq_false, if_false, id]
      exact ⟨⟨0, rfl⟩, fun hne => absurd hafter hne, by simp [hafter]⟩
    · have hlen : (rpc c).zones.length ≠ 0 := by simpa using hz
      simpa [EncryptionZoneIterator.request, namenodeListEncryptionZones, hlen] using hsv

theorem ListsZones.after_zero (h : ListsZones rpc zones) :
    after EncryptionZoneInfo.id zones 0 = zones :=
  List.filter_eq_self.mpr fun z hz => by simpa using h.pos z hz

/-- Taking the missing `return` as `false`, every sequence of `hasNext`/`getNext` on a new
`EncryptionZoneIterator` answers as handing out the zones in order, each once. -/
theorem encryptionZoneIterator_run (h : ListsZones rpc zones) (calls : List IteratorCall) :
    PagedIterator.run (EncryptionZoneIterator.request rpc false) EncryptionZoneInfo.id
      EncryptionZoneIterator.new calls = Enumerator.run zones calls := by
  rw [PagedIterator.run_eq h.pages]
  congr 1
  simp [PagedIterator.remaining, EncryptionZoneIterator.new, h.after_zero]

/-- Taking the missing `return` as `false`, `listAllEncryptionZoneItems` ends, given more rounds
than zones, with every zone in order. -/
theorem listAllEncryptionZoneItems_eq (h : ListsZones rpc zones) (fuel : Nat)
    (hfuel : zones.length < fuel) : listAllEncryptionZoneItems rpc false fuel = .ok zones := by
  have hrem : PagedIterator.remaining EncryptionZoneInfo.id id zones EncryptionZoneIterator.new =
      zones := by
    simp [PagedIterator.remaining, EncryptionZoneIterator.new, h.after_zero]
  have := PagedIterator.listAll_eq h.pages fuel EncryptionZoneIterator.new [] (by rw [hrem]; exact hfuel)
  rw [hrem, List.nil_append] at this
  exact this

end Zones

/-- A namenode that lists `zones` one zone at a time. -/
def zonesOneByOne (zones : List EncryptionZoneInfo) (id : Int) : EncryptionZoneListing :=
  ⟨(after EncryptionZoneInfo.id zones id).take 1,
    decide (1 < (after EncryptionZoneInfo.id zones id).length)⟩

theorem listsZones_zonesOneByOne {zones : List EncryptionZoneInfo} (hpos : ∀ z ∈ zones, 0 < z.id)
    (hsorted : Sorted EncryptionZoneInfo.id zones) : ListsZones (zonesOneByOne zones) zones where
  pos := hpos
  sorted := hsorted
  serves c := serves_take zones c Nat.one_pos

/-- With no zones at all and the missing `return` of `NamenodeImpl::listEncryptionZones` giving
true, `hasNext` says there is a zone, `getNext` reads past the empty page, and so does
`listAllEncryptionZoneItems`. -/
theorem listEncryptionZones_unspecified_return :
    let rpc : Int → EncryptionZoneListing := fun _ => ⟨[], false⟩
    (EncryptionZoneIterator.hasNext rpc true EncryptionZoneIterator.new).1 = true ∧
      (EncryptionZoneIterator.getNext rpc true EncryptionZoneIterator.new).1 = .error .outOfRange ∧
      listAllEncryptionZoneItems rpc true 1 = .error .outOfRange :=
  ⟨rfl, rfl, rfl⟩

end HdfsClient
