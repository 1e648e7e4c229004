import HdfsClient.Lib.Machine
import Mathlib.Logic.Function.Basic

/-!
# The lease renewer

`LeaseRenewerImpl` (`client/LeaseRenewer.cpp`) keeps the filesystems with open output streams in
`maps`, keyed by client name, and runs a worker thread that renews their leases every `interval`
milliseconds. Each filesystem counts its open output streams in `openedOutputStream`, under the
renewer's lock.

The model is a machine (`Machine.run`) whose atomic steps are the locked bodies of `StartRenew`
and `StopRenew`, one locked iteration of the worker's loop (with what `renewLease` meets for each
filesystem), and the worker's last, unlocked store `stop = true`. A filesystem is its client name.

* `run_wellFormed` — every run keeps `stop` set exactly while no worker thread is alive, and one entry a
  client name.
* `run_registered` — over runs in which no renewal RPC fails, a filesystem with open streams is
  always in `maps`.
* `leaseRenewer_loses_open_filesystem` — neither that nor "`maps` non-empty implies a running
  worker" holds in general: one failed RPC drops a filesystem with an open stream, and a
  `StartRenew` between the worker's decision to exit and its store of `stop` leaves `maps`
  non-empty with no worker and none started.
-/

namespace HdfsClient

/-! ## Filesystems -/

/-- What `FileSystemImpl::renewLease` meets in one call. -/
inductive RenewOutcome
  /-- The namenode renewed the lease. -/
  | renewed
  /-- The renewal RPC threw; `renewLease` logs it and returns false. -/
  | rpcFailed
  /-- `nn` is unset: `renewLease` throws `HdfsIOException`, "FileSystemImpl: not connected." -/
  | notConnected
  deriving DecidableEq, Repr

/-- `FileSystemImpl::renewLease` of a filesystem with `opened` open output streams: what it
returns, or `none` when it throws. -/
def renewLease (opened : Nat) : RenewOutcome → Option Bool
  | .notConnected => none
  | .renewed => some (opened != 0)
  | .rpcFailed => some false

/-- `FileSystemImpl::registerOpenedOutputStream`. -/
def registerOpenedOutputStream (opened : Nat) : Nat := opened + 1

/-- `FileSystemImpl::unregisterOpenedOutputStream`: the new count, and whether it is zero. -/
def unregisterOpenedOutputStream (opened : Nat) : Nat × Bool :=
  let opened := if 0 < opened then opened - 1 else opened
  (opened, opened == 0)

/-- Whether the worker keeps a filesystem after calling its `renewLease`: it erases it when the
call returns false, and keeps it when the call returns true or throws an `HdfsException`. -/
def keepsAfterRenew (opened : Nat) (o : RenewOutcome) : Bool :=
  renewLease opened o != some false

/-! ## The renewer -/

/-- The worker thread: none alive, in its loop, or out of its loop but not yet past its store of
`stop = true`. -/
inductive Worker
  | idle
  | running
  | exiting
  deriving DecidableEq, Repr

/-- The renewer and the counters it guards: `stop`, the client names in `maps` (the order of
`std::map` is not modelled: nothing depends on it), the worker, and `openedOutputStream` of every
filesystem. -/
structure LeaseRenewerImpl (F : Type) where
  stop : Bool
  maps : List F
  worker : Worker
  opened : F → Nat

/-- The events of the machine. -/
inductive LeaseEvent (F : Type)
  | startRenew (fs : F)
  | stopRenew (fs : F)
  /-- One iteration of the worker's locked loop body, with what each `renewLease` meets. -/
  | renew (answer : F → RenewOutcome)
  /-- The worker's store `stop = true` after its loop, outside the lock. -/
  | exitWorker

/-- No renewal RPC of the event fails. -/
def LeaseEvent.NoRpcFailure {F : Type} : LeaseEvent F → Prop
  | .renew answer => ∀ fs, answer fs ≠ .rpcFailed
  | _ => True

namespace LeaseRenewerImpl

variable {F : Type} [DecidableEq F]

/-- The constructor: `stop` set, nothing registered, no worker. -/
def init : LeaseRenewerImpl F := ⟨true, [], .idle, fun _ => 0⟩

/-- `StartRenew(filesystem)`: register the filesystem and one more stream; start a worker when
`stop` is set and `maps` is non-empty (joining the old one first). -/
def startRenew (s : LeaseRenewerImpl F) (fs : F) : LeaseRenewerImpl F :=
  let maps := if fs ∈ s.maps then s.maps else s.maps ++ [fs]
  let opened := Function.update s.opened fs (registerOpenedOutputStream (s.opened fs))
  if s.stop = true ∧ maps ≠ [] then
    { s with maps := maps, opened := opened, stop := false, worker := .running }
  else { s with maps := maps, opened := opened }

/-- `StopRenew(filesystem)`: one stream fewer; erase the filesystem when it has none left. -/
def stopRenew (s : LeaseRenewerImpl F) (fs : F) : LeaseRenewerImpl F :=
  let r := unregisterOpenedOutputStream (s.opened fs)
  let s := { s with opened := Function.update s.opened fs r.1 }
  if r.2 = true ∧ fs ∈ s.maps then { s with maps := s.maps.erase fs } else s

/-- One locked iteration of `renewer()`'s loop: leave when `stop` is set or `maps` is empty;
otherwise renew every lease, erase the filesystems whose `renewLease` returned false, and leave
when none is left. -/
def renewerIteration (s : LeaseRenewerImpl F) (answer : F → RenewOutcome) : LeaseRenewerImpl F :=
  if s.stop = true ∨ s.maps = [] then { s with worker := .exiting }
  else
    let maps := s.maps.filter fun fs => keepsAfterRenew (s.opened fs) (answer fs)
    { s with maps := maps, worker := if maps = [] then .exiting else .running }

/-- One atomic step. The worker's steps happen only while it is in the matching phase. -/
def step (s : LeaseRenewerImpl F) : LeaseEvent F → Option (LeaseRenewerImpl F)
  | .startRenew fs => some (s.startRenew fs)
  | .stopRenew fs => some (s.stopRenew fs)
  | .renew answer => if s.worker = .running then some (s.renewerIteration answer) else none
  | .exitWorker => if s.worker = .exiting then some { s with stop := true, worker := .idle } else none

/-! ## The steps, field by field -/

/-- `maps` after `StartRenew` holds the filesystem, whatever else happens. -/
theorem startRenew_maps_ne_nil (s : LeaseRenewerImpl F) (fs : F) :
    (if fs ∈ s.maps then s.maps else s.maps ++ [fs]) ≠ [] := by
  split_ifs with hin
  · exact List.ne_nil_of_mem hin
  · simp

@[simp] theorem startRenew_maps (s : LeaseRenewerImpl F) (fs : F) :
    (s.startRenew fs).maps = if fs ∈ s.maps then s.maps else s.maps ++ [fs] := by
  unfold LeaseRenewerImpl.startRenew
  dsimp only
  split_ifs <;> rfl

@[simp] theorem startRenew_opened (s : LeaseRenewerImpl F) (fs : F) :
    (s.startRenew fs).opened =
      Function.update s.opened fs (registerOpenedOutputStream (s.opened fs)) := by
  unfold LeaseRenewerImpl.startRenew
  dsimp only
  split_ifs <;> rfl

/-- After `StartRenew`, `stop` is clear: either it was, or a worker was started. -/
@[simp] theorem startRenew_stop (s : LeaseRenewerImpl F) (fs : F) : (s.startRenew fs).stop = false := by
  unfold LeaseRenewerImpl.startRenew
  dsimp only
  by_cases hstop : s.stop = true
  · rw [if_pos ⟨hstop, startRenew_maps_ne_nil s fs⟩]
  · rw [if_neg fun h => hstop h.1]
    simpa using hstop

@[simp] theorem startRenew_worker (s : LeaseRenewerImpl F) (fs : F) :
    (s.startRenew fs).worker = if s.stop = true then .running else s.worker := by
  unfold LeaseRenewerImpl.startRenew
  dsimp only
  by_cases hstop : s.stop = true
  · rw [if_pos ⟨hstop, startRenew_maps_ne_nil s fs⟩, if_pos hstop]
  · rw [if_neg fun h => hstop h.1, if_neg hstop]

@[simp] theorem stopRenew_stop (s : LeaseRenewerImpl F) (fs : F) :
    (s.stopRenew fs).stop = s.stop := by
  unfold LeaseRenewerImpl.stopRenew
  dsimp only
  split_ifs <;> rfl

@[simp] theorem stopRenew_worker (s : LeaseRenewerImpl F) (fs : F) :
    (s.stopRenew fs).worker = s.worker := by
  unfold LeaseRenewerImpl.stopRenew
  dsimp only
  split_ifs <;> rfl

@[simp] theorem stopRenew_opened (s : LeaseRenewerImpl F) (fs : F) :
    (s.stopRenew fs).opened =
      Function.update s.opened fs (unregisterOpenedOutputStream (s.opened fs)).1 := by
  unfold LeaseRenewerImpl.stopRenew
  dsimp only
  split_ifs <;> rfl

@[simp] theorem stopRenew_maps (s : LeaseRenewerImpl F) (fs : F) :
    (s.stopRenew fs).maps =
      if (unregisterOpenedOutputStream (s.opened fs)).2 = true ∧ fs ∈ s.maps then s.maps.erase fs
      else s.maps := by
  unfold LeaseRenewerImpl.stopRenew
  dsimp only
  split_ifs <;> rfl

/-! ## What every run keeps -/

/-- `stop` is set exactly when no worker thread is alive, and `maps` has one entry a client
name. -/
structure Wf (s : LeaseRenewerImpl F) : Prop where
  stop_iff : s.stop = true ↔ s.worker = .idle
  nodup : s.maps.Nodup

omit [DecidableEq F] in
theorem init_wf : (init : LeaseRenewerImpl F).Wf := ⟨⟨fun _ => rfl, fun _ => rfl⟩, List.nodup_nil⟩

theorem nodup_startRenew_maps {l : List F} (h : l.Nodup) (fs : F) :
    (if fs ∈ l then l else l ++ [fs]).Nodup := by
  split_ifs with hfs
  · exact h
  · refine List.nodup_append.mpr ⟨h, by simp, ?_⟩
    intro a ha b hb
    rw [List.mem_singleton] at hb
    subst hb
    exact fun hab => hfs (hab ▸ ha)

theorem Wf.startRenew {s : LeaseRenewerImpl F} (h : s.Wf) (fs : F) : (s.startRenew fs).Wf := by
  refine ⟨?_, by simpa using nodup_startRenew_maps h.nodup fs⟩
  rw [startRenew_stop, startRenew_worker]
  by_cases hstop : s.stop = true
  · simp [hstop]
  · rw [if_neg hstop, ← h.stop_iff]
    simpa using hstop

theorem Wf.stopRenew {s : LeaseRenewerImpl F} (h : s.Wf) (fs : F) : (s.stopRenew fs).Wf := by
  refine ⟨by simpa using h.stop_iff, ?_⟩
  rw [stopRenew_maps]
  split_ifs
  · exact h.nodup.erase fs
  · exact h.nodup

omit [DecidableEq F] in
/-- The worker's iteration keeps `stop` clear: it only runs while it is alive. -/
theorem Wf.renewerIteration {s : LeaseRenewerImpl F} (h : s.Wf) (hrun : s.worker = .running)
    (answer : F → RenewOutcome) : (s.renewerIteration answer).Wf := by
  have hstop : s.stop = false := by
    cases hs : s.stop
    · rfl
    · rw [h.stop_iff.mp hs] at hrun
      cases hrun
  unfold LeaseRenewerImpl.renewerIteration
  dsimp only
  -- leaving or staying, the worker is alive and `stop` stays clear
  split_ifs with hleave hempty
  · exact ⟨by simp [hstop], h.nodup⟩
  · exact ⟨by simp [hstop], h.nodup.filter _⟩
  · exact ⟨by simp [hstop], h.nodup.filter _⟩

theorem Wf.step {s s' : LeaseRenewerImpl F} {e : LeaseEvent F} (h : s.Wf)
    (hs : s.step e = some s') : s'.Wf := by
  cases e with
  | startRenew fs =>
    cases hs
    exact h.startRenew fs
  | stopRenew fs =>
    cases hs
    exact h.stopRenew fs
  | renew answer =>
    simp only [LeaseRenewerImpl.step] at hs
    split_ifs at hs with hrun
    cases hs
    exact h.renewerIteration hrun answer
  | exitWorker =>
    simp only [LeaseRenewerImpl.step] at hs
    split_ifs at hs
    cases hs
    exact ⟨by simp, h.nodup⟩

/-- Two filesystems open a stream each, with renewals between; the first closes its stream. -/
def openTwoCloseOne : List (LeaseEvent Nat) :=
  [.startRenew 0, .renew fun _ => .renewed, .startRenew 1, .stopRenew 0, .renew fun _ => .renewed]

/-- Every filesystem with an open output stream is in `maps`. -/
def Registered (s : LeaseRenewerImpl F) : Prop := ∀ fs, 0 < s.opened fs → fs ∈ s.maps

theorem keepsAfterRenew_of_pos {n : Nat} {o : RenewOutcome} (hn : 0 < n) (ho : o ≠ .rpcFailed) :
    keepsAfterRenew n o = true := by
  cases o with
  | renewed =>
    have : n ≠ 0 := Nat.pos_iff_ne_zero.mp hn
    simp [keepsAfterRenew, renewLease, this]
  | rpcFailed => exact absurd rfl ho
  | notConnected => rfl

omit [DecidableEq F] in
theorem init_registered : (init : LeaseRenewerImpl F).Registered :=
  fun _ h => absurd h (Nat.lt_irrefl 0)

theorem Registered.startRenew {s : LeaseRenewerImpl F} (h : s.Registered) (fs : F) :
    (s.startRenew fs).Registered := by
  intro g hg
  rw [startRenew_opened] at hg
  rw [startRenew_maps]
  by_cases hgf : g = fs
  · -- the filesystem itself is put in `maps`
    subst hgf
    split_ifs with hin
    · exact hin
    · simp
  · rw [Function.update_of_ne hgf] at hg
    have hmem := h g hg
    split_ifs
    · exact hmem
    · simp [hmem]

theorem Registered.stopRenew {s : LeaseRenewerImpl F} (h : s.Registered) (fs : F) :
    (s.stopRenew fs).Registered := by
  intro g hg
  rw [stopRenew_opened] at hg
  rw [stopRenew_maps]
  by_cases hgf : g = fs
  · -- the filesystem is erased only when it has no stream left
    subst hgf
    rw [Function.update_self] at hg
    have hpos : 0 < s.opened g := by
      simp only [unregisterOpenedOutputStream] at hg
      split_ifs at hg <;> omega
    have hleft : (unregisterOpenedOutputStream (s.opened g)).2 = false := by
      simp only [unregisterOpenedOutputStream, beq_eq_false_iff_ne] at hg ⊢
      omega
    rw [if_neg (by simp [hleft])]
    exact h g hpos
  · rw [Function.update_of_ne hgf] at hg
    split_ifs
    · exact (List.mem_erase_of_ne hgf).mpr (h g hg)
    · exact h g hg

omit [DecidableEq F] in
theorem Registered.renewerIteration {s : LeaseRenewerImpl F} (h : s.Registered)
    {answer : F → RenewOutcome} (hans : ∀ fs, answer fs ≠ .rpcFailed) :
    (s.renewerIteration answer).Registered := by
  unfold LeaseRenewerImpl.renewerIteration
  split_ifs
  · exact h
  · intro g hg
    exact List.mem_filter.mpr ⟨h g hg, keepsAfterRenew_of_pos hg (hans g)⟩

theorem Registered.step {s s' : LeaseRenewerImpl F} {e : LeaseEvent F} (h : s.Registered)
    (he : e.NoRpcFailure) (hs : s.step e = some s') : s'.Registered := by
  cases e with
  | startRenew fs =>
    cases hs
    exact h.startRenew fs
  | stopRenew fs =>
    cases hs
    exact h.stopRenew fs
  | renew answer =>
    simp only [LeaseRenewerImpl.step] at hs
    split_ifs at hs
    cases hs
    exact h.renewerIteration he
  | exitWorker =>
    simp only [LeaseRenewerImpl.step] at hs
    split_ifs at hs
    cases hs
    exact h

/-- Over runs in which no renewal RPC fails, every filesystem with an open stream is in `maps`
after every step. -/
theorem run_registered {s : LeaseRenewerImpl F} {es : List (LeaseEvent F)}
    (hes : ∀ e ∈ es, e.NoRpcFailure) (h : Machine.run step init es = some s) : s.Registered :=
  Machine.run_inv_of Registered LeaseEvent.NoRpcFailure (fun _ _ _ hs he hstep => hs.step he hstep)
    init_registered hes h

theorem run_registered_after_renewals :
    ∃ s, Machine.run step (init : LeaseRenewerImpl Nat) openTwoCloseOne = some s ∧ s.Registered :=
  ⟨_, rfl, @run_registered Nat _ _ openTwoCloseOne
    (by simp [openTwoCloseOne, LeaseEvent.NoRpcFailure]) rfl⟩

/-! ## Two runs that break the renewal -/

/-- Filesystem `0` opens a stream and its renewal RPC fails once: the worker erases it while the
stream is open, and leaves. Filesystem `0` opens a stream and closes it, the worker decides to
leave, filesystem `1` opens a stream before the worker stores `stop = true`: then `maps` holds
`1`, `stop` is set, no worker is alive, and none renews any lease. -/
theorem leaseRenewer_loses_open_filesystem :
    (∃ s, Machine.run step (init : LeaseRenewerImpl Nat)
        [.startRenew 0, .renew fun _ => .rpcFailed] = some s ∧
      0 < s.opened 0 ∧ 0 ∉ s.maps) ∧
    (∃ s, Machine.run step (init : LeaseRenewerImpl Nat)
        [.startRenew 0, .stopRenew 0, .renew fun _ => .renewed, .startRenew 1, .exitWorker] =
          some s ∧
      0 < s.opened 1 ∧ s.maps = [1] ∧ s.stop = true ∧ ∀ answer, s.step (.renew answer) = none) :=
  ⟨⟨_, rfl, by decide, by decide⟩, ⟨_, rfl, by decide, rfl, rfl, fun _ => rfl⟩⟩

end LeaseRenewerImpl

end HdfsClient
