import HdfsClient.Lib.Machine
import HdfsClient.Client.FileSystemPath
import Mathlib.Logic.Function.Basic

/-!
# Namenode failover

`NamenodeProxy` (`server/NamenodeProxy.cpp`) forwards each call to one namenode of a cluster,
`namenodes[currentNamenode % namenodes.size()]`. Every call is wrapped in `NAMENODE_HA_RETRY_BEGIN`
and `NAMENODE_HA_RETRY_END`: when the namenode answers that it is a standby, or the RPC layer asks
to fail over, the caller moves `currentNamenode` on with `failoverToNextNamenode(oldValue)`, which
does nothing when another thread has moved it from the value this caller saw, and tries again,
until `__count` passes `maxNamenodeHARetry`. `close()` empties the namenodes.

The model is a machine (`Machine.run`) over the proxy and the phase of each thread in its current
call. Its atomic steps are the locked bodies of `getActiveNamenode`, `failoverToNextNamenode` and
`close`, the start of a call, and the end of one attempt, whose outcome is the event's argument:
every interleaving of the callers and `close` is a list of events.

* `new_spec` — the constructor: HA exactly when there is not one namenode, and `currentNamenode`
  an index of one.
* `run_ha_safe` — in every interleaving, each call makes at most `maxAttempts` attempts
  (`run_attempts_le`): one without HA, `maxNamenodeHARetry + 2` with it; and without `close`, no
  step evaluates `x % 0` (`run_no_divisionByZero`).
* `failover_group_advances_once` — the failovers of callers that all saw the same
  `currentNamenode` move it one position on.
* `failover_after_close_divides_by_zero` — a `close` between a failed attempt and its failover
  makes `failoverToNextNamenode` evaluate `x % namenodes.size()` with no namenodes.
-/

namespace HdfsClient

/-! ## The proxy -/

/-- What a call of the proxy throws. -/
inductive NamenodeProxyError
  /-- `InvalidParameter`, "Cannot create namenode proxy, %s does not contain host or port", for
  the address `rpcAddr`. -/
  | invalidParameter (rpcAddr : String)
  /-- `HdfsFileSystemClosed`, "NamenodeProxy is closed." -/
  | fileSystemClosed
  /-- The namenode's `NameNodeStandbyException`, rethrown. -/
  | nameNodeStandby
  /-- `HdfsRpcException`, as which `HandleHdfsFailoverException` rethrows an
  `HdfsFailoverException`. -/
  | rpc
  /-- Any other exception of the namenode's method, let through. -/
  | other
  /-- Not an exception: the source evaluates `x % 0`, whose behaviour is undefined. -/
  | divisionByZero
  deriving DecidableEq, Repr

/-- `StringSplit(str, sep)` on `std::string`s: the tokens `strtok_r` hands over from the string's
characters (`FileSystemImpl.StringSplit`), each made a string again. -/
def StringSplit (str sep : String) : List String :=
  (FileSystemImpl.StringSplit str.toList sep.toList).map String.ofList

/-- A `NamenodeProxy`: whether HA is enabled, `maxNamenodeHARetry`, the host and port of each
namenode (none once closed), and `currentNamenode`. The cluster id only names the file that
`GetInitNamenodeIndex` reads and `SetInitNamenodeIndex` writes. -/
structure NamenodeProxy where
  enableNamenodeHA : Bool
  maxNamenodeHARetry : Int32
  namenodes : List (String × String)
  currentNamenode : UInt32
  deriving DecidableEq, Repr

namespace NamenodeProxy

/-- The host and port of one namenode's `getRpcAddr()`, which must split at `:` into exactly two
pieces. -/
def parseRpcAddr (rpcAddr : String) : Except NamenodeProxyError (String × String) :=
  match StringSplit rpcAddr ":" with
  | [host, port] => .ok (host, port)
  | _ => .error (.invalidParameter rpcAddr)

/-- `NamenodeProxy(namenodeInfos, tokenService, c, a)`, over the namenodes' RPC addresses,
`c.getRpcMaxHaRetry()`, and the index `GetInitNamenodeIndex(clusterid)` reads from its file. -/
def new (namenodeInfos : List String) (rpcMaxHaRetry : Int32) (initIndex : UInt32) :
    Except NamenodeProxyError NamenodeProxy :=
  (namenodeInfos.mapM parseRpcAddr).bind fun namenodes =>
    if namenodeInfos.length = 1 then .ok ⟨false, 0, namenodes, 0⟩
    else if namenodeInfos.length = 0 then .error .divisionByZero
    else .ok ⟨true, rpcMaxHaRetry, namenodes,
      UInt32.ofNat (initIndex.toNat % namenodeInfos.length)⟩

/-- `getActiveNamenode(oldValue)`: the namenode at `currentNamenode`, and `currentNamenode` as
`oldValue`. -/
def getActiveNamenode (p : NamenodeProxy) :
    Except NamenodeProxyError ((String × String) × UInt32) :=
  if h : p.namenodes = [] then .error .fileSystemClosed
  else .ok (p.namenodes.get ⟨p.currentNamenode.toNat % p.namenodes.length,
    Nat.mod_lt _ (List.length_pos_of_ne_nil h)⟩, p.currentNamenode)

/-- `failoverToNextNamenode(oldValue)`: nothing when `currentNamenode` has moved from `oldValue`;
otherwise `++currentNamenode`, which wraps at `2 ^ 32`, taken modulo the number of namenodes.
(`SetInitNamenodeIndex` also stores the new value in the file for later proxies.) -/
def failoverToNextNamenode (p : NamenodeProxy) (oldValue : UInt32) :
    Except NamenodeProxyError NamenodeProxy :=
  if oldValue ≠ p.currentNamenode then .ok p
  else if p.namenodes.length = 0 then .error .divisionByZero
  else .ok { p with
    currentNamenode := UInt32.ofNat ((p.currentNamenode + 1).toNat % p.namenodes.length) }

/-- `close()`. -/
def close (p : NamenodeProxy) : NamenodeProxy := { p with namenodes := [] }

/-- The most attempts one call makes: one without HA, `maxNamenodeHARetry + 2` with it. -/
def maxAttempts (p : NamenodeProxy) : Nat :=
  if p.enableNamenodeHA then p.maxNamenodeHARetry.toInt.toNat + 2 else 1

end NamenodeProxy

/-! ## Callers -/

/-- What the namenode's method does in one attempt. -/
inductive CallOutcome
  | success
  /-- Throws `NameNodeStandbyException`. -/
  | standby
  /-- Throws `HdfsFailoverException`. -/
  | failover
  /-- Throws any other exception. -/
  | other
  deriving DecidableEq, Repr

/-- Where a thread is in a call of the proxy, with the call's `__count` and, after
`getActiveNamenode`, its `__oldValue`. -/
inductive HaPhase
  /-- In no call yet. -/
  | idle
  /-- At `getActiveNamenode(__oldValue)`, the top of the retry loop. -/
  | getActive (count : Nat)
  /-- Waiting for the namenode's answer. -/
  | calling (count : Nat) (oldValue : UInt32)
  /-- Caught a failure it retries: at `failoverToNextNamenode(__oldValue)`. -/
  | failingOver (count : Nat) (oldValue : UInt32)
  /-- The call returned. -/
  | returned
  /-- The call threw `e`, or, for `divisionByZero`, stopped at undefined behaviour. -/
  | threw (e : NamenodeProxyError)
  deriving DecidableEq, Repr

namespace NamenodeProxy

/-- A catch clause of `NAMENODE_HA_RETRY_END`: rethrow `e` when HA is disabled or
`__count++ > maxNamenodeHARetry`, otherwise fail over with `__count` one more. -/
def retryOrThrow (p : NamenodeProxy) (count : Nat) (oldValue : UInt32) (e : NamenodeProxyError) :
    HaPhase :=
  if !p.enableNamenodeHA || decide ((count : Int) > p.maxNamenodeHARetry.toInt) then .threw e
  else .failingOver (count + 1) oldValue

/-- The end of one attempt: `break` on success, the two catch clauses of `NAMENODE_HA_RETRY_END`,
and any other exception let through. -/
def afterCall (p : NamenodeProxy) (count : Nat) (oldValue : UInt32) : CallOutcome → HaPhase
  | .success => .returned
  | .standby => p.retryOrThrow count oldValue .nameNodeStandby
  | .failover => p.retryOrThrow count oldValue .rpc
  | .other => .threw .other

end NamenodeProxy

/-- The proxy and the phase of every thread. -/
structure HaState where
  proxy : NamenodeProxy
  threads : Nat → HaPhase

/-- The events: a thread starts a call or takes its next step, or some thread calls `close()`. -/
inductive HaEvent
  | begin (t : Nat)
  | getActive (t : Nat)
  | call (t : Nat) (outcome : CallOutcome)
  | failover (t : Nat)
  | close
  deriving DecidableEq, Repr

namespace HaState

/-- A new proxy, no call under way. -/
def init (p : NamenodeProxy) : HaState := ⟨p, fun _ => .idle⟩

/-- Thread `t` moves to `ph`. -/
def setThread (s : HaState) (t : Nat) (ph : HaPhase) : HaState :=
  { s with threads := Function.update s.threads t ph }

/-- One atomic step. A thread starts a call only when it is in none, and takes a step of its call
only in the matching phase. -/
def step (s : HaState) : HaEvent → Option HaState
  | .begin t =>
    match s.threads t with
    | .getActive _ | .calling _ _ | .failingOver _ _ => none
    | _ => some (s.setThread t (.getActive 0))
  | .getActive t =>
    match s.threads t with
    | .getActive count =>
      match s.proxy.getActiveNamenode with
      | .ok (_, oldValue) => some (s.setThread t (.calling count oldValue))
      | .error e => some (s.setThread t (.threw e))
    | _ => none
  | .call t outcome =>
    match s.threads t with
    | .calling count oldValue => some (s.setThread t (s.proxy.afterCall count oldValue outcome))
    | _ => none
  | .failover t =>
    match s.threads t with
    | .failingOver count oldValue =>
      match s.proxy.failoverToNextNamenode oldValue with
      | .ok p => some ⟨p, Function.update s.threads t (.getActive count)⟩
      | .error e => some (s.setThread t (.threw e))
    | _ => none
  | .close => some { s with proxy := s.proxy.close }

end HaState

/-! ## The constructor -/

namespace NamenodeProxy

theorem length_of_mapM_ok {α β ε : Type} {f : α → Except ε β} :
    ∀ {xs : List α} {ys : List β}, xs.mapM f = .ok ys → ys.length = xs.length
  | [], ys, h => by
    simp only [List.mapM_nil, pure, Except.pure, Except.ok.injEq] at h
    simp [← h]
  | x :: xs, ys, h => by
    simp only [List.mapM_cons, bind, Except.bind, pure, Except.pure] at h
    split at h
    · cases h
    · split at h
      · cases h
      · rename_i y _ ys' hys'
        simp only [Except.ok.injEq] at h
        simp [← h, length_of_mapM_ok hys']

/-- The constructor keeps every address as a namenode, enables HA exactly when there is not one
namenode, takes `maxNamenodeHARetry` from the configuration only then, and starts at an index of a
namenode. -/
theorem new_spec {namenodeInfos : List String} {rpcMaxHaRetry : Int32} {initIndex : UInt32}
    {p : NamenodeProxy} (h : new namenodeInfos rpcMaxHaRetry initIndex = .ok p) :
    p.namenodes.length = namenodeInfos.length ∧
    p.enableNamenodeHA = (namenodeInfos.length != 1) ∧
    p.maxNamenodeHARetry = (if namenodeInfos.length = 1 then 0 else rpcMaxHaRetry) ∧
    p.currentNamenode.toNat < p.namenodes.length := by
  simp only [new, Except.bind] at h
  split at h
  · cases h
  · rename_i namenodes hmap
    have hlen := length_of_mapM_ok hmap
    split_ifs at h with h1 h0
    · cases h
      simp [hlen, h1]
    · cases h
      dsimp only
      refine ⟨hlen, by simp [h1], by simp [h1], ?_⟩
      rw [UInt32.toNat_ofNat', hlen]
      exact Nat.lt_of_le_of_lt (Nat.mod_le _ _) (Nat.mod_lt _ (by omega))

/-- Two namenodes with HA and `dfs.client.failover.max.attempts` at its default of 15, starting at
the first. -/
def twoNamenodes : NamenodeProxy := ⟨true, 15, [("nn1", "8020"), ("nn2", "8020")], 0⟩

example : new ["nn1:8020", "nn2:8020"] 15 0 = .ok twoNamenodes := by decide

/-! ## The proxy's steps -/

theorem one_le_maxAttempts (p : NamenodeProxy) : 1 ≤ p.maxAttempts := by
  unfold maxAttempts
  split <;> omega

theorem getActiveNamenode_ok {p : NamenodeProxy} (h : p.namenodes ≠ []) :
    ∃ namenode, p.getActiveNamenode = .ok (namenode, p.currentNamenode) := by
  simp [getActiveNamenode, h]

theorem getActiveNamenode_error {p : NamenodeProxy} {e : NamenodeProxyError}
    (h : p.getActiveNamenode = .error e) : e = .fileSystemClosed := by
  unfold getActiveNamenode at h
  split at h
  · cases h
    rfl
  · cases h

theorem failoverToNextNamenode_of_ne {p : NamenodeProxy} {oldValue : UInt32}
    (h : oldValue ≠ p.currentNamenode) : p.failoverToNextNamenode oldValue = .ok p := by
  simp [failoverToNextNamenode, h]

theorem failoverToNextNamenode_self {p : NamenodeProxy} (h : p.namenodes ≠ []) :
    p.failoverToNextNamenode p.currentNamenode = .ok { p with
      currentNamenode := UInt32.ofNat ((p.currentNamenode + 1).toNat % p.namenodes.length) } := by
  have hlen : p.namenodes.length ≠ 0 := fun h0 => h (List.eq_nil_of_length_eq_zero h0)
  simp [failoverToNextNamenode, hlen]

/-- A failover moves nothing but `currentNamenode`, and keeps it an index of a namenode. -/
theorem failoverToNextNamenode_ok {p p' : NamenodeProxy} {oldValue : UInt32}
    (h : p.failoverToNextNamenode oldValue = .ok p') :
    p' = { p with currentNamenode := p'.currentNamenode } ∧
    (p.currentNamenode.toNat < p.namenodes.length →
      p'.currentNamenode.toNat < p'.namenodes.length) := by
  unfold failoverToNextNamenode at h
  split_ifs at h with hne hlen
  · cases h
    exact ⟨rfl, id⟩
  · cases h
    refine ⟨rfl, fun _ => ?_⟩
    rw [UInt32.toNat_ofNat']
    exact Nat.lt_of_le_of_lt (Nat.mod_le _ _) (Nat.mod_lt _ (by omega))

/-- A failover fails only at the division by zero, when the caller saw the current index and
there are no namenodes. -/
theorem failoverToNextNamenode_error {p : NamenodeProxy} {oldValue : UInt32}
    {e : NamenodeProxyError} (h : p.failoverToNextNamenode oldValue = .error e) :
    e = .divisionByZero ∧ oldValue = p.currentNamenode ∧ p.namenodes = [] := by
  unfold failoverToNextNamenode at h
  split_ifs at h with hne hlen
  cases h
  exact ⟨rfl, not_not.mp hne, List.eq_nil_of_length_eq_zero hlen⟩

theorem maxAttempts_failoverToNextNamenode {p p' : NamenodeProxy} {oldValue : UInt32}
    (h : p.failoverToNextNamenode oldValue = .ok p') : p'.maxAttempts = p.maxAttempts := by
  rw [(failoverToNextNamenode_ok h).1]
  rfl

/-- A caught failure either ends the call or leads to one more attempt, within `maxAttempts`. -/
theorem retryOrThrow_cases (p : NamenodeProxy) (count : Nat) (oldValue : UInt32)
    (e : NamenodeProxyError) :
    p.retryOrThrow count oldValue e = .threw e ∨
    (p.retryOrThrow count oldValue e = .failingOver (count + 1) oldValue ∧
      count + 2 ≤ p.maxAttempts) := by
  unfold retryOrThrow
  split_ifs with h
  · exact .inl rfl
  · simp only [Bool.or_eq_true, Bool.not_eq_eq_eq_not, Bool.not_true, decide_eq_true_eq,
      not_or, Bool.not_eq_false, gt_iff_lt, Int.not_lt] at h
    refine .inr ⟨rfl, ?_⟩
    simp only [maxAttempts, h.1, if_true]
    omega

theorem afterCall_cases (p : NamenodeProxy) (count : Nat) (oldValue : UInt32)
    (outcome : CallOutcome) :
    p.afterCall count oldValue outcome = .returned ∨
    (∃ e, p.afterCall count oldValue outcome = .threw e ∧ e ≠ .divisionByZero) ∨
    (p.afterCall count oldValue outcome = .failingOver (count + 1) oldValue ∧
      count + 2 ≤ p.maxAttempts) := by
  cases outcome with
  | success => exact .inl rfl
  | standby =>
    rcases p.retryOrThrow_cases count oldValue .nameNodeStandby with h | h
    · exact .inr (.inl ⟨_, h, by decide⟩)
    · exact .inr (.inr h)
  | failover =>
    rcases p.retryOrThrow_cases count oldValue .rpc with h | h
    · exact .inr (.inl ⟨_, h, by decide⟩)
    · exact .inr (.inr h)
  | other => exact .inr (.inl ⟨_, rfl, by decide⟩)

end NamenodeProxy

/-! ## Runs -/

/-- The number of the attempt a thread in a call is making, or makes next: `__count + 1`. -/
def HaPhase.attempt : HaPhase → Nat
  | .getActive count | .calling count _ | .failingOver count _ => count + 1
  | _ => 0

/-- The attempts a thread in a call may still make, out of `m`. -/
def HaPhase.budget (m : Nat) : HaPhase → Nat
  | .getActive count | .calling count _ | .failingOver count _ => m - count
  | _ => 0

/-- The thread an event is a step of; `close` is no thread's. -/
def HaEvent.thread? : HaEvent → Option Nat
  | .begin t | .getActive t | .call t _ | .failover t => some t
  | .close => none

/-- The event is an attempt of thread `t`. -/
def HaEvent.isCallOf (t : Nat) : HaEvent → Bool
  | .call u _ => u == t
  | _ => false

namespace HaState

@[simp] theorem setThread_proxy (s : HaState) (t : Nat) (ph : HaPhase) :
    (s.setThread t ph).proxy = s.proxy := rfl

@[simp] theorem setThread_threads_self (s : HaState) (t : Nat) (ph : HaPhase) :
    (s.setThread t ph).threads t = ph := by
  simp [setThread]

theorem setThread_threads_of_ne (s : HaState) {t u : Nat} (ph : HaPhase) (h : u ≠ t) :
    (s.setThread t ph).threads u = s.threads u := by
  simp [setThread, Function.update_of_ne h]

/-- **Frame.** A step leaves the phase of every thread but its own as it was. -/
theorem step_threads_of_ne {s s' : HaState} {e : HaEvent} (h : s.step e = some s') {u : Nat}
    (hu : e.thread? ≠ some u) : s'.threads u = s.threads u := by
  cases e with
  | begin t | getActive t | call t outcome | failover t =>
    have hut : u ≠ t := fun hut => hu (by simp [HaEvent.thread?, hut])
    simp only [step] at h
    repeat' split at h
    all_goals first
      | (obtain rfl := Option.some.inj h; exact setThread_threads_of_ne _ _ hut)
      | cases h
  | close =>
    obtain rfl := Option.some.inj h
    rfl

/-- No step changes how many attempts a call may make. -/
theorem step_maxAttempts {s s' : HaState} {e : HaEvent} (h : s.step e = some s') :
    s'.proxy.maxAttempts = s.proxy.maxAttempts := by
  cases e with
  | begin t | getActive t | call t outcome =>
    simp only [step] at h
    repeat' split at h
    all_goals first | (obtain rfl := Option.some.inj h; rfl) | cases h
  | failover t =>
    simp only [step] at h
    split at h
    · split at h
      · rename_i p hfail
        obtain rfl := Option.some.inj h
        exact NamenodeProxy.maxAttempts_failoverToNextNamenode hfail
      · obtain rfl := Option.some.inj h
        rfl
    · cases h
  | close =>
    obtain rfl := Option.some.inj h
    rfl

/-- What every reachable state keeps: `currentNamenode` indexes a namenode while there are any,
and no call is past its last attempt. -/
structure Inv (s : HaState) : Prop where
  current_lt : s.proxy.namenodes ≠ [] → s.proxy.currentNamenode.toNat < s.proxy.namenodes.length
  attempt_le : ∀ t, (s.threads t).attempt ≤ s.proxy.maxAttempts

theorem Inv.setThread {s : HaState} (hs : s.Inv) (t : Nat) {ph : HaPhase}
    (hph : ph.attempt ≤ s.proxy.maxAttempts) : (s.setThread t ph).Inv where
  current_lt := hs.current_lt
  attempt_le u := by
    by_cases hut : u = t
    · subst hut
      simpa using hph
    · rw [setThread_threads_of_ne _ _ hut]
      exact hs.attempt_le u

theorem Inv.step {s s' : HaState} (hs : s.Inv) {e : HaEvent} (h : s.step e = some s') :
    s'.Inv := by
  cases e with
  | begin t =>
    simp only [HaState.step] at h
    split at h
    all_goals first
      | (obtain rfl := Option.some.inj h
         exact hs.setThread t (by simpa [HaPhase.attempt] using s.proxy.one_le_maxAttempts))
      | cases h
  | getActive t =>
    simp only [HaState.step] at h
    split at h
    · rename_i count hph
      have hle := hs.attempt_le t
      rw [hph] at hle
      split at h <;> obtain rfl := Option.some.inj h
      · exact hs.setThread t hle
      · exact hs.setThread t (by simp [HaPhase.attempt])
    · cases h
  | call t outcome =>
    simp only [HaState.step] at h
    split at h
    · rename_i count oldValue hph
      obtain rfl := Option.some.inj h
      have hle := hs.attempt_le t
      rw [hph] at hle
      refine hs.setThread t ?_
      rcases s.proxy.afterCall_cases count oldValue outcome with hc | ⟨e, hc, -⟩ | ⟨hc, hlt⟩
      all_goals rw [hc]; simp only [HaPhase.attempt]; omega
    · cases h
  | failover t =>
    simp only [HaState.step] at h
    split at h
    · rename_i count oldValue hph
      have hle := hs.attempt_le t
      rw [hph] at hle
      split at h
      · rename_i p hfail
        obtain rfl := Option.some.inj h
        have hframe := NamenodeProxy.failoverToNextNamenode_ok hfail
        have hmax := NamenodeProxy.maxAttempts_failoverToNextNamenode hfail
        refine ⟨fun hne => ?_, fun u => ?_⟩
        · have hnn : p.namenodes = s.proxy.namenodes := by rw [hframe.1]
          exact hframe.2 (hs.current_lt (hnn ▸ hne))
        · dsimp only
          rw [hmax]
          by_cases hut : u = t
          · subst hut
            simpa [HaPhase.attempt] using hle
          · rw [Function.update_of_ne hut]
            exact hs.attempt_le u
      · obtain rfl := Option.some.inj h
        exact hs.setThread t (by simp [HaPhase.attempt])
    · cases h
  | close =>
    obtain rfl := Option.some.inj h
    exact ⟨fun hne => absurd rfl hne, hs.attempt_le⟩

theorem init_inv {namenodeInfos : List String} {rpcMaxHaRetry : Int32} {initIndex : UInt32}
    {p : NamenodeProxy} (hnew : NamenodeProxy.new namenodeInfos rpcMaxHaRetry initIndex = .ok p) :
    (init p).Inv where
  current_lt _ := (NamenodeProxy.new_spec hnew).2.2.2
  attempt_le _ := Nat.zero_le _

theorem run_inv {namenodeInfos : List String} {rpcMaxHaRetry : Int32} {initIndex : UInt32}
    {p : NamenodeProxy} (hnew : NamenodeProxy.new namenodeInfos rpcMaxHaRetry initIndex = .ok p)
    {es : List HaEvent} {s : HaState} (h : Machine.run step (init p) es = some s) : s.Inv :=
  Machine.run_inv Inv (fun _ _ _ hs he => hs.step he) (init_inv hnew) h

theorem run_maxAttempts {s s' : HaState} {es : List HaEvent}
    (h : Machine.run step s es = some s') : s'.proxy.maxAttempts = s.proxy.maxAttempts :=
  Machine.run_rel (fun _ => True) (fun a b => b.proxy.maxAttempts = a.proxy.maxAttempts)
    (fun _ => rfl)
    (fun a b c (hab : b.proxy.maxAttempts = a.proxy.maxAttempts)
      (hbc : c.proxy.maxAttempts = b.proxy.maxAttempts) => hbc.trans hab)
    (fun _ _ _ _ _ => trivial)
    (fun _ _ _ _ he => step_maxAttempts he) trivial h

/-! ## Attempts per call -/

/-- An attempt of `t` lowers its budget by one, and no step but its own `begin` raises it. -/
theorem budget_step {s s' : HaState} (hs : s.Inv) {t : Nat} {e : HaEvent} (he : e ≠ .begin t)
    (h : s.step e = some s') :
    (if e.isCallOf t then 1 else 0) + (s'.threads t).budget s'.proxy.maxAttempts ≤
      (s.threads t).budget s.proxy.maxAttempts := by
  rw [step_maxAttempts h]
  by_cases ht : e.thread? = some t
  · cases e with
    | begin u =>
      simp only [HaEvent.thread?, Option.some.injEq] at ht
      exact absurd (ht ▸ rfl) he
    | getActive u =>
      simp only [HaEvent.thread?, Option.some.injEq] at ht
      subst ht
      simp only [HaState.step] at h
      split at h
      · rename_i count hph
        split at h <;> obtain rfl := Option.some.inj h <;>
          simp [HaEvent.isCallOf, hph, HaPhase.budget]
      · cases h
    | call u outcome =>
      simp only [HaEvent.thread?, Option.some.injEq] at ht
      subst ht
      simp only [HaState.step] at h
      split at h
      · rename_i count oldValue hph
        obtain rfl := Option.some.inj h
        have hle := hs.attempt_le u
        rw [hph] at hle
        simp only [HaPhase.attempt] at hle
        simp only [HaEvent.isCallOf, beq_self_eq_true, if_true, setThread_threads_self, hph,
          HaPhase.budget]
        rcases s.proxy.afterCall_cases count oldValue outcome with hc | ⟨e, hc, -⟩ | ⟨hc, hlt⟩
        all_goals rw [hc]; simp only; omega
      · cases h
    | failover u =>
      simp only [HaEvent.thread?, Option.some.injEq] at ht
      subst ht
      simp only [HaState.step] at h
      split at h
      · rename_i count oldValue hph
        split at h <;> obtain rfl := Option.some.inj h
        · simp [HaEvent.isCallOf, hph, HaPhase.budget]
        · simp [HaEvent.isCallOf, hph, HaPhase.budget]
      · cases h
    | close => simp [HaEvent.thread?] at ht
  · rw [step_threads_of_ne h ht]
    have hcall : e.isCallOf t = false := by
      cases e <;> simp_all [HaEvent.isCallOf, HaEvent.thread?]
    simp [hcall]

/-- **Attempts per call.** In every interleaving, the call thread `t` starts with `begin t` makes at
most `maxAttempts` attempts before `t` starts another. -/
theorem run_attempts_le {namenodeInfos : List String} {rpcMaxHaRetry : Int32} {initIndex : UInt32}
    {p : NamenodeProxy} (hnew : NamenodeProxy.new namenodeInfos rpcMaxHaRetry initIndex = .ok p)
    {pre post : List HaEvent} {t : Nat} {s : HaState}
    (h : Machine.run step (init p) (pre ++ .begin t :: post) = some s)
    (hpost : ∀ e ∈ post, e ≠ .begin t) :
    post.countP (HaEvent.isCallOf t) ≤ p.maxAttempts := by
  rw [Machine.run_append] at h
  obtain ⟨s₁, h₁, h₂⟩ := Option.bind_eq_some_iff.mp h
  rw [Machine.run_cons] at h₂
  obtain ⟨s₂, hbegin, hrest⟩ := Option.bind_eq_some_iff.mp h₂
  have hmax : s₁.proxy.maxAttempts = p.maxAttempts := run_maxAttempts h₁
  have hstart : (s₂.threads t).budget s₂.proxy.maxAttempts = p.maxAttempts := by
    simp only [HaState.step] at hbegin
    split at hbegin
    all_goals first
      | (obtain rfl := Option.some.inj hbegin; simp [HaPhase.budget, hmax])
      | cases hbegin
  have hcount := Machine.run_countP_le Inv (fun e => e ≠ .begin t)
    (fun s => (s.threads t).budget s.proxy.maxAttempts) (HaEvent.isCallOf t)
    (fun _ _ _ hs _ he => hs.step he) (fun _ _ _ hs he hstep => budget_step hs he hstep)
    ((run_inv hnew h₁).step hbegin) hpost hrest
  omega

/-! ## The index and its modulo -/

/-- Namenodes remain and no thread has divided by zero. -/
def Sound (s : HaState) : Prop :=
  s.proxy.namenodes ≠ [] ∧ ∀ t, s.threads t ≠ .threw .divisionByZero

theorem Sound.setThread {s : HaState} (hs : s.Sound) (t : Nat) {ph : HaPhase}
    (hph : ph ≠ .threw .divisionByZero) : (s.setThread t ph).Sound := by
  refine ⟨hs.1, fun u => ?_⟩
  by_cases hut : u = t
  · subst hut
    simpa using hph
  · rw [setThread_threads_of_ne _ _ hut]
    exact hs.2 u

/-- Every step but `close` keeps the namenodes, and so never divides by zero. -/
theorem Sound.step {s s' : HaState} (hs : s.Sound) {e : HaEvent} (he : e ≠ .close)
    (h : s.step e = some s') : s'.Sound := by
  cases e with
  | begin t =>
    simp only [HaState.step] at h
    split at h
    all_goals first
      | (obtain rfl := Option.some.inj h; exact hs.setThread t (by simp))
      | cases h
  | getActive t =>
    simp only [HaState.step] at h
    split at h
    · split at h <;> obtain rfl := Option.some.inj h
      · exact hs.setThread t (by simp)
      · rename_i e hget
        rw [NamenodeProxy.getActiveNamenode_error hget]
        exact hs.setThread t (by simp)
    · cases h
  | call t outcome =>
    simp only [HaState.step] at h
    split at h
    · rename_i count oldValue _
      obtain rfl := Option.some.inj h
      refine hs.setThread t ?_
      rcases s.proxy.afterCall_cases count oldValue outcome with hc | ⟨e, hc, hne⟩ | ⟨hc, -⟩
      · simp [hc]
      · simpa [hc] using hne
      · simp [hc]
    · cases h
  | failover t =>
    simp only [HaState.step] at h
    split at h
    · split at h
      · rename_i p hfail
        obtain rfl := Option.some.inj h
        have hnn : p.namenodes = s.proxy.namenodes := by
          rw [(NamenodeProxy.failoverToNextNamenode_ok hfail).1]
        refine ⟨hnn ▸ hs.1, fun u => ?_⟩
        by_cases hut : u = t
        · subst hut
          simp
        · simp only [Function.update_of_ne hut]
          exact hs.2 u
      · rename_i e hfail
        exact absurd (NamenodeProxy.failoverToNextNamenode_error hfail).2.2 hs.1
    · cases h
  | close => exact absurd rfl he

/-- **No division by zero without `close`.** In an interleaving in which no thread calls
`close()`, no step evaluates `x % 0`. -/
theorem run_no_divisionByZero {namenodeInfos : List String} {rpcMaxHaRetry : Int32}
    {initIndex : UInt32} {p : NamenodeProxy}
    (hnew : NamenodeProxy.new namenodeInfos rpcMaxHaRetry initIndex = .ok p)
    {es : List HaEvent} {s : HaState} (h : Machine.run step (init p) es = some s)
    (hes : ∀ e ∈ es, e ≠ .close) (t : Nat) : s.threads t ≠ .threw .divisionByZero := by
  have hne : p.namenodes ≠ [] :=
    List.ne_nil_of_length_pos (Nat.lt_of_le_of_lt (Nat.zero_le _) (NamenodeProxy.new_spec hnew).2.2.2)
  have hinit : (init p).Sound := ⟨hne, fun _ => by simp [init]⟩
  exact (Machine.run_inv_of Sound (fun e => e ≠ .close)
    (fun _ _ _ hs he hstep => hs.step he hstep) hinit hes h).2 t

/-- **What every interleaving keeps.** From a proxy the constructor makes, in every interleaving of
the callers' steps and `close()`: each call a thread starts makes at most `maxAttempts` attempts
before the thread starts another, and as long as no thread calls `close()`, no step evaluates
`x % 0`. -/
theorem run_ha_safe {namenodeInfos : List String} {rpcMaxHaRetry : Int32} {initIndex : UInt32}
    {p : NamenodeProxy} (hnew : NamenodeProxy.new namenodeInfos rpcMaxHaRetry initIndex = .ok p)
    {es : List HaEvent} {s : HaState} (h : Machine.run step (init p) es = some s) :
    (∀ pre t post, es = pre ++ .begin t :: post → (∀ e ∈ post, e ≠ .begin t) →
      post.countP (HaEvent.isCallOf t) ≤ p.maxAttempts) ∧
    ((∀ e ∈ es, e ≠ .close) → ∀ t, s.threads t ≠ .threw .divisionByZero) := by
  refine ⟨fun pre t post hes hpost => ?_, fun hes t => run_no_divisionByZero hnew h hes t⟩
  rw [hes] at h
  exact run_attempts_le hnew h hpost

/-- A call of thread `0` whose first attempt meets a standby: it fails over, and the second attempt
succeeds. -/
def standbyThenActive : List HaEvent :=
  [.getActive 0, .call 0 .standby, .failover 0, .getActive 0, .call 0 .success]

/-- Two namenodes; a call of thread `0` meets a standby, fails over, and succeeds. -/
theorem run_ha_safe_after_standby :
    NamenodeProxy.new ["nn1:8020", "nn2:8020"] 15 0 = .ok NamenodeProxy.twoNamenodes ∧
      ∃ s, Machine.run step (init NamenodeProxy.twoNamenodes) (.begin 0 :: standbyThenActive) =
        some s ∧
      (∀ pre t post, HaEvent.begin 0 :: standbyThenActive = pre ++ .begin t :: post →
        (∀ e ∈ post, e ≠ .begin t) → post.countP (HaEvent.isCallOf t) ≤
          NamenodeProxy.twoNamenodes.maxAttempts) ∧
      ((∀ e ∈ HaEvent.begin 0 :: standbyThenActive, e ≠ .close) →
        ∀ t, s.threads t ≠ .threw .divisionByZero) := by
  have hnew : NamenodeProxy.new ["nn1:8020", "nn2:8020"] 15 0 = .ok NamenodeProxy.twoNamenodes := by
    decide
  obtain ⟨s, h⟩ : ∃ s, Machine.run step (init NamenodeProxy.twoNamenodes)
      (.begin 0 :: standbyThenActive) = some s := ⟨_, rfl⟩
  exact ⟨hnew, s, h, run_ha_safe hnew h⟩

/-! ## Concurrent failovers -/

/-- The first failover of a caller that saw the current index moves it one position on. -/
theorem failover_step_advance {s s' : HaState} {t count : Nat} (hn : s.proxy.namenodes ≠ [])
    (hph : s.threads t = .failingOver count s.proxy.currentNamenode)
    (h : s.step (.failover t) = some s') :
    s'.proxy.currentNamenode =
      UInt32.ofNat ((s.proxy.currentNamenode + 1).toNat % s.proxy.namenodes.length) ∧
    s'.proxy.namenodes = s.proxy.namenodes ∧
    s'.threads = Function.update s.threads t (.getActive count) := by
  simp only [HaState.step, hph, NamenodeProxy.failoverToNextNamenode_self hn] at h
  obtain rfl := Option.some.inj h
  exact ⟨rfl, rfl, rfl⟩

/-- Once the index has moved from `v` to the one after it, the failover of a caller that saw `v`
leaves the proxy as it is. -/
theorem failover_step_stay {s s' : HaState} {t : Nat} {v : UInt32} (hn : s.proxy.namenodes ≠ [])
    (hw : s.proxy.currentNamenode = UInt32.ofNat ((v + 1).toNat % s.proxy.namenodes.length))
    (hv : ∀ count oldValue, s.threads t = .failingOver count oldValue → oldValue = v)
    (h : s.step (.failover t) = some s') :
    s'.proxy = s.proxy ∧ ∃ count, s'.threads = Function.update s.threads t (.getActive count) := by
  simp only [HaState.step] at h
  split at h
  · rename_i count oldValue hph
    obtain rfl := hv count oldValue hph
    by_cases hcur : oldValue = s.proxy.currentNamenode
    · have hself := NamenodeProxy.failoverToNextNamenode_self hn
      rw [← hcur] at hself
      simp only [hself] at h
      obtain rfl := Option.some.inj h
      refine ⟨?_, count, rfl⟩
      dsimp only
      rw [← hw]
    · simp only [NamenodeProxy.failoverToNextNamenode_of_ne hcur] at h
      obtain rfl := Option.some.inj h
      exact ⟨rfl, count, rfl⟩
  · cases h

theorem run_failovers_stay {v : UInt32} :
    ∀ {ts : List Nat} {s s' : HaState}, s.proxy.namenodes ≠ [] →
      s.proxy.currentNamenode = UInt32.ofNat ((v + 1).toNat % s.proxy.namenodes.length) →
      (∀ t ∈ ts, ∀ count oldValue, s.threads t = .failingOver count oldValue → oldValue = v) →
      Machine.run step s (ts.map .failover) = some s' → s'.proxy = s.proxy
  | [], s, s', _, _, _, h => by
    simp only [List.map_nil, Machine.run_nil, Option.some.injEq] at h
    rw [h]
  | t :: ts, s, s', hn, hw, hv, h => by
    simp only [List.map_cons, Machine.run_cons, Option.bind_eq_some_iff] at h
    obtain ⟨s₁, h₁, hrest⟩ := h
    obtain ⟨hproxy, count, hthreads⟩ :=
      failover_step_stay hn hw (hv t List.mem_cons_self) h₁
    have hv₁ : ∀ u ∈ ts, ∀ c o, s₁.threads u = .failingOver c o → o = v := by
      intro u hu c o hph
      by_cases hut : u = t
      · subst hut
        simp [hthreads] at hph
      · rw [hthreads, Function.update_of_ne hut] at hph
        exact hv u (List.mem_cons_of_mem t hu) c o hph
    rw [run_failovers_stay (hproxy ▸ hn) (hproxy ▸ hw) hv₁ hrest, hproxy]

/-- **Concurrent failovers.** When callers that all saw the current index fail over, one after
another, the index moves exactly one position on: the first failover moves it, and the guard
`oldValue != currentNamenode` stops the others. -/
theorem failover_group_advances_once {s s' : HaState} {t : Nat} {ts : List Nat}
    (hn : s.proxy.namenodes ≠ [])
    (hseen : ∀ u ∈ t :: ts, ∃ count, s.threads u = .failingOver count s.proxy.currentNamenode)
    (h : Machine.run step s ((t :: ts).map .failover) = some s') :
    s'.proxy.currentNamenode =
      UInt32.ofNat ((s.proxy.currentNamenode + 1).toNat % s.proxy.namenodes.length) := by
  simp only [List.map_cons, Machine.run_cons, Option.bind_eq_some_iff] at h
  obtain ⟨s₁, h₁, hrest⟩ := h
  obtain ⟨count, hph⟩ := hseen t List.mem_cons_self
  obtain ⟨hcur, hnn, hthreads⟩ := failover_step_advance hn hph h₁
  have hn₁ : s₁.proxy.namenodes ≠ [] := hnn ▸ hn
  have hw₁ : s₁.proxy.currentNamenode = UInt32.ofNat ((s.proxy.currentNamenode + 1).toNat %
      s₁.proxy.namenodes.length) := by rw [hcur, hnn]
  have hv₁ : ∀ u ∈ ts, ∀ c o, s₁.threads u = .failingOver c o → o = s.proxy.currentNamenode := by
    intro u hu c o hph₁
    by_cases hut : u = t
    · subst hut
      simp [hthreads] at hph₁
    · rw [hthreads, Function.update_of_ne hut] at hph₁
      obtain ⟨c', hph'⟩ := hseen u (List.mem_cons_of_mem t hu)
      rw [hph'] at hph₁
      cases hph₁
      rfl
  rw [run_failovers_stay hn₁ hw₁ hv₁ hrest, hcur]

/-- Two namenodes, and every thread failing over after its first attempt at the first one. -/
def failingOverFromFirst : HaState := ⟨NamenodeProxy.twoNamenodes, fun _ => .failingOver 1 0⟩

/-- Two callers that both saw the first namenode fail over, one after the other: the index moves to
the second namenode, once. -/
theorem failover_group_advances_once_on_two_callers :
    ∃ s', Machine.run step failingOverFromFirst ([0, 1].map .failover) = some s' ∧
      s'.proxy.currentNamenode = UInt32.ofNat ((failingOverFromFirst.proxy.currentNamenode + 1).toNat %
        failingOverFromFirst.proxy.namenodes.length) := by
  have hn : failingOverFromFirst.proxy.namenodes ≠ [] := List.cons_ne_nil _ _
  have hseen : ∀ u ∈ [0, 1], ∃ count, failingOverFromFirst.threads u =
      .failingOver count failingOverFromFirst.proxy.currentNamenode := fun _ _ => ⟨1, rfl⟩
  obtain ⟨s', h⟩ : ∃ s', Machine.run step failingOverFromFirst ([0, 1].map .failover) = some s' :=
    ⟨_, rfl⟩
  exact ⟨s', h, failover_group_advances_once hn hseen h⟩

/-! ## `close` during a failover -/

/-- **Division by zero after `close`.** A proxy with HA, whose callers retry a standby at least
once: a caller gets the active namenode, which answers that it is a standby; another thread calls
`close()`; the caller's `failoverToNextNamenode` then evaluates `currentNamenode %
namenodes.size()` with no namenodes. -/
theorem failover_after_close_divides_by_zero (p : NamenodeProxy)
    (hha : p.enableNamenodeHA = true) (hretry : 0 ≤ p.maxNamenodeHARetry.toInt)
    (hn : p.namenodes ≠ []) :
    ∃ s, Machine.run step (init p)
      [.begin 0, .getActive 0, .call 0 .standby, .close, .failover 0] = some s ∧
      s.threads 0 = .threw .divisionByZero := by
  have hretry' : ¬ p.maxNamenodeHARetry.toInt < 0 := Int.not_lt.mpr hretry
  obtain ⟨namenode, hget⟩ := NamenodeProxy.getActiveNamenode_ok hn
  simp [Machine.run, HaState.step, init, setThread, hget, NamenodeProxy.afterCall,
    NamenodeProxy.retryOrThrow, hha, hretry', NamenodeProxy.close,
    NamenodeProxy.failoverToNextNamenode]

/-- Two namenodes with HA and `dfs.client.failover.max.attempts` at its default of 15, as the
constructor makes them from two addresses (`new_spec`), starting at the first. -/
theorem failover_after_close_divides_by_zero_two_namenodes :
    let p : NamenodeProxy := ⟨true, 15, [("nn1", "8020"), ("nn2", "8020")], 0⟩
    p.enableNamenodeHA = true ∧ 0 ≤ p.maxNamenodeHARetry.toInt ∧ p.namenodes ≠ [] ∧
    ∃ s, Machine.run step (init p)
      [.begin 0, .getActive 0, .call 0 .standby, .close, .failover 0] = some s ∧
      s.threads 0 = .threw .divisionByZero := by
  intro p
  have hretry : 0 ≤ p.maxNamenodeHARetry.toInt := by decide
  have hn : p.namenodes ≠ [] := List.cons_ne_nil _ _
  exact ⟨rfl, hretry, hn, failover_after_close_divides_by_zero p rfl hretry hn⟩

end HaState

end HdfsClient
