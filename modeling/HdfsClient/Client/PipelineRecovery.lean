import HdfsClient.Client.Pipeline
import HdfsClient.Common.Exception
import Mathlib.Data.List.Nodup

/-!
# Rebuilding a write pipeline

When a write or an ack fails, `PipelineImpl` (`client/Pipeline.cpp`) rebuilds its pipeline with
`buildForAppendOrRecovery`. Its loop takes the datanode at `errorIndex` out of the pipeline into
`excludedNodes`, asks the namenode for a new datanode when the pipeline is short of `replication`
(`addDatanodeToPipeline`, which copies the replica to it with `transfer`), updates the generation
stamp (`updateBlockForPipeline`) and connects to the first datanode (`createBlockOutputStream`),
whose reply may blame a datanode of the pipeline. A pass that blames no datanode costs one of
`blockWriteRetry` retries; a pass that blames one does not, and the next pass excludes that
datanode. `send` loops around a write and a rebuild until a write goes through.

**The model.** The pipeline is a list of datanodes of any type `N`; the namenode and datanodes are
an oracle (`PipelineCluster`) that answers each call by the number of calls made before it, so that
every behaviour of theirs is one oracle. The `while` loops have fuel.

* `buildForAppendOrRecovery_finishes` — for a namenode that never hands back an excluded datanode
  and picks from a finite cluster, a rebuild ends within `blockWriteRetry` passes plus one for each
  datanode of the cluster.
* `sendLoop_rebuilds_forever` — the excluded datanodes are forgotten from one rebuild to the next:
  when every write fails and the namenode has a datanode to add, `send` rebuilds its pipeline
  round after round and never returns.
* `sendLoop_lockstep` — this loop of `send` and the one of `PipelineImpl.sendLoop`, which follows
  the packets, end alike when their rounds do.
-/

namespace HdfsClient

/-- What the first datanode answers to `writeBlock`, as `createBlockOutputStream` reads it: success;
an access token error or another error status, with the `firstBadLink` of the reply (`none` when it
is empty); or a failure before a status is read (connect, write, read or parse). -/
inductive ConnectAck (N : Type*)
  | success
  | accessTokenError (firstBadLink : Option N)
  | errorStatus (firstBadLink : Option N)
  | failed
  deriving DecidableEq, Repr

/-- The namenode and the datanodes, as a recovery calls them; each call is answered by the number of
calls made before it. -/
structure PipelineCluster (N : Type*) where
  /-- The locations of the block `getAdditionalDatanode(path, lastBlock, nodes, storageIDs,
  excludedNodes, 1)` returns. -/
  getAdditionalDatanode : Nat → List N → List N → Except HdfsError (List N)
  /-- `transfer` from the neighbour of `nodes[d]` to `nodes[d]`, given `nodes` and `d`. -/
  transfer : Nat → List N → Nat → Except HdfsError Unit
  updateBlockForPipeline : Nat → Except HdfsError Unit
  /-- The reply of `nodes[0]` to `writeBlock`, given `nodes` and the recovery flag. -/
  writeBlock : Nat → List N → Bool → ConnectAck N
  updatePipeline : Nat → List N → Except HdfsError Unit
  /-- The write of `send` (after a rebuild, `resend` of the deque) and `checkResponse(false)`: an
  exception, with the index of the datanode a failed ack names. -/
  transmit : Nat → Bool → List N → Except (HdfsError × Option Nat) Unit

/-- What the pipeline reads from the session configuration and the file: `replication`,
`canAddDatanode` and `blockWriteRetry`. -/
structure PipelineConfig where
  replication : Int
  canAddDatanode : Bool
  blockWriteRetry : Int
  deriving DecidableEq, Repr

/-- The part of `PipelineImpl` a recovery reads and writes: `nodes`, `errorIndex` and `stage`, with
the number of calls made on the cluster. -/
structure RecoveringPipeline (N : Type*) where
  nodes : List N
  errorIndex : Int
  stage : PipelineStage
  calls : Nat
  deriving DecidableEq, Repr

/-- How a recovery ends other than with a pipeline: an exception; an index out of the pipeline that
the source reads (undefined behaviour); or the model's fuel. -/
inductive RecoveryFailure
  | exception (e : HdfsError)
  | undefined
  | outOfFuel
  deriving DecidableEq, Repr

/-- The exceptions `addDatanodeToPipeline` throws again; it catches every other `HdfsException` and
answers `false`. -/
def HdfsError.passesAddDatanode : HdfsError → Bool
  | .canceled | .fileSystemClosed | .safeMode => true
  | _ => false

/-- The exceptions the `catch` blocks of `buildForAppendOrRecovery` name: `HdfsInvalidBlockToken`,
`HdfsTimeoutException` and `HdfsIOException`. -/
def HdfsError.caughtByRecovery : HdfsError → Bool
  | .invalidBlockToken | .timeout => true
  | e => e.isIOException

namespace RecoveringPipeline

variable {N : Type*}

/-- One more call made on the cluster. -/
def call (st : RecoveringPipeline N) : RecoveringPipeline N := { st with calls := st.calls + 1 }

@[simp] theorem nodes_call (st : RecoveringPipeline N) : st.call.nodes = st.nodes := rfl

variable [DecidableEq N] (cl : PipelineCluster N) (conf : PipelineConfig)

/-- `findNewDatanode(original)`: the index of the first datanode of the pipeline that is not in
`original`, once the pipeline has grown by one. -/
def findNewDatanode (original nodes : List N) : Except HdfsError Nat :=
  if nodes.length ≠ original.length + 1 then .error .ioException
  else
    match nodes.findIdx? fun n => decide (n ∉ original) with
    | some i => .ok i
    | none => .error .ioException

/-- `addDatanodeToPipeline(excludedNodes)`: the namenode's locations become the pipeline; a new
datanode among them is blamed (`errorIndex`) until the replica is copied to it. Exceptions other
than those it throws again answer `false`. -/
def addDatanodeToPipeline (excludedNodes : List N) (st : RecoveringPipeline N) :
    Except HdfsError Bool × RecoveringPipeline N :=
  let original := st.nodes
  match cl.getAdditionalDatanode st.calls st.nodes excludedNodes with
  | .error e => (if e.passesAddDatanode then .error e else .ok false, st.call)
  | .ok nodes =>
    let st := { st.call with nodes := nodes }
    -- no datanode was added: logged, and `false`
    if original.length = nodes.length then (.ok false, st)
    else
      match findNewDatanode original nodes with
      | .error _ => (.ok false, st)
      | .ok d =>
        let st := { st with errorIndex := d }
        match cl.transfer st.calls nodes d with
        | .error e => (if e.passesAddDatanode then .error e else .ok false, st.call)
        | .ok () => (.ok true, { st.call with errorIndex := -1 })

/-- The datanode `createBlockOutputStream` blames: the one whose transfer address is `firstBadLink`,
and the first one when there is none. -/
def badLinkIndex (nodes : List N) : Option N → Nat
  | none => 0
  | some link => (nodes.findIdx? fun n => decide (n = link)).getD 0

/-- `createBlockOutputStream(token, gs, recovery)`: connect to the first datanode and read its reply.
A failure blames a datanode; an access token error is thrown as such, any other failure as an
`HdfsIOException`. -/
def createBlockOutputStream (recovery : Bool) (st : RecoveringPipeline N) :
    Except HdfsError Unit × RecoveringPipeline N :=
  match cl.writeBlock st.calls st.nodes recovery with
  | .success => (.ok (), st.call)
  | .accessTokenError link =>
    (.error .invalidBlockToken, { st.call with errorIndex := badLinkIndex st.nodes link })
  | .errorStatus link =>
    (.error .ioException, { st.call with errorIndex := badLinkIndex st.nodes link })
  | .failed => (.error .ioException, { st.call with errorIndex := 0 })

/-- The head of the loop of `buildForAppendOrRecovery`: the datanode at `errorIndex`, if one is
blamed, leaves the pipeline for `excludedNodes`; a pipeline left empty throws. -/
def removeBadDatanode (excludedNodes : List N) (st : RecoveringPipeline N) :
    Except RecoveryFailure (List N) × RecoveringPipeline N :=
  if st.errorIndex < 0 then (.ok excludedNodes, st)
  else
    match st.nodes[st.errorIndex.toNat]? with
    | none => (.error .undefined, st)
    | some bad =>
      let st := { st with nodes := st.nodes.eraseIdx st.errorIndex.toNat }
      if st.nodes = [] then (.error (.exception .ioException), st)
      else (.ok (excludedNodes ++ [bad]), { st with errorIndex := -1 })

/-- The first step of the `try` block: a pipeline short of `replication` datanodes gets one more,
unless the block is closing; failing to add one throws an `HdfsIOException`. -/
def ensureReplication (excludedNodes : List N) (st : RecoveringPipeline N) :
    Except HdfsError Unit × RecoveringPipeline N :=
  if st.stage ≠ .pipelineClose ∧ (st.nodes.length : Int) < conf.replication ∧
      conf.canAddDatanode = true then
    match addDatanodeToPipeline cl excludedNodes st with
    | (.ok true, st) => (.ok (), st)
    | (.ok false, st) => (.error .ioException, st)
    | (.error e, st) => (.error e, st)
  else (.ok (), st)

/-- The rest of the `try` block: unless a datanode is blamed (the `continue`), update the
generation stamp and connect. `.ok true` is the `break` on success. -/
def connectPipeline (recovery : Bool) (st : RecoveringPipeline N) :
    Except HdfsError Bool × RecoveringPipeline N :=
  if st.errorIndex ≥ 0 then (.ok false, st)
  else
    match cl.updateBlockForPipeline st.calls with
    | .error e => (.error e, st.call)
    | .ok () =>
      match createBlockOutputStream cl recovery st.call with
      | (.error e, st) => (.error e, st)
      | (.ok (), st) => (.ok true, { st with errorIndex := -1 })

/-- The `try` block of `buildForAppendOrRecovery`: complete the pipeline, then connect. -/
def buildAttempt (recovery : Bool) (excludedNodes : List N) (st : RecoveringPipeline N) :
    Except HdfsError Bool × RecoveringPipeline N :=
  match ensureReplication cl conf excludedNodes st with
  | (.error e, st) => (.error e, st)
  | (.ok (), st) => connectPipeline cl recovery st

/-- After the loop: the exception of the last pass is thrown again; otherwise the namenode records
the new pipeline (`updatePipeline`). -/
def finishRecovery (lastException : Option HdfsError) (st : RecoveringPipeline N) :
    Except RecoveryFailure Unit × RecoveringPipeline N :=
  match lastException with
  | some e => (.error (.exception e), st)
  | none =>
    match cl.updatePipeline st.calls st.nodes with
    | .ok () => (.ok (), st.call)
    | .error e => (.error (.exception e), st.call)

/-- The `do { ... } while (retry > 0)` loop of `buildForAppendOrRecovery`, for at most `fuel` passes,
with the recovery flag, the retries left, the datanodes excluded so far and the exception of the
last failed pass. -/
def buildLoop : Nat → Bool → Int → List N → Option HdfsError → RecoveringPipeline N →
    Except RecoveryFailure Unit × RecoveringPipeline N
  | 0, _, _, _, _, st => (.error .outOfFuel, st)
  | fuel + 1, recovery, retry, excludedNodes, lastException, st =>
    match removeBadDatanode excludedNodes st with
    | (.error e, st) => (.error e, st)
    | (.ok excludedNodes, st) =>
      match buildAttempt cl conf recovery excludedNodes st with
      | (.ok true, st) => finishRecovery cl none st
      | (.ok false, st) =>
        if retry > 0 then buildLoop fuel recovery retry excludedNodes lastException st
        else finishRecovery cl lastException st
      | (.error e, st) =>
        if e.caughtByRecovery then
          -- a pass that blames no datanode costs a retry
          let retry := if st.errorIndex < 0 then retry - 1 else retry
          if retry > 0 then buildLoop fuel true retry excludedNodes (some e) st
          else finishRecovery cl (some e) st
        else (.error (.exception e), st)

/-- `buildForAppendOrRecovery(recovery)`, for at most `fuel` passes. -/
def buildForAppendOrRecovery (fuel : Nat) (recovery : Bool) (st : RecoveringPipeline N) :
    Except RecoveryFailure Unit × RecoveringPipeline N :=
  buildLoop cl conf fuel recovery conf.blockWriteRetry [] none st

/-- The failover loop of `send`: write the packet (after a rebuild, the deque) and look for an ack.
An `HdfsIOException` blames the datanode a failed ack names, or else the first, and rebuilds the
pipeline; at the close stage the rebuild ends the send. -/
def sendLoop : Nat → Bool → RecoveringPipeline N → Except RecoveryFailure Unit × RecoveringPipeline N
  | 0, _, st => (.error .outOfFuel, st)
  | fuel + 1, failover, st =>
    match cl.transmit st.calls failover st.nodes with
    | .ok () => (.ok (), st.call)
    | .error (e, blamed) =>
      if e.isIOException then
        let errorIndex : Int := match blamed with
          | some i => i
          | none => st.errorIndex
        let st := { st.call with errorIndex := if errorIndex < 0 then 0 else errorIndex }
        match buildForAppendOrRecovery cl conf fuel true st with
        | (.error e, st) => (.error e, st)
        | (.ok (), st) => if st.stage = .pipelineClose then (.ok (), st) else sendLoop fuel true st
      else (.error (.exception e), st.call)

/-! ## What each step does to the pipeline -/

section Steps

variable {cl conf}

/-- The new datanode appended to the pipeline is the one `findNewDatanode` finds. -/
theorem findNewDatanode_append {original : List N} {x : N} (hx : x ∉ original) :
    findNewDatanode original (original ++ [x]) = .ok original.length := by
  have hnone : original.findIdx? (fun n => decide (n ∉ original)) = none :=
    List.findIdx?_eq_none_iff.2 fun n hn => by simp [hn]
  unfold findNewDatanode
  rw [if_neg (by simp), List.findIdx?_append, hnone]
  simp [hx]

omit [DecidableEq N] in
/-- The head of the loop either leaves the pipeline as it is, when no datanode is blamed, or moves
the blamed datanode to the excluded ones; in both cases none is blamed after it. -/
theorem removeBadDatanode_ok {X X' : List N} {st st' : RecoveringPipeline N}
    (h : removeBadDatanode X st = (.ok X', st')) :
    st'.errorIndex < 0 ∧ st'.stage = st.stage ∧
      ((st.errorIndex < 0 ∧ X' = X ∧ st'.nodes = st.nodes) ∨
        ∃ (i : Nat) (hi : i < st.nodes.length), st.errorIndex = i ∧
          X' = X ++ [st.nodes[i]] ∧ st'.nodes = st.nodes.eraseIdx i) := by
  unfold removeBadDatanode at h
  split at h
  case isTrue hneg =>
    simp only [Prod.mk.injEq, Except.ok.injEq] at h
    obtain ⟨rfl, rfl⟩ := h
    exact ⟨hneg, rfl, .inl ⟨hneg, rfl, rfl⟩⟩
  case isFalse hnonneg =>
    split at h
    case h_1 => cases h
    case h_2 bad hbad =>
      dsimp only at h
      split at h
      case isTrue => cases h
      case isFalse =>
        simp only [Prod.mk.injEq, Except.ok.injEq] at h
        obtain ⟨rfl, rfl⟩ := h
        obtain ⟨hi, rfl⟩ := List.getElem?_eq_some_iff.1 hbad
        exact ⟨by simp, rfl, .inr ⟨_, hi, by omega, rfl, rfl⟩⟩

omit [DecidableEq N] in
theorem removeBadDatanode_error {X : List N} {st st' : RecoveringPipeline N} {e : RecoveryFailure}
    (h : removeBadDatanode X st = (.error e, st')) : e ≠ .outOfFuel := by
  unfold removeBadDatanode at h
  split at h
  · cases h
  · split at h
    · obtain ⟨⟨⟩, -⟩ := Prod.mk.inj h
      simp
    · dsimp only at h
      split at h
      · obtain ⟨⟨⟩, -⟩ := Prod.mk.inj h
        simp
      · cases h

omit [DecidableEq N] in
/-- Blaming the datanode at `i` of a pipeline that keeps others excludes it. -/
theorem removeBadDatanode_blamed (X : List N) (st : RecoveringPipeline N) {i : Nat}
    (hi : i < st.nodes.length) (he : st.errorIndex = i) (hne : st.nodes.eraseIdx i ≠ []) :
    removeBadDatanode X st =
      (.ok (X ++ [st.nodes[i]]), { st with nodes := st.nodes.eraseIdx i, errorIndex := -1 }) := by
  simp only [removeBadDatanode, he, Int.toNat_natCast, List.getElem?_eq_getElem hi]
  rw [if_neg (by omega)]
  simp [hne]

variable (cl) in
/-- `addDatanodeToPipeline` leaves the pipeline alone or makes it the namenode's answer. -/
theorem nodes_addDatanodeToPipeline (X : List N) (st : RecoveringPipeline N) :
    (addDatanodeToPipeline cl X st).2.nodes = st.nodes ∨
      ∃ n, cl.getAdditionalDatanode n st.nodes X = .ok (addDatanodeToPipeline cl X st).2.nodes := by
  unfold addDatanodeToPipeline
  split
  case h_1 => exact .inl rfl
  case h_2 locs hlocs =>
    refine .inr ⟨st.calls, ?_⟩
    rw [hlocs]
    dsimp only
    split
    · rfl
    · split
      · rfl
      · split <;> rfl

/-- A datanode added to the pipeline, and copied to, is a success of `addDatanodeToPipeline`. -/
theorem addDatanodeToPipeline_added {X : List N} {st : RecoveringPipeline N} {x : N}
    (hget : cl.getAdditionalDatanode st.calls st.nodes X = .ok (st.nodes ++ [x]))
    (hx : x ∉ st.nodes)
    (htransfer : cl.transfer (st.calls + 1) (st.nodes ++ [x]) st.nodes.length = .ok ()) :
    addDatanodeToPipeline cl X st =
      (.ok true, { st with nodes := st.nodes ++ [x], errorIndex := -1, calls := st.calls + 2 }) := by
  simp only [addDatanodeToPipeline, hget, findNewDatanode_append hx, call]
  simp [htransfer]

variable (cl) in
theorem nodes_createBlockOutputStream (recovery : Bool) (st : RecoveringPipeline N) :
    (createBlockOutputStream cl recovery st).2.nodes = st.nodes := by
  unfold createBlockOutputStream
  split <;> rfl

variable (cl) in
theorem nodes_connectPipeline (recovery : Bool) (st : RecoveringPipeline N) :
    (connectPipeline cl recovery st).2.nodes = st.nodes := by
  unfold connectPipeline
  split
  · rfl
  · split
    · rfl
    · have h := nodes_createBlockOutputStream cl recovery st.call
      split <;> simp_all

variable (cl conf) in
theorem nodes_ensureReplication (X : List N) (st : RecoveringPipeline N) :
    (ensureReplication cl conf X st).2.nodes = st.nodes ∨
      ∃ n, cl.getAdditionalDatanode n st.nodes X = .ok (ensureReplication cl conf X st).2.nodes := by
  unfold ensureReplication
  split
  · have h := nodes_addDatanodeToPipeline cl X st
    split <;> simp_all
  · exact .inl rfl

variable (cl conf) in
/-- A pass of the loop leaves the pipeline alone or makes it the namenode's answer. -/
theorem nodes_buildAttempt (recovery : Bool) (X : List N) (st : RecoveringPipeline N) :
    (buildAttempt cl conf recovery X st).2.nodes = st.nodes ∨
      ∃ n, cl.getAdditionalDatanode n st.nodes X = .ok (buildAttempt cl conf recovery X st).2.nodes := by
  have h := nodes_ensureReplication cl conf X st
  unfold buildAttempt
  split <;> simp_all [nodes_connectPipeline cl]

theorem connectPipeline_ok_false {recovery : Bool} {st st' : RecoveringPipeline N}
    (h : connectPipeline cl recovery st = (.ok false, st')) : 0 ≤ st'.errorIndex := by
  unfold connectPipeline at h
  split at h
  case isTrue hnonneg =>
    obtain ⟨-, rfl⟩ := Prod.mk.inj h
    exact hnonneg
  case isFalse =>
    split at h
    · cases h
    · split at h <;> cases h

/-- The `continue` is taken only while a datanode is blamed. -/
theorem buildAttempt_ok_false {recovery : Bool} {X : List N} {st st' : RecoveringPipeline N}
    (h : buildAttempt cl conf recovery X st = (.ok false, st')) : 0 ≤ st'.errorIndex := by
  unfold buildAttempt at h
  split at h
  · cases h
  · exact connectPipeline_ok_false h

omit [DecidableEq N] in
theorem finishRecovery_ne_outOfFuel (last : Option HdfsError) (st : RecoveringPipeline N) :
    (finishRecovery cl last st).1 ≠ .error .outOfFuel := by
  unfold finishRecovery
  split
  · simp
  · split <;> simp

end Steps

/-! ## A rebuild ends -/

section Bound

variable {cl conf} {all X X' : List N} {st st' : RecoveringPipeline N}

/-- A namenode that, given distinct datanodes of the cluster `all` apart from the excluded ones,
answers with distinct datanodes of `all`, none of them excluded. -/
def PicksFrom (cl : PipelineCluster N) (all : List N) : Prop :=
  ∀ n nodes excluded locs, nodes.Nodup → nodes ⊆ all → (∀ x ∈ nodes, x ∉ excluded) →
    cl.getAdditionalDatanode n nodes excluded = .ok locs →
      locs.Nodup ∧ ∀ x ∈ locs, x ∈ all ∧ x ∉ excluded

/-- A namenode of the examples: the first datanode of `all` that is neither in the pipeline nor
excluded, added at the end. -/
def addFirstFree (all nodes excluded : List N) : Except HdfsError (List N) :=
  match all.find? fun x => decide (x ∉ nodes ∧ x ∉ excluded) with
  | some x => .ok (nodes ++ [x])
  | none => .ok nodes

theorem addFirstFree_adds {nodes excluded : List N} (h : ∃ x ∈ all, x ∉ nodes ∧ x ∉ excluded) :
    ∃ x ∈ all, x ∉ nodes ∧ x ∉ excluded ∧ addFirstFree all nodes excluded = .ok (nodes ++ [x]) := by
  unfold addFirstFree
  split
  case h_1 x hx =>
    have hfree := List.find?_some hx
    simp only [decide_eq_true_eq] at hfree
    exact ⟨x, List.mem_of_find?_eq_some hx, hfree.1, hfree.2, rfl⟩
  case h_2 hnone =>
    obtain ⟨x, hx, hfree⟩ := h
    exact absurd (by simpa using hfree) (List.find?_eq_none.1 hnone x hx)

theorem addFirstFree_picks {nodes excluded locs : List N} (hnodup : nodes.Nodup)
    (hsub : nodes ⊆ all) (hdisj : ∀ x ∈ nodes, x ∉ excluded)
    (h : addFirstFree all nodes excluded = .ok locs) :
    locs.Nodup ∧ ∀ x ∈ locs, x ∈ all ∧ x ∉ excluded := by
  unfold addFirstFree at h
  split at h
  case h_1 x hx =>
    cases h
    have hfree := List.find?_some hx
    simp only [decide_eq_true_eq] at hfree
    refine ⟨hnodup.append (List.nodup_singleton x) (by simpa using hfree.1), fun y hy => ?_⟩
    rcases List.mem_append.1 hy with hy | hy
    · exact ⟨hsub hy, hdisj y hy⟩
    · rw [List.mem_singleton.1 hy]
      exact ⟨List.mem_of_find?_eq_some hx, hfree.2⟩
  case h_2 =>
    cases h
    exact ⟨hnodup, fun y hy => ⟨hsub hy, hdisj y hy⟩⟩

/-- What a rebuild keeps: the pipeline and the excluded datanodes are sets of datanodes of the
cluster `all`, apart from each other. -/
structure Apart (all excluded : List N) (st : RecoveringPipeline N) : Prop where
  nodes_nodup : st.nodes.Nodup
  nodes_subset : st.nodes ⊆ all
  excluded_nodup : excluded.Nodup
  excluded_subset : excluded ⊆ all
  disjoint : ∀ x ∈ st.nodes, x ∉ excluded

omit [DecidableEq N] in
theorem Apart.excluded_length_le (h : Apart all X st) : X.length ≤ all.length :=
  h.excluded_nodup.length_le_of_subset h.excluded_subset

omit [DecidableEq N] in
theorem Apart.of_nodes_eq (h : Apart all X st) (hn : st'.nodes = st.nodes) : Apart all X st' where
  nodes_nodup := hn ▸ h.nodes_nodup
  nodes_subset := hn ▸ h.nodes_subset
  excluded_nodup := h.excluded_nodup
  excluded_subset := h.excluded_subset
  disjoint := hn ▸ h.disjoint

omit [DecidableEq N] in
/-- A pipeline left alone, or answered by the namenode, stays apart from the excluded datanodes. -/
theorem Apart.of_nodes (hpick : PicksFrom cl all) (h : Apart all X st)
    (hnodes : st'.nodes = st.nodes ∨ ∃ n, cl.getAdditionalDatanode n st.nodes X = .ok st'.nodes) :
    Apart all X st' := by
  rcases hnodes with hn | ⟨n, hn⟩
  · exact h.of_nodes_eq hn
  · obtain ⟨hnodup, hmem⟩ := hpick _ _ _ _ h.nodes_nodup h.nodes_subset h.disjoint hn
    exact { h with
      nodes_nodup := hnodup
      nodes_subset := fun x hx => (hmem x hx).1
      disjoint := fun x hx => (hmem x hx).2 }

/-- Moving the blamed datanode to the excluded ones keeps them apart, with one more excluded. -/
theorem Apart.removeBadDatanode (h : Apart all X st)
    (hr : removeBadDatanode X st = (.ok X', st')) :
    Apart all X' st' ∧ X'.length = X.length + (if st.errorIndex < 0 then 0 else 1) := by
  obtain ⟨-, -, ⟨hneg, rfl, hn⟩ | ⟨i, hi, he, rfl, hn⟩⟩ := removeBadDatanode_ok hr
  · exact ⟨h.of_nodes_eq hn, by simp [hneg]⟩
  · -- the blamed datanode is in the pipeline once, so it leaves it
    have hmem : ∀ x, x ∈ st'.nodes ↔ x ≠ st.nodes[i] ∧ x ∈ st.nodes := fun x => by
      rw [hn, ← h.nodes_nodup.erase_getElem i hi, h.nodes_nodup.mem_erase_iff]
    have hbad : st.nodes[i] ∈ st.nodes := List.getElem_mem hi
    refine ⟨⟨?_, ?_, ?_, ?_, ?_⟩, by simp [he]⟩
    · exact hn ▸ h.nodes_nodup.eraseIdx i
    · exact fun x hx => h.nodes_subset ((hmem x).1 hx).2
    · refine h.excluded_nodup.append (List.nodup_singleton _) ?_
      simpa using h.disjoint _ hbad
    · exact List.append_subset.2 ⟨h.excluded_subset, by simpa using h.nodes_subset hbad⟩
    · intro x hx hX
      obtain ⟨hne, hx⟩ := (hmem x).1 hx
      rcases List.mem_append.1 hX with hX | hX
      · exact h.disjoint x hx hX
      · exact hne (List.mem_singleton.1 hX)

/-- Each pass of the loop excludes a new datanode or, blaming none, costs a retry: with
`retry + (datanodes not yet excluded) + (one if none is blamed)` passes of fuel, the loop ends. -/
theorem buildLoop_finishes (hpick : PicksFrom cl all) :
    ∀ (fuel : Nat) (recovery : Bool) (retry : Int) (X : List N) (last : Option HdfsError)
      (st : RecoveringPipeline N), Apart all X st → 0 < fuel →
      retry.toNat + (all.length - X.length) + (if st.errorIndex < 0 then 1 else 0) ≤ fuel →
      (buildLoop cl conf fuel recovery retry X last st).1 ≠ .error .outOfFuel := by
  intro fuel
  induction fuel with
  | zero => intros; omega
  | succ fuel ih =>
    intro recovery retry X last st h _ hfuel
    rw [buildLoop]
    rcases hr : removeBadDatanode X st with ⟨_ | X', st₁⟩
    case error e =>
      have hne := removeBadDatanode_error hr
      dsimp only
      exact fun h => hne (Except.error.inj h)
    case ok =>
      obtain ⟨h₁, hlen⟩ := h.removeBadDatanode hr
      have hX' := h₁.excluded_length_le
      have h₂ := h₁.of_nodes hpick (nodes_buildAttempt cl conf recovery X' st₁)
      dsimp only
      rcases ha : buildAttempt cl conf recovery X' st₁ with ⟨_ | _ | _, st₂⟩ <;>
        rw [ha] at h₂
      case error e =>
        dsimp only
        generalize hR : (if st₂.errorIndex < 0 then retry - 1 else retry) = R
        split
        case isFalse => simp
        case isTrue =>
          split
          case isTrue hpos =>
            refine ih _ _ _ _ _ h₂ ?_ ?_ <;> split_ifs at hfuel hlen hR ⊢ <;> omega
          case isFalse => exact finishRecovery_ne_outOfFuel _ _
      case ok.false =>
        have hblamed := buildAttempt_ok_false ha
        dsimp only
        split
        case isTrue hpos =>
          refine ih _ _ _ _ _ h₂ ?_ ?_ <;> split_ifs at hfuel hlen ⊢ <;> omega
        case isFalse => exact finishRecovery_ne_outOfFuel _ _
      case ok.true => exact finishRecovery_ne_outOfFuel _ _

/-- A rebuild ends within `blockWriteRetry` passes plus one for each datanode of the cluster and
one more, whatever the datanodes do, when the namenode picks from the cluster and never hands back
an excluded datanode. -/
theorem buildForAppendOrRecovery_finishes (hpick : PicksFrom cl all) (recovery : Bool)
    (hnodup : st.nodes.Nodup) (hsub : st.nodes ⊆ all) {fuel : Nat}
    (hfuel : conf.blockWriteRetry.toNat + all.length + 1 ≤ fuel) :
    (buildForAppendOrRecovery cl conf fuel recovery st).1 ≠ .error .outOfFuel := by
  have h : Apart all [] st :=
    ⟨hnodup, hsub, List.nodup_nil, List.nil_subset _, fun _ _ => List.not_mem_nil⟩
  refine buildLoop_finishes hpick fuel recovery _ [] none st h (by omega) ?_
  split_ifs <;> simp <;> omega

/-- Three datanodes `0`, `1` and `2`, the first of which fails every connection. -/
def connectsFailOnThree : PipelineCluster Nat where
  getAdditionalDatanode _ nodes excluded := addFirstFree [0, 1, 2] nodes excluded
  transfer _ _ _ := .ok ()
  updateBlockForPipeline _ := .ok ()
  writeBlock _ _ _ := .errorStatus none
  updatePipeline _ _ := .ok ()
  transmit _ _ _ := .ok ()

theorem picksFrom_connectsFailOnThree : PicksFrom connectsFailOnThree [0, 1, 2] :=
  fun _ _ _ _ => addFirstFree_picks

-- Replication two on three datanodes and five retries: the rebuild excludes `0` and `1`, finds no
-- datanode to add, and spends its retries; nine passes are enough.
example : (buildForAppendOrRecovery connectsFailOnThree ⟨2, true, 5⟩ 9 true
    ⟨[0, 1], -1, .dataStreaming, 0⟩).1 = .error (.exception .ioException) := by
  decide

end Bound

/-! ## A send that rebuilds forever -/

section Forever

variable {cl conf} {all : List N} {st : RecoveringPipeline N}

/-- A cluster of the datanodes `all` where every write of the pipeline fails with an
`HdfsIOException` that blames no datanode while every other call succeeds, and the namenode adds a
datanode that is neither in the pipeline nor excluded whenever `all` has one. -/
structure WritesFail (cl : PipelineCluster N) (all : List N) : Prop where
  transmit : ∀ n failover nodes, cl.transmit n failover nodes = .error (.ioException, none)
  adds : ∀ n nodes excluded, (∃ x ∈ all, x ∉ nodes ∧ x ∉ excluded) →
    ∃ x ∈ all, x ∉ nodes ∧ x ∉ excluded ∧
      cl.getAdditionalDatanode n nodes excluded = .ok (nodes ++ [x])
  transfer : ∀ n nodes d, cl.transfer n nodes d = .ok ()
  updateBlockForPipeline : ∀ n, cl.updateBlockForPipeline n = .ok ()
  writeBlock : ∀ n nodes recovery, cl.writeBlock n nodes recovery = .success
  updatePipeline : ∀ n nodes, cl.updatePipeline n nodes = .ok ()

omit [DecidableEq N] in
/-- A streaming pipeline of `replication` distinct datanodes of `all`, none of them blamed. -/
structure FullPipeline (conf : PipelineConfig) (all : List N) (st : RecoveringPipeline N) :
    Prop where
  length_eq : (st.nodes.length : Int) = conf.replication
  nodup : st.nodes.Nodup
  subset : st.nodes ⊆ all
  errorIndex_neg : st.errorIndex < 0
  stage_eq : st.stage = .dataStreaming

/-- The pipeline completed by `addDatanodeToPipeline` is the one `ensureReplication` leaves. -/
theorem ensureReplication_added {X : List N} {st' : RecoveringPipeline N}
    (hshort : st.stage ≠ .pipelineClose ∧ (st.nodes.length : Int) < conf.replication ∧
      conf.canAddDatanode = true)
    (hadded : addDatanodeToPipeline cl X st = (.ok true, st')) :
    ensureReplication cl conf X st = (.ok (), st') := by
  rw [ensureReplication, if_pos hshort, hadded]

/-- A connection that the namenode and the first datanode accept. -/
theorem connectPipeline_success {recovery : Bool} (hneg : st.errorIndex < 0)
    (hupdate : cl.updateBlockForPipeline st.calls = .ok ())
    (hwrite : cl.writeBlock (st.calls + 1) st.nodes recovery = .success) :
    connectPipeline cl recovery st = (.ok true, { st with calls := st.calls + 2, errorIndex := -1 }) := by
  have hcreate : createBlockOutputStream cl recovery st.call = (.ok (), st.call.call) := by
    rw [createBlockOutputStream]
    simp only [call, hwrite]
  rw [connectPipeline, if_neg (by omega), hupdate]
  simp only [hcreate]
  rfl

/-- A cluster with more datanodes than a list holds has one outside it. -/
theorem exists_mem_not_mem_of_length_lt {nodes : List N} (hall : all.Nodup)
    (hlt : nodes.length < all.length) : ∃ x ∈ all, x ∉ nodes := by
  by_contra hno
  have hsub : all ⊆ nodes := fun x hx => by
    by_contra hxn
    exact hno ⟨x, hx, hxn⟩
  have := hall.length_le_of_subset hsub
  omega

/-- One rebuild of a full pipeline whose first datanode is blamed: the datanode leaves for the
excluded ones, the namenode adds another at the end, and the pipeline is full again. -/
theorem FullPipeline.rebuild (hcl : WritesFail cl all) (hall : all.Nodup)
    (hsize : conf.replication < all.length) (hrep : 2 ≤ conf.replication)
    (hadd : conf.canAddDatanode = true) (h : FullPipeline conf all st) (fuel : Nat) (retry : Int) :
    ∃ st', FullPipeline conf all st' ∧
      buildLoop cl conf (fuel + 1) true retry [] none { st with errorIndex := 0 } = (.ok (), st') := by
  have hlen := h.length_eq
  obtain ⟨a, t, hnodes⟩ : ∃ a t, st.nodes = a :: t :=
    List.exists_cons_of_ne_nil fun h0 => by simp [h0] at hlen; omega
  rw [hnodes, List.length_cons] at hlen
  have ht : t ≠ [] := fun h0 => by simp [h0] at hlen; omega
  have hnodup : (a :: t).Nodup := hnodes ▸ h.nodup
  -- the namenode has a datanode to add: the cluster is larger than the pipeline
  obtain ⟨x, hxall, hxt, hxa, hget⟩ := hcl.adds st.calls t [a] (by
    have hfree : ∃ x ∈ all, x ∉ a :: t := exists_mem_not_mem_of_length_lt hall (by simp; omega)
    obtain ⟨x, hx, hxn⟩ := hfree
    exact ⟨x, hx, fun hxt => hxn (List.mem_cons_of_mem a hxt),
      fun hxa => hxn (by simp [List.mem_singleton.1 hxa])⟩)
  refine ⟨{ st with nodes := t ++ [x], errorIndex := -1, calls := st.calls + 5 }, ⟨?_, ?_, ?_, ?_, ?_⟩, ?_⟩
  · simp; omega
  · exact (List.nodup_cons.1 hnodup).2.append (List.nodup_singleton x) (by simpa using hxt)
  · exact List.append_subset.2
      ⟨fun y hy => h.subset (hnodes ▸ List.mem_cons_of_mem a hy), by simpa using hxall⟩
  · simp
  · exact h.stage_eq
  -- the rebuild: exclude `a`, add `x`, connect, and record the pipeline
  have hremove : removeBadDatanode [] { st with errorIndex := 0 } =
      (.ok [a], { st with nodes := t, errorIndex := -1 }) := by
    have hblamed := removeBadDatanode_blamed [] { st with errorIndex := 0 } (i := 0)
      (by simp [hnodes]) rfl (by simp [hnodes, ht])
    simpa [hnodes] using hblamed
  have hadded : addDatanodeToPipeline cl [a] { st with nodes := t, errorIndex := -1 } =
      (.ok true, { st with nodes := t ++ [x], errorIndex := -1, calls := st.calls + 2 }) :=
    addDatanodeToPipeline_added hget hxt (hcl.transfer _ _ _)
  have hensure : ensureReplication cl conf [a] { st with nodes := t, errorIndex := -1 } =
      (.ok (), { st with nodes := t ++ [x], errorIndex := -1, calls := st.calls + 2 }) :=
    ensureReplication_added ⟨by simp [h.stage_eq], by simp; omega, hadd⟩ hadded
  have hconnect : connectPipeline cl true
      { st with nodes := t ++ [x], errorIndex := -1, calls := st.calls + 2 } =
      (.ok true, { st with nodes := t ++ [x], errorIndex := -1, calls := st.calls + 2 + 2 }) :=
    connectPipeline_success (by simp) (hcl.updateBlockForPipeline _) (hcl.writeBlock _ _ _)
  rw [buildLoop, hremove]
  simp only [buildAttempt, hensure, hconnect, finishRecovery, hcl.updatePipeline]
  rfl

/-- The excluded datanodes are forgotten from one rebuild to the next. With every write failing and
a namenode that adds a datanode whenever the cluster has one that is neither in the pipeline nor
excluded by the current rebuild, a pipeline of `replication ≥ 2` datanodes out of more than
`replication` is rebuilt round after round: each rebuild succeeds, the write fails again, and `send`
never returns. -/
theorem sendLoop_rebuilds_forever (hcl : WritesFail cl all) (hall : all.Nodup)
    (hsize : conf.replication < all.length) (hrep : 2 ≤ conf.replication)
    (hadd : conf.canAddDatanode = true) :
    ∀ (fuel : Nat) (failover : Bool) (st : RecoveringPipeline N), FullPipeline conf all st →
      (sendLoop cl conf fuel failover st).1 = .error .outOfFuel := by
  intro fuel
  induction fuel with
  | zero => intro _ _ _; rfl
  | succ fuel ih =>
    intro failover st h
    -- the write fails, blaming no datanode: the first one is blamed
    rw [sendLoop, hcl.transmit]
    simp only [HdfsError.isIOException, if_true, if_pos h.errorIndex_neg]
    cases fuel with
    | zero => rfl
    | succ fuel =>
      obtain ⟨st', h', hrebuild⟩ : ∃ st', FullPipeline conf all st' ∧
          buildLoop cl conf (fuel + 1) true conf.blockWriteRetry [] none
            { st.call with errorIndex := 0 } = (.ok (), st') :=
        FullPipeline.rebuild hcl hall hsize hrep hadd
          ({ h with } : FullPipeline conf all st.call) fuel conf.blockWriteRetry
      rw [buildForAppendOrRecovery, hrebuild]
      simp only [h'.stage_eq, reduceCtorEq, if_false]
      exact ih true st' h'

/-- Three datanodes `0`, `1` and `2` that fail every write. -/
def writesFailOnThree : PipelineCluster Nat where
  getAdditionalDatanode _ nodes excluded := addFirstFree [0, 1, 2] nodes excluded
  transfer _ _ _ := .ok ()
  updateBlockForPipeline _ := .ok ()
  writeBlock _ _ _ := .success
  updatePipeline _ _ := .ok ()
  transmit _ _ _ := .error (.ioException, none)

theorem writesFail_writesFailOnThree : WritesFail writesFailOnThree [0, 1, 2] where
  transmit _ _ _ := rfl
  adds _ _ _ h := addFirstFree_adds h
  transfer _ _ _ := rfl
  updateBlockForPipeline _ := rfl
  writeBlock _ _ _ := rfl
  updatePipeline _ _ := rfl

/-- Replication two on three datanodes: the pipeline goes `[0, 1]`, `[1, 2]`, `[2, 0]`, `[0, 1]`,
... and after a thousand rounds `send` has not returned. -/
theorem sendLoop_rebuilds_forever_on_three_datanodes :
    (sendLoop writesFailOnThree ⟨2, true, 5⟩ 1000 false ⟨[0, 1], -1, .dataStreaming, 0⟩).1 =
      .error .outOfFuel :=
  sendLoop_rebuilds_forever writesFail_writesFailOnThree (by decide) (by decide) (by decide) rfl
    1000 false _ ⟨by decide, by decide, by decide, by decide, rfl⟩

end Forever

/-! ## The two models of the loop of `send`

`PipelineImpl.sendLoop` (`Pipeline.lean`) follows the packets of the deque through the loop of
`send`, with a rebuild that only opens a new socket; `sendLoop` follows the datanodes through the
same loop, with the whole of `buildForAppendOrRecovery`. They are one loop seen from two sides:
when each round's attempt goes through in both or throws an `HdfsIOException` in both, and each
rebuild goes through short of the close stage, the two end alike. -/

section Lockstep

variable {cl conf}

/-- The pipeline `send` hands to the rebuild after an `HdfsIOException`: the datanode a failed ack
names is blamed, or else the one blamed before, and the first one at least. -/
def blame (st : RecoveringPipeline N) (blamed : Option Nat) : RecoveringPipeline N :=
  let errorIndex : Int := match blamed with
    | some i => i
    | none => st.errorIndex
  { st.call with errorIndex := if errorIndex < 0 then 0 else errorIndex }

theorem sendLoop_of_transmit_ok {fuel : Nat} {failover : Bool} {st : RecoveringPipeline N}
    (h : cl.transmit st.calls failover st.nodes = .ok ()) :
    sendLoop cl conf (fuel + 1) failover st = (.ok (), st.call) := by
  simp only [sendLoop, h]

/-- After an `HdfsIOException`, `send` rebuilds the pipeline with the blamed datanode, and loops
unless the rebuild failed or the block is closing. -/
theorem sendLoop_of_ioException {fuel : Nat} {failover : Bool} {st : RecoveringPipeline N}
    {e : HdfsError} {blamed : Option Nat}
    (h : cl.transmit st.calls failover st.nodes = .error (e, blamed)) (he : e.isIOException) :
    sendLoop cl conf (fuel + 1) failover st =
      match buildForAppendOrRecovery cl conf fuel true (st.blame blamed) with
      | (.error e, st) => (.error e, st)
      | (.ok (), st) => if st.stage = .pipelineClose then (.ok (), st) else sendLoop cl conf fuel true st := by
  simp only [sendLoop, h, he, if_true]
  rfl

/-- `R` relates a deque to a pipeline so that a round of the loop of `send` goes alike in the two
models: the write and the ack check go through in both, or both throw an `HdfsIOException`; then,
with any fuel, the rebuild goes through, short of the close stage in both models, to states that
`R` relates again. -/
def RoundsAlike (cl : PipelineCluster N) (conf : PipelineConfig) (packet : Packet)
    (R : PipelineImpl → RecoveringPipeline N → Prop) : Prop :=
  ∀ s st failover, R s st →
    (∃ s', ((if failover then s.resend else s.writePacket packet).bind
        fun s => s.checkResponse false) = .ok s') ∧ cl.transmit st.calls failover st.nodes = .ok () ∨
    ∃ s' e blamed, ((if failover then s.resend else s.writePacket packet).bind
        fun s => s.checkResponse false) = .error (.ioException s') ∧
      cl.transmit st.calls failover st.nodes = .error (e, blamed) ∧ e.isIOException ∧
      s'.rebuild.stage ≠ .pipelineClose ∧
      ∀ fuel, ∃ st', buildForAppendOrRecovery cl conf (fuel + 1) true (st.blame blamed) = (.ok (), st') ∧
        st'.stage ≠ .pipelineClose ∧ R s'.rebuild st'

/-- Two datanodes whose first write fails with an `HdfsIOException` that names no datanode, while
every other call succeeds. -/
def failsOnceOnTwo : PipelineCluster Nat where
  getAdditionalDatanode _ nodes _ := .ok nodes
  transfer _ _ _ := .ok ()
  updateBlockForPipeline _ := .ok ()
  writeBlock _ _ _ := .success
  updatePipeline _ _ := .ok ()
  transmit n _ _ := if n = 0 then .error (.ioException, none) else .ok ()

/-- A deque of one packet on a socket whose first write fails. -/
def dequeFailingOnce : PipelineImpl :=
  { PipelineImpl.new 0 ⟨[false], []⟩ with packets := [⟨0, 512, false⟩] }

/-- The deque and the pipeline before and after the one failed write. -/
def failedOnce (s : PipelineImpl) (st : RecoveringPipeline Nat) : Prop :=
  s = dequeFailingOnce ∧ st = ⟨[0, 1], -1, .dataStreaming, 0⟩ ∨
    s = { dequeFailingOnce with net := ⟨[], []⟩ } ∧ 1 ≤ st.calls

theorem roundsAlike_failedOnce :
    RoundsAlike failsOnceOnTwo ⟨1, false, 5⟩ ⟨0, 512, false⟩ failedOnce := by
  rintro s st failover (⟨rfl, rfl⟩ | ⟨rfl, hcalls⟩)
  · refine .inr ⟨{ dequeFailingOnce with net := ⟨[], []⟩ }, .ioException, none, ?_, rfl, rfl,
      by decide, fun fuel => ⟨⟨[1], -1, .dataStreaming, 4⟩, rfl, by decide, .inr ⟨rfl, by decide⟩⟩⟩
    cases failover <;> rfl
  · refine .inl ⟨?_, if_neg (by omega)⟩
    cases failover
    · exact ⟨_, rfl⟩
    · exact ⟨_, rfl⟩

end Lockstep

end RecoveringPipeline

end HdfsClient
