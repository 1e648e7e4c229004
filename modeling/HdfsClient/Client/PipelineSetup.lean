import HdfsClient.Client.PipelineRecovery

/-!
# Setting up a write pipeline

The constructor of `PipelineImpl` (`client/Pipeline.cpp`) builds the pipeline that a stream writes
to. An append rebuilds the pipeline of the file's last block with `buildForAppendOrRecovery(false)`.
A create calls `buildForNewBlock`. That function asks the namenode for a new block
(`locateNextBlock`, which calls `addBlock` again after a `NotReplicatedYetException` while its
retries last) and connects to the block's datanodes. When the connection fails, the block is
abandoned and the datanode that `createBlockOutputStream` blames joins `excludedNodes` for the next
`addBlock`. An `HdfsRpcException` of `addBlock` is tried again `blockWriteRetry + 1` times in a row.
When no datanode is blamed, the loop spends one of `blockWriteRetry` retries, "in case of infinite
loop".

**The model.** `BlockAllocator` answers `addBlock` and `abandonBlock` by the number of calls made
before, as `PipelineCluster` answers for the datanodes; both loops have fuel.

* `setup_finishes` — for a namenode that picks datanodes from a finite cluster and never one that is
  excluded, the constructor ends. A create takes at most `blockWriteRetry + 2` passes for each
  datanode of the cluster, and `blockWriteRetry + 2` more.
* `buildForNewBlock_connects_forever` — nothing else bounds the create. A failed connection always
  blames a datanode (`createBlockOutputStream_blames`), so the retry meant to stop the loop is never
  spent. A namenode that hands back the datanodes it was asked to exclude keeps the loop going
  forever.
-/

namespace HdfsClient

/-- How `addBlock` fails, as `locateNextBlock` and `buildForNewBlock` tell its exceptions apart:
`NotReplicatedYetException`, `HdfsRpcException`, or another exception. -/
inductive AddBlockError
  | notReplicatedYet
  | rpc
  | other (e : HdfsError)
  deriving DecidableEq, Repr

/-- The namenode's side of a new block; each call is answered by the number of calls made before
it. -/
structure BlockAllocator (N : Type*) where
  /-- The locations of the block `addBlock(path, lastBlock, excludedNodes)` returns. -/
  addBlock : Nat → List N → Except AddBlockError (List N)
  /-- `abandonBlock(lastBlock, path)`. -/
  abandonBlock : Nat → Except HdfsError Unit

/-- How the set-up of a pipeline ends other than with a pipeline: an exception of `addBlock` thrown
again, another exception, an index out of the pipeline that the source reads, or the model's fuel. -/
inductive SetupFailure
  | addBlock (e : AddBlockError)
  | exception (e : HdfsError)
  | undefined
  | outOfFuel
  deriving DecidableEq, Repr

/-- A failure of `buildForAppendOrRecovery`, as the constructor throws it on. -/
def RecoveryFailure.toSetup : RecoveryFailure → SetupFailure
  | .exception e => .exception e
  | .undefined => .undefined
  | .outOfFuel => .outOfFuel

namespace RecoveringPipeline

variable {N : Type*} [DecidableEq N] (cl : PipelineCluster N) (nn : BlockAllocator N)
  (conf : PipelineConfig)

/-- `locateNextBlock(excludedNodes)`: `addBlock`, called again after a `NotReplicatedYetException`
while `retry--` is not zero, for at most `fuel` calls. The sleeps between the calls are not
modelled. -/
def locateNextBlock (excludedNodes : List N) : Nat → Int → RecoveringPipeline N →
    Except SetupFailure (List N) × RecoveringPipeline N
  | 0, _, st => (.error .outOfFuel, st)
  | fuel + 1, retry, st =>
    match nn.addBlock st.calls excludedNodes with
    | .ok locs => (.ok locs, st.call)
    | .error .notReplicatedYet =>
      if retry ≠ 0 then locateNextBlock excludedNodes fuel (retry - 1) st.call
      else (.error (.addBlock .notReplicatedYet), st.call)
    | .error e => (.error (.addBlock e), st.call)

/-- The end of a pass whose connection failed and whose block was abandoned: the datanode at
`errorIndex` joins the excluded ones or, when none is blamed, a retry is spent. -/
def excludeBlamed (excludedNodes : List N) (retry : Int) (st : RecoveringPipeline N) :
    Except SetupFailure (List N × Int) :=
  if st.errorIndex ≥ 0 then
    match st.nodes[st.errorIndex.toNat]? with
    | some bad => .ok (excludedNodes ++ [bad], retry)
    | none => .error .undefined
  else .ok (excludedNodes, retry - 1)

/-- The `do { ... } while (retry)` loop of `buildForNewBlock`, for at most `fuel` passes, with the
fuel of each `locateNextBlock`, the `addBlock` retries after an `HdfsRpcException` so far
(`retryAllocNewBlock`), the retries left and the datanodes excluded so far. -/
def newBlockLoop (locateFuel : Nat) : Nat → Nat → Int → List N → RecoveringPipeline N →
    Except SetupFailure Unit × RecoveringPipeline N
  | 0, _, _, _, st => (.error .outOfFuel, st)
  | fuel + 1, retryAllocNewBlock, retry, excludedNodes, st =>
    match locateNextBlock nn excludedNodes locateFuel conf.blockWriteRetry
        { st with errorIndex := -1 } with
    | (.error (.addBlock .rpc), st) =>
      if (retryAllocNewBlock : Int) > conf.blockWriteRetry then (.error (.addBlock .rpc), st)
      -- the `continue` of a `do`-`while` goes to the test `while (retry)`
      else if retry ≠ 0 then
        newBlockLoop locateFuel fuel (retryAllocNewBlock + 1) retry excludedNodes st
      else (.ok (), st)
    | (.error e, st) => (.error e, st)
    | (.ok nodes, st) =>
      let st := { st with nodes := nodes }
      if nodes = [] then (.error (.exception .ioException), st)
      else
        match createBlockOutputStream cl false st with
        | (.ok (), st) => (.ok (), st)
        | (.error e, st) =>
          if e.caughtByRecovery then
            match nn.abandonBlock st.calls with
            | .error e => (.error (.exception e), st.call)
            | .ok () =>
              match excludeBlamed excludedNodes retry st.call with
              | .error e => (.error e, st.call)
              | .ok (excludedNodes, retry) =>
                if retry ≠ 0 then newBlockLoop locateFuel fuel 0 retry excludedNodes st.call
                else (.ok (), st.call)
          else (.error (.exception e), st)

/-- `buildForNewBlock()`, with `fuel` passes of its loop and `fuel` calls of each
`locateNextBlock`. -/
def buildForNewBlock (fuel : Nat) (st : RecoveringPipeline N) :
    Except SetupFailure Unit × RecoveringPipeline N :=
  newBlockLoop cl nn conf fuel fuel 0 conf.blockWriteRetry [] st

/-- The constructor `PipelineImpl(append, ...)`, from `errorIndex(-1)` and `calls` calls made so far:
an append rebuilds the pipeline of the last block, whose locations are `lastBlockLocations`; a create
sets up a new block. The stages `PIPELINE_SETUP_APPEND` and `PIPELINE_SETUP_CREATE` are not
`PIPELINE_CLOSE`, the only stage the set-up tests, and the model gives them `dataStreaming`. -/
def setup (fuel : Nat) (append : Bool) (lastBlockLocations : List N) (calls : Nat) :
    Except SetupFailure Unit × RecoveringPipeline N :=
  if append then
    match buildForAppendOrRecovery cl conf fuel false ⟨lastBlockLocations, -1, .dataStreaming, calls⟩
    with
    | (.ok (), st) => (.ok (), { st with stage := .dataStreaming })
    | (.error e, st) => (.error e.toSetup, st)
  else
    match buildForNewBlock cl nn conf fuel ⟨[], -1, .dataStreaming, calls⟩ with
    | (.ok (), st) => (.ok (), { st with stage := .dataStreaming })
    | (.error e, st) => (.error e, st)

/-! ## What a pass does -/

section Steps

variable {cl nn conf}

omit [DecidableEq N] in
variable (nn) in
/-- `locateNextBlock` ends with the namenode's answer to some call of `addBlock`, or with an
exception; with more calls of fuel than retries, never for want of fuel. -/
theorem locateNextBlock_cases (X : List N) :
    ∀ (fuel : Nat) (retry : Int) (st : RecoveringPipeline N), 0 ≤ retry → retry.toNat < fuel →
      ((locateNextBlock nn X fuel retry st).1 ≠ .error .outOfFuel ∧
        ∀ locs, (locateNextBlock nn X fuel retry st).1 = .ok locs →
          ∃ n, nn.addBlock n X = .ok locs) := by
  intro fuel
  induction fuel with
  | zero => intros; omega
  | succ fuel ih =>
    intro retry st hretry hfuel
    rw [locateNextBlock]
    split
    case h_1 locs hlocs =>
      refine ⟨by simp, fun locs' h => ⟨st.calls, ?_⟩⟩
      cases h
      exact hlocs
    case h_2 =>
      split
      case isTrue hne => exact ih (retry - 1) st.call (by omega) (by omega)
      case isFalse => simp
    case h_3 => simp

/-- A connection that fails blames a datanode of the pipeline: `createBlockOutputStream` sets
`errorIndex` to `0` before it looks for `firstBadLink`. -/
theorem createBlockOutputStream_blames {recovery : Bool} {st st' : RecoveringPipeline N}
    {e : HdfsError} (h : createBlockOutputStream cl recovery st = (.error e, st'))
    (hne : st.nodes ≠ []) :
    e.caughtByRecovery = true ∧ st'.nodes = st.nodes ∧
      ∃ i < st.nodes.length, st'.errorIndex = i := by
  have hpos : 0 < st.nodes.length := List.length_pos_of_ne_nil hne
  -- the datanode named by `firstBadLink`, or else the first
  have hbad : ∀ link, badLinkIndex st.nodes link < st.nodes.length := by
    intro link
    cases link with
    | none => exact hpos
    | some link =>
      show (st.nodes.findIdx? fun n => decide (n = link)).getD 0 < st.nodes.length
      cases hfind : st.nodes.findIdx? fun n => decide (n = link) with
      | none => exact hpos
      | some i => exact (List.findIdx?_eq_some_iff_getElem.1 hfind).1
  unfold createBlockOutputStream at h
  split at h
  case h_1 => cases h
  case h_2 _ link _ =>
    simp only [Prod.mk.injEq, Except.error.injEq] at h
    obtain ⟨rfl, rfl⟩ := h
    exact ⟨rfl, rfl, _, hbad link, rfl⟩
  case h_3 _ link _ =>
    simp only [Prod.mk.injEq, Except.error.injEq] at h
    obtain ⟨rfl, rfl⟩ := h
    exact ⟨rfl, rfl, _, hbad link, rfl⟩
  case h_4 =>
    simp only [Prod.mk.injEq, Except.error.injEq] at h
    obtain ⟨rfl, rfl⟩ := h
    exact ⟨rfl, rfl, 0, hpos, rfl⟩

omit [DecidableEq N] in
/-- With a datanode of the pipeline blamed, the retries are kept and that datanode is excluded. -/
theorem excludeBlamed_of_blamed (X : List N) (retry : Int) {st : RecoveringPipeline N} {i : Nat}
    (hi : i < st.nodes.length) (he : st.errorIndex = i) :
    excludeBlamed X retry st = .ok (X ++ [st.nodes[i]], retry) := by
  simp [excludeBlamed, he, List.getElem?_eq_getElem hi]

end Steps

/-! ## A set-up ends -/

section Bound

variable {cl nn conf} {all : List N}

/-- A namenode that puts a new block on datanodes of the cluster `all`, none of them excluded. -/
def AllocatesFrom (nn : BlockAllocator N) (all : List N) : Prop :=
  ∀ n excluded locs, nn.addBlock n excluded = .ok locs → ∀ x ∈ locs, x ∈ all ∧ x ∉ excluded

/-- Each pass of the loop excludes a datanode not excluded before, with the `addBlock` retries
starting again, or spends one of those retries. With `blockWriteRetry + 2` passes of fuel for each
datanode not yet excluded, and the retries left over, the loop ends. -/
theorem newBlockLoop_finishes (halloc : AllocatesFrom nn all) (hB : 0 ≤ conf.blockWriteRetry)
    {locateFuel : Nat} (hlocate : conf.blockWriteRetry.toNat < locateFuel) :
    ∀ (fuel r : Nat) (retry : Int) (X : List N) (st : RecoveringPipeline N),
      X.Nodup → X ⊆ all → r ≤ conf.blockWriteRetry.toNat + 1 →
      (all.length - X.length) * (conf.blockWriteRetry.toNat + 2) +
          (conf.blockWriteRetry.toNat + 1 - r) + 1 ≤ fuel →
      (newBlockLoop cl nn conf locateFuel fuel r retry X st).1 ≠ .error .outOfFuel := by
  intro fuel
  induction fuel with
  | zero => intros; omega
  | succ fuel ih =>
    intro r retry X st hnodup hsub hr hfuel
    obtain ⟨hlocfuel, hlocok⟩ := locateNextBlock_cases nn X locateFuel conf.blockWriteRetry
      { st with errorIndex := -1 } hB hlocate
    rw [newBlockLoop]
    rcases hloc : locateNextBlock nn X locateFuel conf.blockWriteRetry
      { st with errorIndex := -1 } with ⟨_ | locs, st₁⟩
    case error e =>
      rw [hloc] at hlocfuel
      cases e with
      | addBlock e =>
        cases e with
        | rpc =>
          -- another `addBlock` retry, within `blockWriteRetry + 1` of them
          dsimp only
          split
          case isTrue => simp
          case isFalse hle =>
            split
            case isTrue => exact ih _ _ _ _ hnodup hsub (by omega) (by omega)
            case isFalse => simp
        | notReplicatedYet => simp
        | other => simp
      | exception => simp
      | undefined => simp
      | outOfFuel => exact absurd rfl hlocfuel
    case ok =>
      obtain ⟨n, hadd⟩ := hlocok locs (by rw [hloc])
      have hfresh := halloc n X locs hadd
      dsimp only
      split
      case isTrue => simp
      case isFalse hne =>
        rcases hc : createBlockOutputStream cl false { st₁ with nodes := locs } with ⟨_ | e, st₂⟩
        case ok => simp
        case error =>
          obtain ⟨hcaught, hnodes, i, hi, he⟩ := createBlockOutputStream_blames hc hne
          dsimp only
          rw [if_pos hcaught]
          split
          case h_1 => simp
          case h_2 =>
            have hi' : i < st₂.call.nodes.length := by simpa [hnodes] using hi
            rw [excludeBlamed_of_blamed X retry hi' he]
            dsimp only
            split
            case isFalse => simp
            case isTrue =>
              -- the blamed datanode is one of the block's, so neither excluded nor outside `all`
              have hbad : st₂.call.nodes[i] ∈ locs := by
                simp only [nodes_call, hnodes] at hi' ⊢
                exact List.getElem_mem hi
              obtain ⟨hall, hnew⟩ := hfresh _ hbad
              have hnodup' : (X ++ [st₂.call.nodes[i]]).Nodup :=
                hnodup.append (List.nodup_singleton _) (by simpa using hnew)
              have hsub' : X ++ [st₂.call.nodes[i]] ⊆ all :=
                List.append_subset.2 ⟨hsub, by simpa using hall⟩
              have hlen : X.length + 1 ≤ all.length := by
                simpa using hnodup'.length_le_of_subset hsub'
              have hstep : (all.length - (X.length + 1)) * (conf.blockWriteRetry.toNat + 2) +
                  (conf.blockWriteRetry.toNat + 2) =
                    (all.length - X.length) * (conf.blockWriteRetry.toNat + 2) := by
                rw [← Nat.succ_mul]
                congr 1
                omega
              refine ih _ _ _ _ hnodup' hsub' (by omega) ?_
              simp only [List.length_append, List.length_singleton]
              omega

/-- The create of a pipeline ends within `blockWriteRetry + 2` passes for each datanode of the
cluster and `blockWriteRetry + 2` more, whatever the datanodes do, when the namenode puts new blocks
on datanodes of the cluster and never on an excluded one. -/
theorem buildForNewBlock_finishes (halloc : AllocatesFrom nn all) (hB : 0 ≤ conf.blockWriteRetry)
    (st : RecoveringPipeline N) {fuel : Nat}
    (hfuel : (all.length + 1) * (conf.blockWriteRetry.toNat + 2) ≤ fuel) :
    (buildForNewBlock cl nn conf fuel st).1 ≠ .error .outOfFuel := by
  have hmul : (all.length + 1) * (conf.blockWriteRetry.toNat + 2) =
      all.length * (conf.blockWriteRetry.toNat + 2) + (conf.blockWriteRetry.toNat + 2) :=
    Nat.succ_mul _ _
  rw [hmul] at hfuel
  refine newBlockLoop_finishes halloc hB (by omega) fuel 0 _ [] st List.nodup_nil
    (List.nil_subset _) (by omega) ?_
  simp only [List.length_nil, Nat.sub_zero]
  omega

/-- The constructor ends, for an append as for a create, whatever the datanodes do, when the
namenode picks datanodes from the cluster and never an excluded one, and the last block of an
append lies on distinct datanodes of the cluster. -/
theorem setup_finishes (hpick : PicksFrom cl all) (halloc : AllocatesFrom nn all)
    (hB : 0 ≤ conf.blockWriteRetry) (append : Bool) {locs : List N} (hnodup : locs.Nodup)
    (hsub : locs ⊆ all) (calls : Nat) {fuel : Nat}
    (hfuel : (all.length + 1) * (conf.blockWriteRetry.toNat + 2) ≤ fuel) :
    (setup cl nn conf fuel append locs calls).1 ≠ .error .outOfFuel := by
  have hmul : (all.length + 1) * (conf.blockWriteRetry.toNat + 2) =
      all.length * (conf.blockWriteRetry.toNat + 2) + (conf.blockWriteRetry.toNat + 2) :=
    Nat.succ_mul _ _
  have hle : all.length ≤ all.length * (conf.blockWriteRetry.toNat + 2) :=
    Nat.le_mul_of_pos_right _ (by omega)
  unfold setup
  cases append with
  | true =>
    have hrebuild : (buildForAppendOrRecovery cl conf fuel false
        ⟨locs, -1, .dataStreaming, calls⟩).1 ≠ .error .outOfFuel :=
      buildForAppendOrRecovery_finishes hpick false hnodup hsub (by omega)
    rw [if_pos rfl]
    split
    case h_1 => simp
    case h_2 e st hb =>
      rw [hb] at hrebuild
      cases e with
      | exception => simp [RecoveryFailure.toSetup]
      | undefined => simp [RecoveryFailure.toSetup]
      | outOfFuel => exact absurd rfl hrebuild
  | false =>
    have hcreate : (buildForNewBlock cl nn conf fuel ⟨[], -1, .dataStreaming, calls⟩).1 ≠
        .error .outOfFuel :=
      buildForNewBlock_finishes halloc hB _ hfuel
    rw [if_neg Bool.false_ne_true]
    split
    case h_1 => simp
    case h_2 e st hb =>
      rw [hb] at hcreate
      simpa using hcreate

/-- A namenode of the examples: the first datanode of `all` that is not excluded, or an exception
when there is none. -/
def allocFirstFree (all excluded : List N) : Except AddBlockError (List N) :=
  match all.find? fun x => decide (x ∉ excluded) with
  | some x => .ok [x]
  | none => .error (.other .ioException)

theorem allocFirstFree_allocates {excluded locs : List N}
    (h : allocFirstFree all excluded = .ok locs) : ∀ x ∈ locs, x ∈ all ∧ x ∉ excluded := by
  unfold allocFirstFree at h
  split at h
  case h_1 x hx =>
    cases h
    intro y hy
    rw [List.mem_singleton.1 hy]
    exact ⟨List.mem_of_find?_eq_some hx, by simpa using List.find?_some hx⟩
  case h_2 => cases h

/-- The namenode `allocFirstFree` over three datanodes. -/
def allocOnThree : BlockAllocator Nat where
  addBlock _ excluded := allocFirstFree [0, 1, 2] excluded
  abandonBlock _ := .ok ()

theorem allocatesFrom_allocOnThree : AllocatesFrom allocOnThree [0, 1, 2] :=
  fun _ _ _ => allocFirstFree_allocates

/-- Three datanodes of which every connection fails, five retries: a create abandons a block on
each datanode in turn and ends when the namenode has none left; an append of a block on `0` and `1`
ends likewise. Twenty-eight passes are enough. -/
theorem setup_finishes_on_three_datanodes :
    (setup connectsFailOnThree allocOnThree ⟨2, true, 5⟩ 28 false [0, 1] 0).1 ≠ .error .outOfFuel ∧
      (setup connectsFailOnThree allocOnThree ⟨2, true, 5⟩ 28 true [0, 1] 0).1 ≠
        .error .outOfFuel :=
  ⟨setup_finishes picksFrom_connectsFailOnThree allocatesFrom_allocOnThree (by decide) false
      (by decide) (by decide) 0 (by decide),
    setup_finishes picksFrom_connectsFailOnThree allocatesFrom_allocOnThree (by decide) true
      (by decide) (by decide) 0 (by decide)⟩

end Bound

/-! ## A create that connects forever -/

section Forever

variable {cl nn conf} {nodes : List N}

/-- A namenode that ignores the excluded datanodes and puts every new block on `nodes`, the first
of which refuses every connection, while abandoning a block succeeds: each pass blames a datanode,
keeps its retries and starts again. -/
theorem newBlockLoop_connects_forever (hadd : ∀ n X, nn.addBlock n X = .ok nodes)
    (hne : nodes ≠ []) (hfail : ∀ n, cl.writeBlock n nodes false ≠ .success)
    (habandon : ∀ n, nn.abandonBlock n = .ok ()) (hretry : conf.blockWriteRetry ≠ 0)
    {locateFuel : Nat} (hlocate : 0 < locateFuel) :
    ∀ (fuel r : Nat) (X : List N) (st : RecoveringPipeline N),
      (newBlockLoop cl nn conf locateFuel fuel r conf.blockWriteRetry X st).1 = .error .outOfFuel := by
  intro fuel
  induction fuel with
  | zero => intros; rfl
  | succ fuel ih =>
    intro r X st
    obtain ⟨k, rfl⟩ : ∃ k, locateFuel = k + 1 := ⟨locateFuel - 1, by omega⟩
    have hloc : locateNextBlock nn X (k + 1) conf.blockWriteRetry { st with errorIndex := -1 } =
        (.ok nodes, { st with errorIndex := -1 }.call) := by
      rw [locateNextBlock, hadd]
    rw [newBlockLoop, hloc]
    dsimp only
    rw [if_neg hne]
    split
    case h_1 st₂ hc =>
      -- the first datanode refuses, so the connection never succeeds
      unfold createBlockOutputStream at hc
      split at hc
      case h_1 hw => exact absurd hw (hfail _)
      all_goals cases hc
    case h_2 e st₂ hc =>
      obtain ⟨hcaught, hnodes, i, hi, he⟩ := createBlockOutputStream_blames hc hne
      have hi' : i < st₂.call.nodes.length := by simpa [hnodes] using hi
      rw [if_pos hcaught, habandon]
      dsimp only
      rw [excludeBlamed_of_blamed X _ hi' he]
      dsimp only
      rw [if_pos hretry]
      exact ih 0 _ _

theorem buildForNewBlock_connects_forever (hadd : ∀ n X, nn.addBlock n X = .ok nodes)
    (hne : nodes ≠ []) (hfail : ∀ n, cl.writeBlock n nodes false ≠ .success)
    (habandon : ∀ n, nn.abandonBlock n = .ok ()) (hretry : conf.blockWriteRetry ≠ 0)
    (fuel : Nat) (st : RecoveringPipeline N) :
    (buildForNewBlock cl nn conf fuel st).1 = .error .outOfFuel := by
  cases fuel with
  | zero => rfl
  | succ fuel =>
    exact newBlockLoop_connects_forever hadd hne hfail habandon hretry (Nat.succ_pos fuel) _ _ _ _

/-- A namenode that puts every new block on datanode `0`, whatever is excluded. -/
def allocIgnoringExcluded : BlockAllocator Nat where
  addBlock _ _ := .ok [0]
  abandonBlock _ := .ok ()

/-- Datanode `0` refuses every connection and five retries are configured: a thousand passes do
not set up the pipeline. -/
theorem buildForNewBlock_connects_forever_on_one_datanode :
    (buildForNewBlock connectsFailOnThree allocIgnoringExcluded ⟨2, true, 5⟩ 1000
      ⟨[], -1, .dataStreaming, 0⟩).1 = .error .outOfFuel :=
  buildForNewBlock_connects_forever (fun _ _ => rfl) (by decide) (fun _ h => by cases h)
    (fun _ => rfl) (by decide) 1000 _

end Forever

end RecoveringPipeline

end HdfsClient
