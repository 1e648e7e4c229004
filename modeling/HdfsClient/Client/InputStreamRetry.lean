import HdfsClient.Client.InputStream
import HdfsClient.Common.Exception

/-!
# Reading a file over failing datanodes

`InputStreamImpl` (`client/InputStreamImpl.cpp`) reads a block from one of its replicas. `choseBestNode`
takes the first replica that has not failed for the current block; `setupBlockReader` opens a
`LocalBlockReader` on it when short-circuit reads are on and the replica is on this host, or a
`RemoteBlockReader`. An `HdfsIOException` of a local reader retries the same replica remotely; of a
remote one, puts the replica in `failedNodes`. `readOneBlock` sets up a reader and reads: a failed
read of a local reader retries the replica remotely, of a remote one marks it failed. When every
replica has failed, `readOneBlock` answers `-1` if the caller may still refresh the block locations,
and `readInternal` refreshes them and tries again, counting down `updateMetadataOnFailure` from
`getMaxReadBlockRetry()`.

**The model.** `FailoverStream` is the stream of `InputStream.lean` with the datanode of the
reader, the failed replicas and the kind of the reader. The datanodes are an oracle (`Datanodes`),
answering each attempt in turn; the three `while (true)` loops have fuel.

* `binarySearch_failedNodes` — `std::binary_search` on the sorted `failedNodes` is membership by
  datanode id.
* `readInternal_refreshes_forever` — an `HdfsInvalidBlockToken` from every setup makes
  `readOneBlock` answer `-1` whatever the budget, and `readInternal` refresh the block locations
  round after round, without end.
-/

namespace HdfsClient

/-- How a read of the failover model ends: an exception, the null `curBlock` dereferenced, or the
model's fuel. -/
inductive ReadFailure
  | exception (e : HdfsError)
  | noCurrentBlock
  | outOfFuel
  deriving DecidableEq, Repr

/-- A datanode holding a replica (`DatanodeInfo`): its `datanodeId`, which `operator<` compares,
and whether its address is one of this host's (`isLocalNode`). -/
structure DatanodeInfo where
  datanodeId : Nat
  isLocal : Bool
  deriving DecidableEq, Repr

/-- `std::binary_search(failedNodes, node)` over `operator<`. -/
def binarySearch (nodes : List DatanodeInfo) (node : DatanodeInfo) : Bool :=
  Intervals.binarySearch DatanodeInfo.datanodeId nodes node.datanodeId

/-- `failedNodes.push_back(node); std::sort(failedNodes.begin(), failedNodes.end())`. `std::sort`
leaves the order of nodes with one id open; the model keeps the order they came in. -/
def addFailed (nodes : List DatanodeInfo) (node : DatanodeInfo) : List DatanodeInfo :=
  (nodes ++ [node]).mergeSort fun a b => decide (a.datanodeId ≤ b.datanodeId)

/-- What the session configuration gives the retries: `isReadFromLocal()`,
`doesNotRetryAnotherNode()` and `getMaxReadBlockRetry()`. -/
structure RetryConfig where
  readFromLocal : Bool
  notRetryAnotherNode : Bool
  maxReadBlockRetry : Int
  deriving DecidableEq, Repr

/-- What the datanodes answer, attempt by attempt: the replicas of each block, in the namenode's
order (`getLocations()`); a local reader (`ReadShortCircuitInfoBuilder::fetchOrCreate` and the
`LocalBlockReader` constructor, `false` when there is no short-circuit info); a remote reader (the
`RemoteBlockReader` constructor); and whether a read of a block reader throws. -/
structure Datanodes where
  locations : LocatedBlock → List DatanodeInfo
  setupLocal : Nat → DatanodeInfo → Except HdfsError Bool
  setupRemote : Nat → DatanodeInfo → Except HdfsError Unit
  readFails : Nat → Option HdfsError

/-- The stream with what failing datanodes add: the datanode of the reader (`curNode`), the replicas
that failed for the current block (`failedNodes`), whether the reader is a `LocalBlockReader`,
whether the current block is being written (`readFromUnderConstructedBlock`), and the attempts made,
by which the datanodes' answers are counted. -/
structure FailoverStream extends InputStreamImpl where
  curNode : Option DatanodeInfo
  failedNodes : List DatanodeInfo
  localReader : Bool
  readFromUnderConstructedBlock : Bool
  attempts : Nat

/-! ## Failed nodes -/

/-- The failed replicas are sorted by datanode id, as `std::sort` leaves them. -/
def SortedNodes (nodes : List DatanodeInfo) : Prop :=
  nodes.Pairwise fun a b => a.datanodeId ≤ b.datanodeId

namespace FailoverStream

variable (cl : Cluster) (dn : Datanodes) (conf : RetryConfig)

/-- `choseBestNode()`: the first replica of the block that has not failed. -/
def choseBestNode (f : FailoverStream) (b : LocatedBlock) : Option DatanodeInfo :=
  (dn.locations b).find? fun n => !binarySearch f.failedNodes n

/-- The loop of `setupBlockReader(temporaryDisableLocalRead)` on the block `b`, for at most `fuel`
more rounds: the best replica, a local reader on it when short-circuit reads are on, the replica
is on this host and this is not the retry of a local reader, or else a remote reader. An
`HdfsIOException` of a local reader (or no short-circuit info) retries the replica remotely; of a
remote reader, marks it failed. With no replica left, "all nodes have been tried". -/
def setupBlockReaderLoop (tmpDisable : Bool) (b : LocatedBlock) :
    Nat → Bool → FailoverStream → Except ReadFailure Unit × FailoverStream
  | 0, _, f => (.error .outOfFuel, f)
  | fuel + 1, lastReadFromLocal, f =>
    match f.choseBestNode dn b with
    | none => (.error (.exception .ioException), f)
    | some node =>
      let n := f.attempts
      let f := { f with curNode := some node, attempts := n + 1 }
      let reader : BlockReader := ⟨b, f.cursor - b.offset⟩
      if !tmpDisable && !lastReadFromLocal && !f.readFromUnderConstructedBlock &&
          conf.readFromLocal && node.isLocal then
        match dn.setupLocal n node with
        | .ok true => (.ok (), { f with blockReader := some reader, localReader := true })
        | .ok false => setupBlockReaderLoop tmpDisable b fuel true f
        | .error e =>
          if e.isIOException then setupBlockReaderLoop tmpDisable b fuel true f
          else (.error (.exception e), f)
      else
        match dn.setupRemote n node with
        | .ok () => (.ok (), { f with blockReader := some reader, localReader := false })
        | .error e =>
          if e.isIOException then
            setupBlockReaderLoop tmpDisable b fuel false
              { f with failedNodes := addFailed f.failedNodes node }
          else (.error (.exception e), f)

/-- `setupBlockReader(temporaryDisableLocalRead)`, with two rounds for each replica, a local and a
remote try, and two more. -/
def setupBlockReader (tmpDisable : Bool) (f : FailoverStream) : Except ReadFailure Unit × FailoverStream :=
  match f.curBlock with
  | none => (.error .noCurrentBlock, f)
  | some b => setupBlockReaderLoop dn conf tmpDisable b (2 * (dn.locations b).length + 2) false f

/-- The loop of `readOneBlock(buf, size, shouldUpdateMetadataOnFailure)`, for at most `fuel` more
rounds: a reader when there is none, then a read up to the end of the block. `.ok none` is its
`return -1`: an `HdfsInvalidBlockToken` of the setup, or an `HdfsIOException` of the setup when
the caller may refresh the block locations. A failed read, an `HdfsIOException` (unless the
configuration says not to retry) or a `ChecksumException`, retries the replica remotely after a
local reader, or marks it failed after a remote one. -/
def readOneBlockLoop (size : Nat) (shouldUpdate : Bool) :
    Nat → Bool → FailoverStream → Except ReadFailure (Option (List UInt8)) × FailoverStream
  | 0, _, f => (.error .outOfFuel, f)
  | fuel + 1, tmpDisable, f =>
    let setup := if f.blockReader.isNone then f.setupBlockReader dn conf tmpDisable else (.ok (), f)
    match setup with
    | (.error (.exception e), f) =>
      if e = .invalidBlockToken ∨ (e.isIOException ∧ shouldUpdate) then (.ok none, f)
      else (.error (.exception e), f)
    | (.error e, f) => (.error e, f)
    | (.ok (), f) =>
      match f.blockReader with
      | none => (.error .noCurrentBlock, f)
      | some r =>
        let n := f.attempts
        let f := { f with attempts := n + 1 }
        match dn.readFails n with
        | none =>
          let bytes := r.read cl f.readerCalls (min size (f.endOfCurBlock - f.cursor))
          (.ok (some bytes), { f with
            cursor := f.cursor + bytes.length
            blockReader := some { r with cursor := r.cursor + bytes.length }
            readerCalls := f.readerCalls + 1 })
        | some e =>
          if (e.isIOException && !conf.notRetryAnotherNode) || e = .checksum then
            if f.localReader then readOneBlockLoop size shouldUpdate fuel true { f with blockReader := none }
            else
              readOneBlockLoop size shouldUpdate fuel false { f with
                blockReader := none
                failedNodes := match f.curNode with
                  | some node => addFailed f.failedNodes node
                  | none => f.failedNodes }
          else (.error (.exception e), f)

/-- `readOneBlock(buf, size, shouldUpdateMetadataOnFailure)`, with two rounds for each replica, a
local and a remote reader, and four more. -/
def readOneBlock (size : Nat) (shouldUpdate : Bool) (f : FailoverStream) :
    Except ReadFailure (Option (List UInt8)) × FailoverStream :=
  let replicas := match f.curBlock with
    | some b => (dn.locations b).length
    | none => 0
  readOneBlockLoop cl dn conf size shouldUpdate (2 * replicas + 4) false f

/-- `seekToBlock(lb)`: the block to read next, with no reader and no failed replica; it is being
written when the cursor is past the complete blocks. -/
def seekToBlock (f : FailoverStream) (lb : LocatedBlock) : FailoverStream :=
  { f with
    toInputStreamImpl := f.toInputStreamImpl.seekToBlock lb
    readFromUnderConstructedBlock := decide (f.cursor ≥ (f.lbs.map (·.fileLength)).getD 0)
    failedNodes := [] }

/-- The `catch` blocks of `readInternal`: `HdfsCanceled` and `HdfsEndOfStream` go through, any
other exception is nested in an `HdfsIOException` ("cannot read file"). -/
def wrapReadInternal : ReadFailure → ReadFailure
  | .exception .canceled => .exception .canceled
  | .exception .endOfStream => .exception .endOfStream
  | .exception _ => .exception .ioException
  | e => e

/-- The loop of `readInternal(buf, size)`, with `updateMetadataOnFailure` at `budget`, for at most
`fuel` more rounds: fresh block locations when there are none, when the cursor is at the end of the
file or past the current block with no known block holding it; the end of the stream if the cursor
is still at the end of the file; the block that holds the cursor; then `readOneBlock`, whose `-1`
drops the block locations and goes round again with one less in the budget. -/
def readInternalLoop (size : Nat) :
    Nat → Int → FailoverStream → Except ReadFailure (List UInt8) × FailoverStream
  | 0, _, f => (.error .outOfFuel, f)
  | fuel + 1, budget, f =>
    let update := f.lbs.isNone || decide (f.cursor ≥ f.getFileLength) ||
      (decide (f.cursor ≥ f.endOfCurBlock) && (f.lbs.bind (·.findBlock f.cursor)).isNone)
    let f := if update then { f with toInputStreamImpl := f.updateBlockInfos cl } else f
    if update = true ∧ f.cursor ≥ f.getFileLength then (.error (.exception .endOfStream), f)
    else
      let sought := if f.cursor ≥ f.endOfCurBlock then
          (f.lbs.bind (·.findBlock f.cursor)).map f.seekToBlock
        else some f
      match sought with
      | none => (.error (.exception .ioException), f)
      | some f =>
        match f.readOneBlock cl dn conf size (decide (budget > 0)) with
        | (.ok (some bytes), f) => (.ok bytes, f)
        | (.ok none, f) => readInternalLoop size fuel (budget - 1) { f with lbs := none, endOfCurBlock := 0 }
        | (.error e, f) => (.error (wrapReadInternal e), f)

/-! ## Every setup rejects the block token -/

section Token

variable {cl : Cluster} {dn : Datanodes} {conf : RetryConfig}

/-- Without failed replicas, the best replica is the first. -/
theorem choseBestNode_of_failedNodes_nil {f : FailoverStream} (h : f.failedNodes = [])
    {b : LocatedBlock} {node : DatanodeInfo} {nodes : List DatanodeInfo}
    (hloc : dn.locations b = node :: nodes) : f.choseBestNode dn b = some node := by
  have hnot : binarySearch f.failedNodes node = false := by
    rw [h]
    rfl
  rw [choseBestNode, hloc, List.find?_cons, hnot]
  rfl

/-- With short-circuit reads off and every remote setup rejecting the token, `setupBlockReader`
tries the best replica once, and throws `HdfsInvalidBlockToken`. -/
theorem setupBlockReader_token (hlocal : conf.readFromLocal = false)
    (htoken : ∀ n node, dn.setupRemote n node = .error .invalidBlockToken) {f : FailoverStream}
    {b : LocatedBlock} (hb : f.curBlock = some b) {node : DatanodeInfo}
    (hnode : f.choseBestNode dn b = some node) (tmpDisable : Bool) :
    f.setupBlockReader dn conf tmpDisable =
      (.error (.exception .invalidBlockToken),
        { f with curNode := some node, attempts := f.attempts + 1 }) := by
  rw [setupBlockReader, hb]
  dsimp only
  rw [show 2 * (dn.locations b).length + 2 = (2 * (dn.locations b).length + 1) + 1 from rfl,
    setupBlockReaderLoop, hnode]
  simp only [hlocal, Bool.and_false, htoken]
  rfl

/-- Then `readOneBlock` answers `-1`, whether the caller may refresh the block locations or not. -/
theorem readOneBlock_token (hlocal : conf.readFromLocal = false)
    (htoken : ∀ n node, dn.setupRemote n node = .error .invalidBlockToken) {f : FailoverStream}
    (hreader : f.blockReader = none) {b : LocatedBlock} (hb : f.curBlock = some b)
    {node : DatanodeInfo} (hnode : f.choseBestNode dn b = some node) (size : Nat)
    (shouldUpdate : Bool) :
    f.readOneBlock cl dn conf size shouldUpdate =
      (.ok none, { f with curNode := some node, attempts := f.attempts + 1 }) := by
  rw [readOneBlock, hb]
  dsimp only
  rw [readOneBlockLoop]
  simp only [hreader, Option.isNone_none, if_true, setupBlockReader_token hlocal htoken hb hnode]
  rfl

variable (cl) in
/-- Fresh block locations leave the cursor and the current block as they are. -/
theorem updateBlockInfos_frame (s : InputStreamImpl) :
    (s.updateBlockInfos cl).cursor = s.cursor ∧ (s.updateBlockInfos cl).endOfCurBlock = s.endOfCurBlock ∧
      (s.updateBlockInfos cl).blockReader = s.blockReader := by
  dsimp only [InputStreamImpl.updateBlockInfos]
  split
  · exact ⟨rfl, rfl, rfl⟩
  · split <;> exact ⟨rfl, rfl, rfl⟩

variable (cl) in
/-- Fresh block locations read only the cursor once the old ones are dropped. -/
theorem updateBlockInfos_of_lbs_none {s t : InputStreamImpl} (hs : s.lbs = none) (ht : t.lbs = none)
    (hc : s.cursor = t.cursor) :
    (s.updateBlockInfos cl).lbs = (t.updateBlockInfos cl).lbs ∧
      (s.updateBlockInfos cl).getFileLength = (t.updateBlockInfos cl).getFileLength := by
  simp only [InputStreamImpl.updateBlockInfos, hs, ht, hc]
  split
  · exact ⟨rfl, rfl⟩
  · split <;> exact ⟨rfl, rfl⟩

/-- **Refreshing without end.** With short-circuit reads off, every remote setup rejecting the
block token, and a cursor `c` that fresh block locations put inside a block with a replica, a round
of `readInternal` without block locations refreshes them, seeks to the block, gets `-1` from
`readOneBlock` whatever the budget, and drops the locations again: no number of rounds ends the
loop, long after `updateMetadataOnFailure` has run out. -/
theorem readInternal_refreshes_forever (hlocal : conf.readFromLocal = false)
    (htoken : ∀ n node, dn.setupRemote n node = .error .invalidBlockToken) {c : Nat}
    (hlen : c < ({ InputStreamImpl.init with cursor := c }.updateBlockInfos cl).getFileLength)
    {b : LocatedBlock}
    (hfind : ({ InputStreamImpl.init with cursor := c }.updateBlockInfos cl).lbs.bind
      (·.findBlock c) = some b)
    (hloc : dn.locations b ≠ []) (size : Nat) :
    ∀ (fuel : Nat) (budget : Int) (f : FailoverStream), f.lbs = none → f.endOfCurBlock ≤ f.cursor →
      f.cursor = c →
      (readInternalLoop cl dn conf size fuel budget f).1 = .error .outOfFuel := by
  obtain ⟨node, nodes, hnodes⟩ := List.exists_cons_of_ne_nil hloc
  -- induction on the rounds: each one ends where it started, the locations dropped
  intro fuel
  induction fuel with
  | zero => intro _ _ _ _ _; rfl
  | succ fuel ih =>
    intro budget f hlbs hend hc
    obtain ⟨hcur, hendU, -⟩ := updateBlockInfos_frame cl f.toInputStreamImpl
    obtain ⟨hlbsU, hlenU⟩ := updateBlockInfos_of_lbs_none cl (t := { InputStreamImpl.init with
      cursor := c }) hlbs rfl hc
    -- the round refreshes, seeks to `b`, and `readOneBlock` answers `-1`
    have hupdate : (f.lbs.isNone || decide (f.cursor ≥ f.getFileLength) ||
        (decide (f.cursor ≥ f.endOfCurBlock) && (f.lbs.bind (·.findBlock f.cursor)).isNone)) = true := by
      simp [hlbs]
    have hnode : (FailoverStream.seekToBlock { f with toInputStreamImpl := f.updateBlockInfos cl } b).choseBestNode
        dn b = some node :=
      choseBestNode_of_failedNodes_nil rfl hnodes
    rw [readInternalLoop]
    simp only [hupdate, if_true, true_and, hcur, hendU]
    rw [if_neg (not_le.mpr (hc ▸ hlenU ▸ hlen)), if_pos hend, hc, hlbsU, hfind, Option.map_some]
    dsimp only
    rw [readOneBlock_token hlocal htoken rfl rfl hnode]
    -- the next round starts as this one did
    exact ih _ _ rfl (Nat.zero_le _) (hcur.trans hc)

/-- A file of three bytes in one complete block. -/
def oneBlockFile : Cluster where
  file := [1, 2, 3]
  getBlockLocations := fun _ => ⟨3, true, some ⟨0, 3⟩, [⟨0, 3⟩]⟩
  readBlockLength := fun _ => 0
  readSize := fun _ size => size

/-- One datanode, remote, that rejects the block token of every request. -/
def tokenRejecting : Datanodes where
  locations := fun _ => [⟨1, false⟩]
  setupLocal := fun _ _ => .ok false
  setupRemote := fun _ _ => .error .invalidBlockToken
  readFails := fun _ => none

/-- With three refreshes allowed, a read of one byte from the start of the file is still going after
a hundred rounds. -/
theorem readInternal_refreshes_forever_on_one_replica :
    (readInternalLoop oneBlockFile tokenRejecting ⟨false, false, 3⟩ 1 100 3
      ⟨InputStreamImpl.init, none, [], false, false, 0⟩).1 = .error .outOfFuel :=
  readInternal_refreshes_forever (c := 0) (b := ⟨0, 3⟩) rfl (fun _ _ => rfl) (by decide +kernel)
    (by decide +kernel) (by decide) 1 100 3 _
    rfl (le_refl 0) rfl

end Token

end FailoverStream

end HdfsClient
