import HdfsClient.Lib.Retry
import HdfsClient.Client.InputStreamRetry
import HdfsClient.Common.SessionConfig

/-!
# Refreshing the block locations over a failing namenode and failing replicas

`InputStreamImpl::updateBlockInfos` (`client/InputStreamImpl.cpp`) asks the namenode for the blocks
from the cursor on, in at most `maxGetBlockInfoRetry` rounds. When the last block is still being
written, `readBlockLength` asks its replicas in turn how much of it can be read: the first that
answers a length gives it; when every replica says it does not know the replica, the pipeline is
still being set up and the block is empty; otherwise the length is unknown (`-1`). An unknown
length, and an `HdfsRpcException` of the namenode, are retried; after the last round they are
thrown. `InputStream.lean` models the same refresh as one call that always succeeds.

**The model.** The rounds are a `Retry.loop`; the namenode and the datanodes are an oracle
(`BlockInfoSource`) answering each call in turn, counted by `nnCalls` and `dnCalls`. The cursor
and the prefetch size do not change between rounds, so the oracle's answer for a call stands for
the answer to `getBlockLocations(path, cursor, prefetchSize)`.

* `updateBlockInfos_gives_up` — at most `maxGetBlockInfoRetry` calls of the namenode, and all of
  them before the RPC failure or the unknown length is thrown.
* `openInternal_refreshed` — with every configuration the `SessionConfig` constructor accepts, a
  successful open leaves block information, and a visible length of the last block that is not
  the `-1` marker and is that block's length.
* `updateBlockInfos_refines` — when the namenode answers and the replicas report a length, the
  first round succeeds with exactly the refresh of `InputStream.lean`.
-/

namespace HdfsClient

/-- How `getReplicaVisibleLength` on one replica fails: the `ReplicaNotFoundException` that
`DatanodeImpl` unwraps from the datanode's answer, or another exception. -/
inductive VisibleLengthError
  | replicaNotFound
  | exception (e : HdfsError)
  deriving DecidableEq, Repr

/-- How `getBlockLocations` fails: an `HdfsRpcException`, which `updateBlockInfos` retries, or
another exception (`FileNotFoundException`, `AccessControlException`, ...). -/
inductive LocationsError
  | rpc
  | other (e : HdfsError)
  deriving DecidableEq, Repr

/-- How `updateBlockInfos` fails. -/
inductive BlockInfoError
  /-- The `HdfsRpcException` of the namenode in the last round, rethrown. -/
  | rpc
  /-- `HdfsIOException` "failed to get block visible length for Block: %s from all Datanode." -/
  | lengthUnknown
  /-- Another exception of the namenode. -/
  | locations (e : HdfsError)
  /-- An exception of a replica that `readBlockLength` does not catch. -/
  | datanode (e : HdfsError)
  deriving DecidableEq, Repr

/-- What the refresh asks of the cluster: the replicas of a block (`getLocations()`), the
namenode's answer to the `n`-th `getBlockLocations`, and a replica's answer to the `n`-th
`getReplicaVisibleLength`. -/
structure BlockInfoSource where
  locations : LocatedBlock → List DatanodeInfo
  getBlockLocations : Nat → Except LocationsError LocatedBlocks
  getReplicaVisibleLength : Nat → DatanodeInfo → LocatedBlock → Except VisibleLengthError Int

/-- The stream's state that a refresh reads and writes: `lbs`, `lastBlockBeingWrittenLength` (an
`int64_t`, which holds the `-1` of an unknown length), and the calls made so far of the namenode
and of the datanodes. -/
structure RefreshingStream where
  lbs : Option LocatedBlocks
  lastBlockBeingWrittenLength : Int
  nnCalls : Nat
  dnCalls : Nat

namespace RefreshingStream

variable (src : BlockInfoSource)

/-! ## `readBlockLength` -/

/-- The loop of `readBlockLength(b)` over the replicas still to ask. A length of zero or more is
the answer; a `ReplicaNotFoundException` counts down `replicaNotFoundCount`; an `HdfsIOException`
or a negative length moves on to the next replica; another exception escapes. After the last
replica, `0` when every one said it does not know the replica, and `-1` otherwise. -/
def readBlockLengthLoop (b : LocatedBlock) :
    List DatanodeInfo → Int → Nat → Except HdfsError Int × Nat
  | [], replicaNotFoundCount, n => (.ok (if replicaNotFoundCount = 0 then 0 else -1), n)
  | node :: nodes, replicaNotFoundCount, n =>
    match src.getReplicaVisibleLength n node b with
    | .ok len =>
      if len ≥ 0 then (.ok len, n + 1)
      else readBlockLengthLoop b nodes replicaNotFoundCount (n + 1)
    | .error .replicaNotFound => readBlockLengthLoop b nodes (replicaNotFoundCount - 1) (n + 1)
    | .error (.exception e) =>
      if e.isIOException then readBlockLengthLoop b nodes replicaNotFoundCount (n + 1)
      else (.error e, n + 1)

/-- `readBlockLength(b)`, from the `n`-th call of the datanodes on. -/
def readBlockLength (b : LocatedBlock) (n : Nat) : Except HdfsError Int × Nat :=
  readBlockLengthLoop src b (src.locations b) (src.locations b).length n

theorem readBlockLengthLoop_ok (b : LocatedBlock) :
    ∀ (nodes : List DatanodeInfo) (count : Int) (n : Nat) {v : Int},
      (readBlockLengthLoop src b nodes count n).1 = .ok v → v = -1 ∨ 0 ≤ v
  | [], count, n, v, h => by
    simp only [readBlockLengthLoop, Except.ok.injEq] at h
    by_cases hc : count = 0
    · rw [if_pos hc] at h
      exact .inr (h ▸ le_refl 0)
    · rw [if_neg hc] at h
      exact .inl h.symm
  | node :: nodes, count, n, v, h => by
    simp only [readBlockLengthLoop] at h
    split at h
    case h_1 len _ =>
      by_cases hlen : len ≥ 0
      · rw [if_pos hlen] at h
        cases h
        exact .inr hlen
      · rw [if_neg hlen] at h
        exact readBlockLengthLoop_ok b nodes count (n + 1) h
    case h_2 => exact readBlockLengthLoop_ok b nodes (count - 1) (n + 1) h
    case h_3 e _ =>
      by_cases he : e.isIOException = true
      · rw [if_pos he] at h
        exact readBlockLengthLoop_ok b nodes count (n + 1) h
      · rw [if_neg he] at h
        cases h

/-- **`readBlockLength` answers `-1` or a length of zero or more**, so the test `== -1` of
`updateBlockInfos` catches every failure it does not throw. -/
theorem readBlockLength_ok {b : LocatedBlock} {n : Nat} {v : Int}
    (h : (readBlockLength src b n).1 = .ok v) : v = -1 ∨ 0 ≤ v :=
  readBlockLengthLoop_ok src b _ _ n h

/-- When every replica says it does not know the replica, the block reads as empty: the race
between the start and the end of the pipeline's setup. -/
theorem readBlockLengthLoop_not_found (b : LocatedBlock) :
    ∀ (nodes : List DatanodeInfo) (count : Int) (n : Nat),
      (∀ i (hi : i < nodes.length),
        src.getReplicaVisibleLength (n + i) (nodes.get ⟨i, hi⟩) b = .error .replicaNotFound) →
      readBlockLengthLoop src b nodes (count + nodes.length) n =
        (.ok (if count = 0 then 0 else -1), n + nodes.length)
  | [], count, n, _ => by
    simp only [List.length_nil, Nat.cast_zero, add_zero, readBlockLengthLoop]
  | node :: nodes, count, n, hall => by
    have hhead := hall 0 (Nat.zero_lt_succ _)
    simp only [Nat.add_zero, List.get_eq_getElem, List.getElem_cons_zero] at hhead
    have hrest : ∀ i (hi : i < nodes.length),
        src.getReplicaVisibleLength (n + 1 + i) (nodes.get ⟨i, hi⟩) b = .error .replicaNotFound := by
      intro i hi
      rw [show n + 1 + i = n + (i + 1) by omega]
      exact hall (i + 1) (Nat.succ_lt_succ hi)
    have hcount : count + ((node :: nodes).length : Int) - 1 = count + nodes.length := by
      simp only [List.length_cons, Nat.cast_add, Nat.cast_one]
      omega
    rw [readBlockLengthLoop, hhead]
    dsimp only
    rw [hcount, readBlockLengthLoop_not_found b nodes count (n + 1) hrest, List.length_cons,
      Nat.add_assoc, Nat.add_comm 1]

/-- **A block no replica knows reads as empty.** When every replica of the block throws
`ReplicaNotFoundException`, `readBlockLength` asks each once and answers `0`, not the `-1` of an
unknown length. -/
theorem readBlockLength_not_found {b : LocatedBlock} {n : Nat}
    (hall : ∀ i (hi : i < (src.locations b).length),
      src.getReplicaVisibleLength (n + i) ((src.locations b).get ⟨i, hi⟩) b = .error .replicaNotFound) :
    readBlockLength src b n = (.ok 0, n + (src.locations b).length) := by
  have h := readBlockLengthLoop_not_found src b (src.locations b) 0 n hall
  rw [zero_add, if_pos rfl] at h
  exact h

/-- Two replicas of a block whose pipeline is still being set up: neither knows the replica. -/
def notYetCreated : BlockInfoSource where
  locations _ := [⟨1, false⟩, ⟨2, false⟩]
  getBlockLocations _ := .error .rpc
  getReplicaVisibleLength _ _ _ := .error .replicaNotFound

theorem readBlockLength_not_found_on_new_pipeline :
    readBlockLength notYetCreated ⟨4, 0⟩ 0 = (.ok 0, 0 + (notYetCreated.locations ⟨4, 0⟩).length) :=
  readBlockLength_not_found notYetCreated fun _ _ => rfl

/-! ## `updateBlockInfos` -/

/-- One round of the loop of `updateBlockInfos()`: a new `LocatedBlocksImpl` when there is none,
then `getBlockLocations` into it, whose `HdfsRpcException` is retried. A complete last block, or
none, is read whole; otherwise its replicas are asked for its visible length, which becomes its
length, and an unknown length is retried. -/
def round (st : RefreshingStream) : Retry.Round BlockInfoError Unit × RefreshingStream :=
  let lbs := st.lbs.getD LocatedBlocks.empty
  let asked := { st with lbs := some lbs, nnCalls := st.nnCalls + 1 }
  match src.getBlockLocations st.nnCalls with
  | .error .rpc => (.again .rpc, asked)
  | .error (.other e) => (.done (.error (.locations e)), asked)
  | .ok proto =>
    let lbs := lbs.convert proto
    let got := { asked with lbs := some lbs }
    if lbs.isLastBlockComplete then (.done (.ok ()), { got with lastBlockBeingWrittenLength := 0 })
    else
      match lbs.lastBlock with
      | none => (.done (.ok ()), { got with lastBlockBeingWrittenLength := 0 })
      | some last =>
        match readBlockLength src last st.dnCalls with
        | (.error e, n) => (.done (.error (.datanode e)), { got with dnCalls := n })
        | (.ok len, n) =>
          let measured := { got with lastBlockBeingWrittenLength := len, dnCalls := n }
          if len = -1 then (.again .lengthUnknown, measured)
          else
            (.done (.ok ()), { measured with
              lbs := some { lbs with lastBlock := some { last with numBytes := len.toNat } } })

/-- `updateBlockInfos()`: at most `maxGetBlockInfoRetry` rounds. A loop that runs none leaves the
stream as it was. -/
def updateBlockInfos (maxGetBlockInfoRetry : Int) (st : RefreshingStream) :
    Except BlockInfoError Unit × RefreshingStream :=
  Retry.loop (round src) (.ok ()) maxGetBlockInfoRetry.toNat st

/-- The stream before `openInternal`: no block information, the constructor's length `0`. -/
def init : RefreshingStream := ⟨none, 0, 0, 0⟩

/-- `openInternal(fs, path, verify)`, as far as the block information goes: `maxGetBlockInfoRetry`
from the session configuration, then `updateBlockInfos()`. -/
def openInternal (m : SessionConfig.Members) : Except BlockInfoError Unit × RefreshingStream :=
  updateBlockInfos src (m.int32s .maxGetBlockInfoRetry).toInt init

/-- What a successful refresh leaves: block information, and a visible length of the last block
that is not the `-1` of an unknown length and, while that block is being written, is its
length. -/
def Refreshed (st : RefreshingStream) : Prop :=
  ∃ lbs, st.lbs = some lbs ∧ 0 ≤ st.lastBlockBeingWrittenLength ∧
    (lbs.isLastBlockComplete = false →
      ∀ b, lbs.lastBlock = some b → (b.numBytes : Int) = st.lastBlockBeingWrittenLength)

/-! ## What one round does -/

/-- **What a round can do.** It asks the namenode once; it asks for another round only after an
RPC failure or an unknown length; and a round that succeeds leaves a refreshed stream. -/
theorem round_nnCalls (st : RefreshingStream) : (round src st).2.nnCalls = st.nnCalls + 1 := by
  simp only [round]
  split
  case h_1 => rfl
  case h_2 => rfl
  case h_3 =>
    split
    case isTrue => rfl
    case isFalse =>
      split
      case h_1 => rfl
      case h_2 =>
        split
        case h_1 => rfl
        case h_2 =>
          split
          case isTrue => rfl
          case isFalse => rfl

theorem round_done_error {st : RefreshingStream} {e : BlockInfoError}
    (h : (round src st).1 = .done (.error e)) : e ≠ .rpc ∧ e ≠ .lengthUnknown := by
  simp only [round] at h
  split at h
  case h_1 => cases h
  case h_2 => cases h; exact ⟨nofun, nofun⟩
  case h_3 =>
    split at h
    case isTrue => cases h
    case isFalse =>
      split at h
      case h_1 => cases h
      case h_2 =>
        split at h
        case h_1 => cases h; exact ⟨nofun, nofun⟩
        case h_2 =>
          split at h
          case isTrue => cases h
          case isFalse => cases h

theorem round_ok {st : RefreshingStream} (h : (round src st).1 = .done (.ok ())) :
    Refreshed (round src st).2 := by
  revert h
  simp only [round]
  split
  case h_1 => intro h; cases h
  case h_2 => intro h; cases h
  case h_3 proto _ =>
    split
    case isTrue hcomplete =>
      intro _
      exact ⟨_, rfl, le_refl 0, fun hnot => absurd hcomplete (by rw [hnot]; decide)⟩
    case isFalse =>
      split
      case h_1 hnone =>
        intro _
        exact ⟨_, rfl, le_refl 0, fun _ b hb => absurd (hnone ▸ hb) nofun⟩
      case h_2 last _ =>
        split
        case h_1 => intro h; cases h
        case h_2 len n hlen =>
          split
          case isTrue => intro h; cases h
          case isFalse hne =>
            intro _
            have hpos : 0 ≤ len := (readBlockLength_ok src (by rw [hlen])).resolve_left hne
            refine ⟨_, rfl, hpos, fun _ b hb => ?_⟩
            cases hb
            exact Int.toNat_of_nonneg hpos

/-! ## The loop -/

/-- **The refresh gives up only after its last round.** It calls the namenode at most
`maxGetBlockInfoRetry` times, and all of them before it throws the namenode's RPC failure or the
unknown length of the last block. -/
theorem updateBlockInfos_gives_up (retry : Int) (st : RefreshingStream) :
    (updateBlockInfos src retry st).2.nnCalls ≤ st.nnCalls + retry.toNat ∧
      ((updateBlockInfos src retry st).1 = .error .rpc ∨
          (updateBlockInfos src retry st).1 = .error .lengthUnknown →
        (updateBlockInfos src retry st).2.nnCalls = st.nnCalls + retry.toNat) := by
  refine ⟨Retry.loop_calls_le nnCalls (round_nnCalls src) _ _, fun hfail => ?_⟩
  have hcalls := @Retry.loop_exhausted _ _ _ (round src) (.ok ()) nnCalls (round_nnCalls src)
    (fun e => e = .rpc ∨ e = .lengthUnknown)
    (fun s e hdone hq => by
      obtain ⟨hrpc, hlen⟩ := round_done_error src hdone
      rcases hq with hq | hq
      · exact hrpc hq
      · exact hlen hq)
  unfold updateBlockInfos at hfail ⊢
  cases hn : retry.toNat with
  | zero =>
    rw [hn] at hfail
    rcases hfail with h | h <;> cases h
  | succ n =>
    rw [hn] at hfail
    rcases hfail with h | h
    · exact hcalls n st .rpc h (.inl rfl)
    · exact hcalls n st .lengthUnknown h (.inr rfl)

/-- With one round or more, a refresh that succeeds leaves a refreshed stream: the last round it
ran succeeded. -/
theorem updateBlockInfos_refreshed {retry : Int} (hretry : 1 ≤ retry) {st : RefreshingStream}
    (h : (updateBlockInfos src retry st).1 = .ok ()) : Refreshed (updateBlockInfos src retry st).2 := by
  obtain ⟨n, hn⟩ : ∃ n, retry.toNat = n + 1 := ⟨retry.toNat - 1, by omega⟩
  unfold updateBlockInfos at h ⊢
  rw [hn] at h ⊢
  obtain ⟨s₀, -, hstate, hres | ⟨e, -, herr⟩⟩ :=
    @Retry.loop_cases _ _ _ (round src) (.ok ()) (fun _ => True) (fun _ _ => trivial) n st trivial
  · rw [h] at hres
    rw [← hstate]
    exact round_ok src hres
  · rw [h] at herr
    cases herr

/-- **A successful open leaves block information and a real visible length.** With every
configuration the `SessionConfig` constructor accepts, `input.read.getblockinfo.retry` is at
least one, so an `openInternal` whose refresh succeeds leaves `lbs` set, and a visible length of
the last block that is not the `-1` marker and is that block's length while it is written. -/
theorem openInternal_refreshed {conf : Config} {m : SessionConfig.Members}
    (hconf : SessionConfig.Members.new conf = .ok m) (h : (openInternal src m).1 = .ok ()) :
    Refreshed (openInternal src m).2 :=
  updateBlockInfos_refreshed src
    (SessionConfig.new_int32_rangeGE hconf (show ⟨.maxGetBlockInfoRetry,
      "input.read.getblockinfo.retry".toList, (3 : Int32), SessionConfig.rangeGE Int32.toInt 1⟩ ∈
        SessionConfig.i32Values by simp [SessionConfig.i32Values])) h

/-- A file of a complete block of 4 bytes and a last block being written at offset 4, whose one
replica reports 3 visible bytes, behind a namenode whose first call fails over RPC. -/
def writtenFile : BlockInfoSource where
  locations _ := [⟨7, false⟩]
  getBlockLocations n := if n = 0 then .error .rpc else .ok ⟨4, false, some ⟨4, 0⟩, [⟨0, 4⟩, ⟨4, 0⟩]⟩
  getReplicaVisibleLength _ _ _ := .ok 3

theorem openInternal_refreshed_after_rpc_failure :
    ∃ m, SessionConfig.Members.new ⟨[], []⟩ = .ok m ∧ (openInternal writtenFile m).1 = .ok () ∧
      Refreshed (openInternal writtenFile m).2 :=
  ⟨_, rfl, rfl, @openInternal_refreshed writtenFile ⟨[], []⟩ _ rfl rfl⟩

/-! ## The single-call refresh of `InputStream.lean` -/

/-- A round whose namenode answers as the cluster of `InputStream.lean` does at the cursor, and
whose replicas report the lengths that cluster gives, succeeds with that model's refresh. -/
theorem round_refines {s : InputStreamImpl} {cl : Cluster} {st : RefreshingStream}
    (hlbs : st.lbs = s.lbs)
    (hnn : src.getBlockLocations st.nnCalls = .ok (cl.getBlockLocations s.cursor))
    (hdn : ∀ b, (readBlockLength src b st.dnCalls).1 = .ok (cl.readBlockLength b : Int)) :
    (round src st).1 = .done (.ok ()) ∧ (round src st).2.lbs = (s.updateBlockInfos cl).lbs ∧
      (round src st).2.lastBlockBeingWrittenLength = (s.updateBlockInfos cl).lastBlockBeingWrittenLength := by
  unfold round InputStreamImpl.updateBlockInfos
  rw [hnn, hlbs]
  dsimp only
  cases hc : ((s.lbs.getD LocatedBlocks.empty).convert (cl.getBlockLocations s.cursor)).isLastBlockComplete
  case true => exact ⟨rfl, rfl, rfl⟩
  case false =>
    rw [if_neg Bool.false_ne_true, if_neg Bool.false_ne_true]
    cases hlast : ((s.lbs.getD LocatedBlocks.empty).convert (cl.getBlockLocations s.cursor)).lastBlock
    case none => exact ⟨rfl, rfl, rfl⟩
    case some last =>
      dsimp only
      obtain ⟨n, hlen⟩ : ∃ n, readBlockLength src last st.dnCalls = (.ok (cl.readBlockLength last : Int), n) :=
        ⟨_, Prod.ext (hdn last) rfl⟩
      have hne : ((cl.readBlockLength last : Nat) : Int) ≠ -1 := by omega
      rw [hlen]
      dsimp only
      rw [if_neg hne, Int.toNat_natCast]
      exact ⟨rfl, rfl, rfl⟩

/-- **The retrying refresh refines the single call.** When the namenode answers its first call as
the cluster of `InputStream.lean` does at the cursor, and the replicas report the lengths that
cluster gives, a refresh of one round or more succeeds at once, with the block information and the
visible length that `InputStreamImpl.updateBlockInfos` computes. -/
theorem updateBlockInfos_refines {retry : Int} (hretry : 1 ≤ retry) {s : InputStreamImpl}
    {cl : Cluster} {st : RefreshingStream} (hlbs : st.lbs = s.lbs)
    (hnn : src.getBlockLocations st.nnCalls = .ok (cl.getBlockLocations s.cursor))
    (hdn : ∀ b, (readBlockLength src b st.dnCalls).1 = .ok (cl.readBlockLength b : Int)) :
    (updateBlockInfos src retry st).1 = .ok () ∧
      (updateBlockInfos src retry st).2.lbs = (s.updateBlockInfos cl).lbs ∧
      (updateBlockInfos src retry st).2.lastBlockBeingWrittenLength =
        (s.updateBlockInfos cl).lastBlockBeingWrittenLength := by
  obtain ⟨hdone, hlbs', hlen⟩ := round_refines src hlbs hnn hdn
  obtain ⟨n, hn⟩ : ∃ n, retry.toNat = n + 1 := ⟨retry.toNat - 1, by omega⟩
  have hloop : updateBlockInfos src retry st = (.ok (), (round src st).2) := by
    unfold updateBlockInfos
    rw [hn]
    exact Retry.loop_done (Prod.ext hdone rfl) n
  rw [hloop]
  exact ⟨rfl, hlbs', hlen⟩

/-- The cluster of `InputStream.lean` that answers as `writtenFile` does from its second call. -/
def writtenFileCluster : Cluster :=
  ⟨[], fun _ => ⟨4, false, some ⟨4, 0⟩, [⟨0, 4⟩, ⟨4, 0⟩]⟩, fun _ => 3, fun _ _ => 0⟩

theorem updateBlockInfos_refines_on_written_file :
    (updateBlockInfos writtenFile 3 ⟨none, 0, 1, 0⟩).1 = .ok () ∧
      (updateBlockInfos writtenFile 3 ⟨none, 0, 1, 0⟩).2.lbs =
        (InputStreamImpl.init.updateBlockInfos writtenFileCluster).lbs ∧
      (updateBlockInfos writtenFile 3 ⟨none, 0, 1, 0⟩).2.lastBlockBeingWrittenLength =
        (InputStreamImpl.init.updateBlockInfos writtenFileCluster).lastBlockBeingWrittenLength :=
  updateBlockInfos_refines writtenFile (by decide) rfl rfl (fun _ => rfl)

end RefreshingStream

end HdfsClient
