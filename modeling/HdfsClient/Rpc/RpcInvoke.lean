import HdfsClient.Lib.Retry
import HdfsClient.Common.SessionConfig

/-!
# Invoking a call on an RPC channel: connection retries, exception translation, one retry

`RpcChannelImpl::invoke` (`rpc/RpcChannel.cpp`) sends a call and waits for its answer through
`invokeInternal`, which connects the channel first when it is not (`connect`, at most
`getMaxRetryOnConnect()` rounds, retrying a `SaslException`, an `HdfsNetworkException` and an
`HdfsTimeoutException` and rethrowing the last of them), writes the request and waits. The
exceptions it catches become the `lastError` it returns: a failure to connect and a timeout
become an `HdfsFailoverException`, which makes `NamenodeProxy` fail over; another network or
`HdfsIOException` an `HdfsRpcException`. `invoke` shuts the channel down on every failure and
retries an idempotent call once, on a new call id and a new connection; an exception that
`invokeInternal` does not catch is thrown at once.

**The model.** The server side is an oracle (`RpcServerLink`) answering each connection round,
each write of a request and each wait for a response in turn. The error a finished call carries
(`remote->check()`) is left abstract (`ρ`): it may be the server's, or the reason another caller's
failure cancelled it with.

* `invoke_translates` — with every configuration the `SessionConfig` constructor accepts, every
  exception `invoke` throws is translated: `HdfsFailoverException` only for a failure to connect
  or a timeout, no bare network, timeout or I/O exception other than `HdfsRpcException`, and never
  the rethrow of a null `exception_ptr` by a `connect` that ran no round.
* `invoke_attempts` — one call id for a call, a second only for an idempotent call whose first
  attempt ended in a failure `invokeInternal` caught; `invoke_rounds_le` — at most
  `getMaxRetryOnConnect()` connection rounds for each attempt.
-/

namespace HdfsClient

/-- The exception classes the `catch` blocks of `connect`, `invokeInternal` and `invoke` tell
apart. -/
inductive RpcFailure
  /-- `HdfsNetworkConnectException`, an `HdfsNetworkException`. -/
  | networkConnect
  /-- Another `HdfsNetworkException`. -/
  | network
  /-- `HdfsTimeoutException`, an `HdfsException` only. -/
  | timeout
  /-- `HdfsRpcException`, an `HdfsIOException`. -/
  | rpc
  /-- Another `HdfsIOException`: `HdfsRpcServerException`, `HdfsEndOfStream`, ... -/
  | io
  /-- `SaslException`, an `HdfsException` only. -/
  | sasl
  /-- `NameNodeStandbyException`, which a FATAL response of a standby namenode unwraps to. -/
  | standby
  /-- Another `HdfsException`: `HdfsCanceled`, `AccessControlException`, ... -/
  | other
  deriving DecidableEq, Repr

namespace RpcFailure

/-- The classes `connect` catches and retries: `SaslException`, `HdfsNetworkException` and
`HdfsTimeoutException`. -/
def retriedByConnect : RpcFailure → Bool
  | .sasl | .networkConnect | .network | .timeout => true
  | _ => false

end RpcFailure

/-- What `invoke` throws. -/
inductive InvokeError (ρ : Type)
  /-- `HdfsFailoverException` "Failed to invoke RPC call ...", nesting `cause`. -/
  | failover (cause : RpcFailure)
  /-- `HdfsRpcException` "Failed to invoke RPC call ...", nesting `cause`. -/
  | rpcWrapped (cause : RpcFailure)
  /-- An exception thrown on as it was caught. -/
  | thrown (e : RpcFailure)
  /-- The error the finished call carries, rethrown by `remote->check()`. -/
  | call (e : ρ)
  /-- `rethrow_exception` of a null `exception_ptr`: `connect` ran no round. -/
  | undefined
  deriving DecidableEq, Repr

/-- What `invokeInternal` ends with: the call finished (with what `remote->check()` will find), a
`lastError` it caught and translated, an exception it let through, or the undefined behaviour of
`connect`. -/
inductive InternalEnd (ρ : Type)
  | finished (r : Except ρ Unit)
  | caught (e : InvokeError ρ)
  | escaped (e : RpcFailure)
  | undefined
  deriving DecidableEq, Repr

/-- The catch blocks of `invokeInternal`, in their order. -/
def catchInternal {ρ : Type} : RpcFailure → InternalEnd ρ
  | .networkConnect => .caught (.failover .networkConnect)
  | .network => .caught (.rpcWrapped .network)
  | .timeout => .caught (.failover .timeout)
  | .rpc => .caught (.thrown .rpc)
  | .io => .caught (.rpcWrapped .io)
  | e => .escaped e

/-- An exception `invoke` may throw, as its callers expect it: `HdfsFailoverException` only for a
failure to connect or a timeout, `HdfsRpcException` nesting a network or I/O failure, and as they
are only `HdfsRpcException` and the classes that are no `HdfsIOException` or timeout. -/
def InvokeError.Translated {ρ : Type} : InvokeError ρ → Prop
  | .failover c => c = .networkConnect ∨ c = .timeout
  | .rpcWrapped c => c = .network ∨ c = .io
  | .thrown e => e = .rpc ∨ e = .sasl ∨ e = .standby ∨ e = .other
  | .call _ => True
  | .undefined => False

/-- The end of `invokeInternal` as `invoke` expects it: a translated `lastError`, and only the
classes that are no `HdfsIOException` or timeout let through. -/
def InternalEnd.Translated {ρ : Type} : InternalEnd ρ → Prop
  | .finished _ => True
  | .caught e => e.Translated
  | .escaped e => e = .sasl ∨ e = .standby ∨ e = .other
  | .undefined => False

/-- **The catch blocks of `invokeInternal` translate every class.** -/
theorem catchInternal_translated {ρ : Type} (f : RpcFailure) :
    (catchInternal f : InternalEnd ρ).Translated := by
  cases f <;> simp [catchInternal, InternalEnd.Translated, InvokeError.Translated]

/-- `RpcConfig::getMaxRetryOnConnect()` of the channels of a file system, whose `RpcConfig` is
built from its session configuration. -/
def SessionConfig.Members.getRpcMaxRetryOnConnect (m : SessionConfig.Members) : Int :=
  (m.int32s .rpcMaxRetryOnConnect).toInt

theorem SessionConfig.Members.one_le_getRpcMaxRetryOnConnect {conf : Config}
    {m : SessionConfig.Members} (hconf : SessionConfig.Members.new conf = .ok m) :
    1 ≤ m.getRpcMaxRetryOnConnect :=
  SessionConfig.new_int32_rangeGE hconf (show ⟨.rpcMaxRetryOnConnect,
    "rpc.client.connect.retry".toList, (10 : Int32), SessionConfig.rangeGE Int32.toInt 1⟩ ∈
      SessionConfig.i32Values by simp [SessionConfig.i32Values])

/-- What the server side answers, in turn: the `n`-th round of `connect()` (the socket connected,
the connection header sent and, with SASL, the handshake done, or an exception), the `n`-th
write of a request, and the `n`-th wait for a response (the call finished with what it carries,
or `checkOneResponse` threw). -/
structure RpcServerLink (ρ : Type) where
  connect : Nat → Except RpcFailure Unit
  sendRequest : Nat → Except RpcFailure Unit
  response : Nat → Except RpcFailure (Except ρ Unit)

/-- The channel as one call sees it: whether it is connected (`available`), the call ids the
client has handed out, and the connection rounds, writes and waits so far. -/
structure InvokingChannel where
  available : Bool
  callIds : Nat
  rounds : Nat
  sends : Nat
  waits : Nat
  deriving DecidableEq, Repr

namespace InvokingChannel

variable {ρ : Type} (link : RpcServerLink ρ) (maxRetryOnConnect : Int)

/-- `shutdown(reason)`: the channel is no longer connected. Its pending calls are cancelled with
the reason; this call's is found again by `remote->check()`. -/
def shutdown (st : InvokingChannel) : InvokingChannel := { st with available := false }

/-- One round of `connect()`. A retried exception asks for another round; any other is thrown. -/
def connectRound (st : InvokingChannel) : Retry.Round (Option RpcFailure) Unit × InvokingChannel :=
  let st' := { st with rounds := st.rounds + 1 }
  match link.connect st.rounds with
  | .ok () => (.done (.ok ()), { st' with available := true })
  | .error e => if e.retriedByConnect then (.again (some e), st') else (.done (.error (some e)), st')

/-- `connect()`: at most `getMaxRetryOnConnect()` rounds, then `rethrow_exception(lastError)`,
where `none` is the null `lastError` of a loop that ran no round. -/
def connect (st : InvokingChannel) : Except (Option RpcFailure) Unit × InvokingChannel :=
  Retry.loop (connectRound link) (.error none) maxRetryOnConnect.toNat st

/-- `if (!available) connect();` -/
def ensureConnected (st : InvokingChannel) : Except (Option RpcFailure) Unit × InvokingChannel :=
  if st.available then (.ok (), st) else connect link maxRetryOnConnect st

/-- `invokeInternal(remote)`: connect when the channel is not, write the request, wait for the
call to finish. -/
def invokeInternal (st : InvokingChannel) : InternalEnd ρ × InvokingChannel :=
  match ensureConnected link maxRetryOnConnect st with
  | (.error none, st) => (.undefined, st)
  | (.error (some e), st) => (catchInternal e, st)
  | (.ok (), st) =>
    match link.sendRequest st.sends with
    | .error e => (catchInternal e, { st with sends := st.sends + 1 })
    | .ok () =>
      match link.response st.waits with
      | .ok r => (.finished r, { st with sends := st.sends + 1, waits := st.waits + 1 })
      | .error e => (catchInternal e, { st with sends := st.sends + 1, waits := st.waits + 1 })

/-- The `do ... while (retry)` loop of `invoke(call)`, with its `retry` flag: a new call id, then
`invokeInternal`. A finished call is checked; a caught failure shuts the channel down and is
retried once for an idempotent call, and thrown otherwise; an exception `invokeInternal` let
through is caught by `catch (const HdfsException &)`, which shuts the channel down. -/
def invokeLoop (idempotent : Bool) (retry : Bool) (st : InvokingChannel) :
    Except (InvokeError ρ) Unit × InvokingChannel :=
  match invokeInternal link maxRetryOnConnect { st with callIds := st.callIds + 1 } with
  | (.finished r, st) =>
    match r with
    | .ok () => (.ok (), st)
    | .error e => (.error (.call e), st)
  | (.caught e, st) =>
    if !retry && idempotent then invokeLoop idempotent true (shutdown st)
    else (.error e, shutdown st)
  | (.escaped e, st) => (.error (.thrown e), shutdown st)
  | (.undefined, st) => (.error .undefined, st)
termination_by if retry then 0 else 1
decreasing_by
  cases retry
  · decide
  · cases idempotent <;> contradiction

/-- `invoke(call)`. -/
def invoke (idempotent : Bool) (st : InvokingChannel) : Except (InvokeError ρ) Unit × InvokingChannel :=
  invokeLoop link maxRetryOnConnect idempotent false st

/-! ## `connect` -/

theorem connectRound_rounds (st : InvokingChannel) :
    (connectRound link st).2.rounds = st.rounds + 1 := by
  unfold connectRound
  split
  case h_1 => rfl
  case h_2 e _ =>
    by_cases he : e.retriedByConnect = true
    · rw [if_pos he]
    · rw [if_neg he]

theorem connectRound_again {st : InvokingChannel} {e : Option RpcFailure}
    (h : (connectRound link st).1 = .again e) : ∃ f, e = some f ∧ f.retriedByConnect = true := by
  unfold connectRound at h
  split at h
  case h_1 => cases h
  case h_2 f _ =>
    by_cases hf : f.retriedByConnect = true
    · rw [if_pos hf] at h
      cases h
      exact ⟨f, rfl, hf⟩
    · rw [if_neg hf] at h
      cases h

theorem connectRound_done_error {st : InvokingChannel} {e : Option RpcFailure}
    (h : (connectRound link st).1 = .done (.error e)) : ∃ f, e = some f := by
  unfold connectRound at h
  split at h
  case h_1 => cases h
  case h_2 f _ =>
    by_cases hf : f.retriedByConnect = true
    · rw [if_pos hf] at h
      cases h
    · rw [if_neg hf] at h
      cases h
      exact ⟨f, rfl⟩

/-- `connect` runs at most `getMaxRetryOnConnect()` rounds. -/
theorem connect_rounds_le (st : InvokingChannel) :
    (connect link maxRetryOnConnect st).2.rounds ≤ st.rounds + maxRetryOnConnect.toNat :=
  Retry.loop_calls_le rounds (connectRound_rounds link) _ _

/-- With one round or more, `connect` throws only what a round threw: never the null pointer. -/
theorem connect_ne_undefined (hretry : 1 ≤ maxRetryOnConnect) (st : InvokingChannel) :
    (connect link maxRetryOnConnect st).1 ≠ .error none := by
  obtain ⟨n, hn⟩ : ∃ n, maxRetryOnConnect.toNat = n + 1 := ⟨maxRetryOnConnect.toNat - 1, by omega⟩
  unfold connect
  rw [hn]
  intro hnull
  obtain ⟨s₀, -, -, hres | ⟨e, he, herr⟩⟩ :=
    @Retry.loop_cases _ _ _ (connectRound link) (.error none) (fun _ => True) (fun _ _ => trivial)
      n st trivial
  · rw [hnull] at hres
    obtain ⟨f, hf⟩ := connectRound_done_error link hres
    cases hf
  · rw [hnull] at herr
    obtain ⟨f, hf, -⟩ := connectRound_again link he
    cases herr
    cases hf

/-! ## One attempt -/

/-- What a round of `connect` leaves as it was: the call ids, the writes and the waits. -/
def Frame (st st' : InvokingChannel) : Prop :=
  st'.callIds = st.callIds ∧ st'.sends = st.sends ∧ st'.waits = st.waits

theorem connectRound_frame (st : InvokingChannel) : Frame st (connectRound link st).2 := by
  unfold connectRound
  split
  case h_1 => exact ⟨rfl, rfl, rfl⟩
  case h_2 e _ =>
    by_cases he : e.retriedByConnect = true
    · rw [if_pos he]
      exact ⟨rfl, rfl, rfl⟩
    · rw [if_neg he]
      exact ⟨rfl, rfl, rfl⟩

theorem ensureConnected_frame (st : InvokingChannel) :
    Frame st (ensureConnected link maxRetryOnConnect st).2 := by
  unfold ensureConnected
  by_cases hav : st.available = true
  · rw [if_pos hav]
    exact ⟨rfl, rfl, rfl⟩
  · rw [if_neg hav]
    refine Retry.loop_inv (Frame st) (fun s hs => ?_) _ st ⟨rfl, rfl, rfl⟩
    obtain ⟨h₁, h₂, h₃⟩ := connectRound_frame link s
    obtain ⟨h₁', h₂', h₃'⟩ := hs
    exact ⟨h₁.trans h₁', h₂.trans h₂', h₃.trans h₃'⟩

theorem ensureConnected_rounds_le (st : InvokingChannel) :
    (ensureConnected link maxRetryOnConnect st).2.rounds ≤ st.rounds + maxRetryOnConnect.toNat := by
  unfold ensureConnected
  by_cases hav : st.available = true
  · rw [if_pos hav]
    exact Nat.le_add_right _ _
  · rw [if_neg hav]
    exact connect_rounds_le link maxRetryOnConnect st

/-- **What one attempt can do.** `invokeInternal` hands out no call id and makes at most
`getMaxRetryOnConnect()` connection rounds. -/
theorem invokeInternal_frame (st : InvokingChannel) :
    (invokeInternal link maxRetryOnConnect st).2.callIds = st.callIds ∧
      (invokeInternal link maxRetryOnConnect st).2.rounds ≤ st.rounds + maxRetryOnConnect.toNat := by
  have hframe := ensureConnected_frame link maxRetryOnConnect st
  have hrounds := ensureConnected_rounds_le link maxRetryOnConnect st
  unfold invokeInternal
  split
  case h_1 st₁ heq =>
    rw [heq] at hframe hrounds
    exact ⟨hframe.1, hrounds⟩
  case h_2 st₁ heq =>
    rw [heq] at hframe hrounds
    exact ⟨hframe.1, hrounds⟩
  case h_3 st₁ heq =>
    rw [heq] at hframe hrounds
    split
    case h_1 => exact ⟨hframe.1, hrounds⟩
    case h_2 =>
      split
      case h_1 => exact ⟨hframe.1, hrounds⟩
      case h_2 => exact ⟨hframe.1, hrounds⟩

theorem ensureConnected_ne_undefined (hretry : 1 ≤ maxRetryOnConnect) (st : InvokingChannel) :
    (ensureConnected link maxRetryOnConnect st).1 ≠ .error none := by
  unfold ensureConnected
  by_cases hav : st.available = true
  · rw [if_pos hav]
    nofun
  · rw [if_neg hav]
    exact connect_ne_undefined link maxRetryOnConnect hretry st

/-- With one connection round or more, `invokeInternal` translates what it catches and lets
through only the classes `invoke` throws on as they are. -/
theorem invokeInternal_translated (hretry : 1 ≤ maxRetryOnConnect) (st : InvokingChannel) :
    (invokeInternal link maxRetryOnConnect st).1.Translated := by
  have hconnect := ensureConnected_ne_undefined link maxRetryOnConnect hretry st
  unfold invokeInternal
  split
  case h_1 st₁ heq => exact absurd (by rw [heq]) hconnect
  case h_2 e st₁ _ => exact catchInternal_translated e
  case h_3 =>
    split
    case h_1 e _ => exact catchInternal_translated e
    case h_2 =>
      split
      case h_1 => trivial
      case h_2 e _ => exact catchInternal_translated e

/-! ## The loop of `invoke` -/

/-- The last attempt: its flag is set, so nothing is retried. -/
theorem invokeLoop_true (idempotent : Bool) (st : InvokingChannel) :
    invokeLoop link maxRetryOnConnect idempotent true st =
      match invokeInternal link maxRetryOnConnect { st with callIds := st.callIds + 1 } with
      | (.finished (.ok ()), st) => (.ok (), st)
      | (.finished (.error e), st) => (.error (.call e), st)
      | (.caught e, st) => (.error e, shutdown st)
      | (.escaped e, st) => (.error (.thrown e), shutdown st)
      | (.undefined, st) => (.error .undefined, st) := by
  rw [invokeLoop]
  rcases invokeInternal link maxRetryOnConnect { st with callIds := st.callIds + 1 } with
    ⟨⟨_ | _⟩ | e | e | _, st'⟩
  all_goals rfl

/-- The attempt that ends the loop hands out one call id and makes at most
`getMaxRetryOnConnect()` connection rounds. -/
theorem invokeLoop_true_frame (idempotent : Bool) (st : InvokingChannel) :
    (invokeLoop link maxRetryOnConnect idempotent true st).2.callIds = st.callIds + 1 ∧
      (invokeLoop link maxRetryOnConnect idempotent true st).2.rounds ≤
        st.rounds + maxRetryOnConnect.toNat := by
  obtain ⟨hids, hrounds⟩ :=
    invokeInternal_frame link maxRetryOnConnect { st with callIds := st.callIds + 1 }
  rw [invokeLoop_true]
  revert hids hrounds
  rcases invokeInternal link maxRetryOnConnect { st with callIds := st.callIds + 1 } with
    ⟨⟨_ | _⟩ | e | e | _, st'⟩
  all_goals exact fun hids hrounds => ⟨hids, hrounds⟩

/-- The error of the attempt that ends the loop is translated. -/
theorem invokeLoop_true_translated (hretry : 1 ≤ maxRetryOnConnect) (idempotent : Bool)
    (st : InvokingChannel) {e : InvokeError ρ}
    (h : (invokeLoop link maxRetryOnConnect idempotent true st).1 = .error e) : e.Translated := by
  have htrans := invokeInternal_translated link maxRetryOnConnect hretry
    { st with callIds := st.callIds + 1 }
  rw [invokeLoop_true] at h
  revert h htrans
  rcases invokeInternal link maxRetryOnConnect { st with callIds := st.callIds + 1 } with
    ⟨⟨_ | _⟩ | e' | e' | _, st'⟩
  case finished.ok => exact fun h _ => by cases h
  case finished.error => exact fun h _ => by cases h; trivial
  case caught => exact fun h htrans => by cases h; exact htrans
  case escaped => exact fun h htrans => by cases h; exact .inr htrans
  case undefined => exact fun _ htrans => htrans.elim

/-- The first attempt: a failure it caught is retried when the call is idempotent. -/
theorem invokeLoop_false (idempotent : Bool) (st : InvokingChannel) :
    invokeLoop link maxRetryOnConnect idempotent false st =
      match invokeInternal link maxRetryOnConnect { st with callIds := st.callIds + 1 } with
      | (.finished (.ok ()), st) => (.ok (), st)
      | (.finished (.error e), st) => (.error (.call e), st)
      | (.caught e, st) =>
        if idempotent then invokeLoop link maxRetryOnConnect idempotent true (shutdown st)
        else (.error e, shutdown st)
      | (.escaped e, st) => (.error (.thrown e), shutdown st)
      | (.undefined, st) => (.error .undefined, st) := by
  rw [invokeLoop]
  rcases invokeInternal link maxRetryOnConnect { st with callIds := st.callIds + 1 } with
    ⟨⟨_ | _⟩ | e | e | _, st'⟩
  all_goals cases idempotent <;> rfl

/-- **One call id, or two for an idempotent call after a caught failure.** `invoke` hands out one
call id; it hands out a second only for an idempotent call whose first attempt ended in a failure
`invokeInternal` caught, never after an exception it let through. -/
theorem invoke_attempts (idempotent : Bool) (st : InvokingChannel) :
    (invoke link maxRetryOnConnect idempotent st).2.callIds = st.callIds + 1 ∨
      (idempotent = true ∧
        (∃ e, (invokeInternal link maxRetryOnConnect { st with callIds := st.callIds + 1 }).1 =
          .caught e) ∧
        (invoke link maxRetryOnConnect idempotent st).2.callIds = st.callIds + 2) := by
  have hfirst := (invokeInternal_frame link maxRetryOnConnect { st with callIds := st.callIds + 1 }).1
  unfold invoke
  rw [invokeLoop_false]
  revert hfirst
  rcases hres : invokeInternal link maxRetryOnConnect { st with callIds := st.callIds + 1 } with
    ⟨⟨_ | _⟩ | e | e | _, st'⟩
  case caught =>
    intro hfirst
    change st'.callIds = st.callIds + 1 at hfirst
    cases idempotent
    case false => exact .inl hfirst
    case true =>
      have hsecond := (invokeLoop_true_frame link maxRetryOnConnect true (shutdown st')).1
      refine .inr ⟨rfl, ⟨e, rfl⟩, ?_⟩
      change (invokeLoop link maxRetryOnConnect true true (shutdown st')).2.callIds = _
      rw [hsecond]
      exact congrArg (· + 1) hfirst
  all_goals exact fun hfirst => .inl hfirst

/-- Each attempt makes at most `getMaxRetryOnConnect()` connection rounds. -/
theorem invoke_rounds_le (idempotent : Bool) (st : InvokingChannel) :
    (invoke link maxRetryOnConnect idempotent st).2.rounds ≤ st.rounds + 2 * maxRetryOnConnect.toNat := by
  have hfirst := (invokeInternal_frame link maxRetryOnConnect { st with callIds := st.callIds + 1 }).2
  unfold invoke
  rw [invokeLoop_false]
  revert hfirst
  rcases invokeInternal link maxRetryOnConnect { st with callIds := st.callIds + 1 } with
    ⟨⟨_ | _⟩ | e | e | _, st'⟩
  case caught =>
    intro hfirst
    have hsecond := (invokeLoop_true_frame link maxRetryOnConnect idempotent (shutdown st')).2
    change st'.rounds ≤ st.rounds + maxRetryOnConnect.toNat at hfirst
    change _ ≤ st'.rounds + maxRetryOnConnect.toNat at hsecond
    cases idempotent
    case false => exact Nat.le_trans hfirst (by omega)
    case true =>
      change (invokeLoop link maxRetryOnConnect true true (shutdown st')).2.rounds ≤ _
      omega
  all_goals
    intro hfirst
    dsimp only [shutdown] at hfirst ⊢
    omega

/-- **`invoke` translates every exception it throws.** With every configuration the
`SessionConfig` constructor accepts, an exception of `invoke` is an `HdfsFailoverException` only
for a failure to connect or a timeout, an `HdfsRpcException` nesting a network or I/O failure, the
error the finished call carries, or thrown as it is only when it is an `HdfsRpcException` or no
`HdfsIOException` or timeout at all; never the rethrow of a null `exception_ptr`. -/
theorem invoke_translates {conf : Config} {m : SessionConfig.Members}
    (hconf : SessionConfig.Members.new conf = .ok m) (idempotent : Bool) (st : InvokingChannel)
    {e : InvokeError ρ} (h : (invoke link m.getRpcMaxRetryOnConnect idempotent st).1 = .error e) :
    e.Translated := by
  have hretry := SessionConfig.Members.one_le_getRpcMaxRetryOnConnect hconf
  have htrans := invokeInternal_translated link _ hretry { st with callIds := st.callIds + 1 }
  unfold invoke at h
  rw [invokeLoop_false] at h
  revert h htrans
  rcases invokeInternal link m.getRpcMaxRetryOnConnect { st with callIds := st.callIds + 1 } with
    ⟨⟨_ | _⟩ | e' | e' | _, st'⟩
  case finished.ok => exact fun h _ => by cases h
  case finished.error => exact fun h _ => by cases h; trivial
  case caught =>
    intro h htrans
    cases idempotent
    case false =>
      cases h
      exact htrans
    case true => exact invokeLoop_true_translated link _ hretry true (shutdown st') h
  case escaped => exact fun h htrans => by cases h; exact .inr htrans
  case undefined => exact fun _ htrans => htrans.elim

/-- A server that refuses every connection. -/
def refusing : RpcServerLink Unit := ⟨fun _ => .error .networkConnect, fun _ => .ok (), fun _ => .ok (.ok ())⟩

theorem invoke_translates_on_refused_connection :
    ∃ m, SessionConfig.Members.new ⟨[], []⟩ = .ok m ∧
      (invoke refusing m.getRpcMaxRetryOnConnect false ⟨false, 0, 0, 0, 0⟩).1 =
        .error (.failover .networkConnect) ∧
      (InvokeError.failover .networkConnect : InvokeError Unit).Translated :=
  ⟨_, rfl, by rw [invoke, invokeLoop_false]; rfl,
    @invoke_translates _ refusing ⟨[], []⟩ _ rfl false ⟨false, 0, 0, 0, 0⟩ _
      (by rw [invoke, invokeLoop_false]; rfl)⟩

end InvokingChannel

end HdfsClient
