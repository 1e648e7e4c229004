import HdfsClient.Common.XmlConfig
import HdfsClient.Client.OutputStream
import HdfsClient.Client.InputStreamRetry
import HdfsClient.Client.PipelineRecovery

/-!
# The session configuration

The constructor of `SessionConfig` (`common/SessionConfig.cpp`) reads the client's settings from a
`Config`. It has four tables of `ConfigDefault` items, for the `bool`, `int32_t`, `int64_t` and
string members. Each item names the member it sets, its key, its default and, for some, a check.
The constructor takes every table in turn. Each member gets the value that the getter with a
default reads for its key, and then goes through its check, which throws `HdfsConfigInvalid`.
`CheckRangeGE` bounds a value from below, and `CheckMultipleOf` asks for a positive multiple of a
unit.

**The model.** The members of each type are an enumeration, and the members of that type are a
function from it. The four loops are one definition, `readTable`, given the getter and the table.

* `readTable_ok` — when the constructor succeeds, each member holds what its getter read, and that
  value passed its check; so a member checked with `CheckRangeGE` is at least its bound
  (`new_int32_rangeGE`), which the retry loops of the RPC channel and of the input stream rely on.
* `new_error_names_key` — an exception of the constructor comes from one item, whose getter or
  check threw it, and names that item's key, except `getBool(key, def)`: its `HdfsBadBoolFoumat`
  carries only the value.
-/

namespace HdfsClient

/-- What the constructor throws: an exception of a getter of `Config`, or `HdfsConfigInvalid` from a
check, with its message. -/
inductive SessionConfigError
  | config (e : ConfigError)
  | HdfsConfigInvalid (msg : List Char)
  deriving DecidableEq, Repr

/-- The message of the exception. -/
def SessionConfigError.msg : SessionConfigError → List Char
  | .config e => e.msg
  | .HdfsConfigInvalid msg => msg

/-- `CheckRangeGE(key, value, target)`. The message says "larger than" for a bound that the value may
reach. -/
def CheckRangeGE (key : List Char) (value target : Int) : Except SessionConfigError Unit :=
  if value ≥ target then .ok ()
  else .error (.HdfsConfigInvalid ("Invalid configure item: \"".toList ++ key ++
    "\", value: ".toList ++ (toString value).toList ++
    ", expected value should be larger than ".toList ++ (toString target).toList))

/-- `CheckMultipleOf(key, value, unit)`: `value % unit` is C's remainder, which takes the sign of
`value`. -/
def CheckMultipleOf (key : List Char) (value unit : Int) : Except SessionConfigError Unit :=
  if value ≤ 0 ∨ value.tmod unit ≠ 0 then
    .error (.HdfsConfigInvalid (key ++ " should be larger than 0 and be the multiple of ".toList ++
      (toString unit).toList ++ ".".toList))
  else .ok ()

/-- `ConfigDefault<T>`: the member it sets (`variable`), its key, its default, and its check. -/
structure ConfigDefault (M α : Type) where
  member : M
  key : List Char
  value : α
  check : Option (List Char → α → Except SessionConfigError Unit)

/-- The `bool` members the constructor reads. -/
inductive BoolMember
  | rpcTcpNoDelay | readFromLocal | addDatanode | notRetryAnotherNode | useMappedFile
  | legacyLocalBlockReader
  deriving DecidableEq, Repr

/-- The `int32_t` members the constructor reads. -/
inductive Int32Member
  | rpcMaxIdleTime | rpcPingTimeout | rpcConnectTimeout | rpcReadTimeout | rpcWriteTimeout
  | rpcSocketLingerTimeout | rpcMaxRetryOnConnect | rpcTimeout | defaultReplica | inputConnTimeout
  | inputReadTimeout | inputWriteTimeout | localReadBufferSize | prefetchSize | maxGetBlockInfoRetry
  | maxLocalBlockInfoCacheSize | maxReadBlockRetry | chunkSize | packetSize | blockWriteRetry
  | outputConnTimeout | outputReadTimeout | outputWriteTimeout | closeFileTimeout | packetPoolSize
  | heartBeatInterval | rpcMaxHARetry | maxFileDescriptorCacheSize | socketCacheExpiry
  | socketCacheCapacity
  deriving DecidableEq, Repr

/-- The `int64_t` member the constructor reads. -/
inductive Int64Member
  | defaultBlockSize
  deriving DecidableEq, Repr

/-- The string members the constructor reads. -/
inductive StringMember
  | defaultUri | rpcAuthMethod | kerberosCachePath | logSeverity | domainSocketPath
  deriving DecidableEq, Repr

namespace SessionConfig

/-- `bind(CheckRangeGE<T>, _1, _2, target)`. -/
def rangeGE {α : Type} (toInt : α → Int) (target : Int) :
    Option (List Char → α → Except SessionConfigError Unit) :=
  some fun key value => CheckRangeGE key (toInt value) target

/-- `bind(CheckMultipleOf<T>, _1, _2, unit)`. -/
def multipleOf {α : Type} (toInt : α → Int) (unit : Int) :
    Option (List Char → α → Except SessionConfigError Unit) :=
  some fun key value => CheckMultipleOf key (toInt value) unit

/-- `boolValues`. -/
def boolValues : List (ConfigDefault BoolMember Bool) :=
  [⟨.rpcTcpNoDelay, "rpc.client.connect.tcpnodelay".toList, true, none⟩,
   ⟨.readFromLocal, "dfs.client.read.shortcircuit".toList, true, none⟩,
   ⟨.addDatanode, "output.replace-datanode-on-failure".toList, true, none⟩,
   ⟨.notRetryAnotherNode, "input.notretry-another-node".toList, false, none⟩,
   ⟨.useMappedFile, "input.localread.mappedfile".toList, false, none⟩,
   ⟨.legacyLocalBlockReader, "dfs.client.use.legacy.blockreader.local".toList, false, none⟩]

/-- `i32Values`. -/
def i32Values : List (ConfigDefault Int32Member Int32) :=
  [⟨.rpcMaxIdleTime, "rpc.client.max.idle".toList, 10 * 1000, rangeGE Int32.toInt 1⟩,
   ⟨.rpcPingTimeout, "rpc.client.ping.interval".toList, 10 * 1000, none⟩,
   ⟨.rpcConnectTimeout, "rpc.client.connect.timeout".toList, 600 * 1000, none⟩,
   ⟨.rpcReadTimeout, "rpc.client.read.timeout".toList, 3600 * 1000, none⟩,
   ⟨.rpcWriteTimeout, "rpc.client.write.timeout".toList, 3600 * 1000, none⟩,
   ⟨.rpcSocketLingerTimeout, "rpc.client.socekt.linger.timeout".toList, -1, none⟩,
   ⟨.rpcMaxRetryOnConnect, "rpc.client.connect.retry".toList, 10, rangeGE Int32.toInt 1⟩,
   ⟨.rpcTimeout, "rpc.client.timeout".toList, 3600 * 1000, none⟩,
   ⟨.defaultReplica, "dfs.default.replica".toList, 3, rangeGE Int32.toInt 1⟩,
   ⟨.inputConnTimeout, "input.connect.timeout".toList, 600 * 1000, none⟩,
   ⟨.inputReadTimeout, "input.read.timeout".toList, 3600 * 1000, none⟩,
   ⟨.inputWriteTimeout, "input.write.timeout".toList, 3600 * 1000, none⟩,
   ⟨.localReadBufferSize, "input.localread.default.buffersize".toList, 1 * 1024 * 1024,
     rangeGE Int32.toInt 1⟩,
   ⟨.prefetchSize, "dfs.prefetchsize".toList, 10, rangeGE Int32.toInt 1⟩,
   ⟨.maxGetBlockInfoRetry, "input.read.getblockinfo.retry".toList, 3, rangeGE Int32.toInt 1⟩,
   ⟨.maxLocalBlockInfoCacheSize, "input.localread.blockinfo.cachesize".toList, 1000,
     rangeGE Int32.toInt 1⟩,
   ⟨.maxReadBlockRetry, "input.read.max.retry".toList, 60, rangeGE Int32.toInt 1⟩,
   ⟨.chunkSize, "output.default.chunksize".toList, 512, multipleOf Int32.toInt 512⟩,
   ⟨.packetSize, "output.default.packetsize".toList, 64 * 1024, none⟩,
   ⟨.blockWriteRetry, "output.default.write.retry".toList, 10, rangeGE Int32.toInt 1⟩,
   ⟨.outputConnTimeout, "output.connect.timeout".toList, 600 * 1000, none⟩,
   ⟨.outputReadTimeout, "output.read.timeout".toList, 3600 * 1000, none⟩,
   ⟨.outputWriteTimeout, "output.write.timeout".toList, 3600 * 1000, none⟩,
   ⟨.closeFileTimeout, "output.close.timeout".toList, 3600 * 1000, none⟩,
   ⟨.packetPoolSize, "output.packetpool.size".toList, 1024, none⟩,
   ⟨.heartBeatInterval, "output.heeartbeat.interval".toList, 10 * 1000, none⟩,
   ⟨.rpcMaxHARetry, "dfs.client.failover.max.attempts".toList, 15, rangeGE Int32.toInt 0⟩,
   ⟨.maxFileDescriptorCacheSize, "dfs.client.read.shortcircuit.streams.cache.size".toList, 256,
     rangeGE Int32.toInt 0⟩,
   ⟨.socketCacheExpiry, "dfs.client.socketcache.expiryMsec".toList, 3000, rangeGE Int32.toInt 0⟩,
   ⟨.socketCacheCapacity, "dfs.client.socketcache.capacity".toList, 16, rangeGE Int32.toInt 0⟩]

/-- `i64Values`. -/
def i64Values : List (ConfigDefault Int64Member Int64) :=
  [⟨.defaultBlockSize, "dfs.default.blocksize".toList, 64 * 1024 * 1024, multipleOf Int64.toInt 512⟩]

/-- `strValues`. -/
def strValues : List (ConfigDefault StringMember (List Char)) :=
  [⟨.defaultUri, "dfs.default.uri".toList, "hdfs://localhost:8020".toList, none⟩,
   ⟨.rpcAuthMethod, "hadoop.security.authentication".toList, "simple".toList, none⟩,
   ⟨.kerberosCachePath, "hadoop.security.kerberos.ticket.cache.path".toList, [], none⟩,
   ⟨.logSeverity, "dfs.client.log.severity".toList, "INFO".toList, none⟩,
   ⟨.domainSocketPath, "dfs.domain.socket.path".toList, [], none⟩]

/-- The loop of the constructor over one table: each member gets what the getter reads for its key
and default, then goes through its check, if it has one. -/
def readTable {M α : Type} [DecidableEq M] (get : List Char → α → Except ConfigError α) :
    List (ConfigDefault M α) → (M → α) → Except SessionConfigError (M → α)
  | [], values => .ok values
  | item :: items, values =>
    match get item.key item.value with
    | .error e => .error (.config e)
    | .ok v =>
      match item.check with
      | none => readTable get items (Function.update values item.member v)
      | some check =>
        match check item.key v with
        | .error e => .error e
        | .ok () => readTable get items (Function.update values item.member v)

/-- The members of `SessionConfig` that its constructor reads, by type. -/
structure Members where
  bools : BoolMember → Bool
  int32s : Int32Member → Int32
  int64s : Int64Member → Int64
  strings : StringMember → List Char

/-- `SessionConfig(conf)`. The members start with values that every table overwrites, since each
member is in its table. -/
def Members.new (conf : Config) : Except SessionConfigError Members := do
  let bools ← readTable conf.getBoolWithDefault boolValues fun _ => false
  let int32s ← readTable conf.getInt32WithDefault i32Values fun _ => 0
  let int64s ← readTable conf.getInt64WithDefault i64Values fun _ => 0
  let strings ← readTable (fun key dflt => .ok (conf.getStringWithDefault key dflt)) strValues
    fun _ => []
  pure ⟨bools, int32s, int64s, strings⟩

/-- The settings the output stream reads: `getDefaultChunkSize()`, `getDefaultPacketSize()` and
`getDefaultBlockSize()`. -/
def Members.toSessionConfig (m : Members) : SessionConfig :=
  ⟨(m.int32s .chunkSize).toInt.toNat, (m.int32s .packetSize).toInt,
    (m.int64s .defaultBlockSize).toInt.toNat⟩

/-- The settings the retries of the input stream read: `isReadFromLocal()`,
`doesNotRetryAnotherNode()` and `getMaxReadBlockRetry()`. -/
def Members.toRetryConfig (m : Members) : RetryConfig :=
  ⟨m.bools .readFromLocal, m.bools .notRetryAnotherNode, (m.int32s .maxReadBlockRetry).toInt⟩

/-- The settings `PipelineImpl` reads, `canAddDatanode()` and `getBlockWriteRetry()`, with the
replication of the file. -/
def Members.toPipelineConfig (m : Members) (replication : Int) : PipelineConfig :=
  ⟨replication, m.bools .addDatanode, (m.int32s .blockWriteRetry).toInt⟩

/-! ## The checks -/

theorem CheckRangeGE_ok_iff {key : List Char} {value target : Int} :
    CheckRangeGE key value target = .ok () ↔ target ≤ value := by
  unfold CheckRangeGE
  split_ifs with h
  · exact ⟨fun _ => h, fun _ => rfl⟩
  · exact ⟨fun h' => (by cases h'), fun h' => absurd h' h⟩

/-! ## One table -/

section Tables

variable {M α : Type} [DecidableEq M] {get : List Char → α → Except ConfigError α}

/-- A table goes through its first item: the getter reads a value, which passes the item's check,
and the rest of the table starts from the member set to it. -/
theorem readTable_cons_ok {item : ConfigDefault M α} {items : List (ConfigDefault M α)}
    {values values' : M → α} (h : readTable get (item :: items) values = .ok values') :
    ∃ v, get item.key item.value = .ok v ∧
      (∀ check, item.check = some check → check item.key v = .ok ()) ∧
      readTable get items (Function.update values item.member v) = .ok values' := by
  rw [readTable] at h
  split at h
  case h_1 => cases h
  case h_2 v hv =>
    refine ⟨v, hv, ?_⟩
    split at h
    case h_1 hnone => exact ⟨fun check hc => (by rw [hnone] at hc; cases hc), h⟩
    case h_2 check hsome =>
      split at h
      case h_1 => cases h
      case h_2 hcheck =>
        refine ⟨fun check' hc => ?_, h⟩
        rw [hsome, Option.some.injEq] at hc
        exact hc ▸ hcheck

/-- A member outside the table keeps its value. -/
theorem readTable_frame : ∀ {items : List (ConfigDefault M α)} {values values' : M → α} {m : M},
    readTable get items values = .ok values' → m ∉ items.map (·.member) → values' m = values m
  | [], values, values', m, h, _ => by
    rw [readTable, Except.ok.injEq] at h
    rw [h]
  | item :: items, values, values', m, h, hm => by
    simp only [List.map_cons, List.mem_cons, not_or] at hm
    obtain ⟨v, -, -, hrest⟩ := readTable_cons_ok h
    rw [readTable_frame hrest hm.2, Function.update_of_ne hm.1]

/-- **A table read.** When the loop over a table of distinct members succeeds, each member holds
what its getter read, and that value passed the item's check. -/
theorem readTable_ok : ∀ {items : List (ConfigDefault M α)} {values values' : M → α},
    readTable get items values = .ok values' → (items.map (·.member)).Nodup →
      ∀ item ∈ items, get item.key item.value = .ok (values' item.member) ∧
        ∀ check, item.check = some check → check item.key (values' item.member) = .ok ()
  | [], _, _, _, _, item, hitem => absurd hitem List.not_mem_nil
  | item :: items, values, values', h, hnodup, item', hitem' => by
    obtain ⟨v, hv, hcheck, hrest⟩ := readTable_cons_ok h
    rw [List.map_cons, List.nodup_cons] at hnodup
    -- the first member is not set again by the rest of the table
    have hfirst : values' item.member = v := by
      rw [readTable_frame hrest hnodup.1, Function.update_self]
    rcases List.mem_cons.1 hitem' with rfl | hmem
    · rw [hfirst]
      exact ⟨hv, hcheck⟩
    · exact readTable_ok hrest hnodup.2 item' hmem

/-- The item's getter throws, or its check throws on the value the getter read. -/
def ItemThrows (get : List Char → α → Except ConfigError α) (item : ConfigDefault M α)
    (e : SessionConfigError) : Prop :=
  (∃ ce, get item.key item.value = .error ce ∧ e = .config ce) ∨
    ∃ v check, get item.key item.value = .ok v ∧ item.check = some check ∧ check item.key v = .error e

/-- A table stops at an item whose getter throws, or whose check throws. -/
theorem readTable_error : ∀ {items : List (ConfigDefault M α)} {values : M → α}
    {e : SessionConfigError}, readTable get items values = .error e →
      ∃ item ∈ items, ItemThrows get item e
  | [], _, _, h => by cases h
  | item :: items, values, e, h => by
    rw [readTable] at h
    split at h
    case h_1 ce hce =>
      cases h
      exact ⟨item, List.mem_cons_self, .inl ⟨ce, hce, rfl⟩⟩
    case h_2 v hv =>
      -- the check of the first item throws, or the rest of the table does
      have hrest : ∀ {values'}, readTable get items values' = .error e →
          ∃ item' ∈ item :: items, ItemThrows get item' e := fun h' => by
        obtain ⟨item', hmem, hthrows⟩ := readTable_error h'
        exact ⟨item', List.mem_cons_of_mem _ hmem, hthrows⟩
      split at h
      case h_1 => exact hrest h
      case h_2 check hsome =>
        split at h
        case h_1 e' he' =>
          cases h
          exact ⟨item, List.mem_cons_self, .inr ⟨v, check, hv, hsome, he'⟩⟩
        case h_2 => exact hrest h

end Tables

/-! ## The constructor -/

section Constructor

variable {conf : Config} {m : Members}

/-- The constructor goes through its four tables. -/
theorem new_ok (h : Members.new conf = .ok m) :
    readTable conf.getBoolWithDefault boolValues (fun _ => false) = .ok m.bools ∧
      readTable conf.getInt32WithDefault i32Values (fun _ => 0) = .ok m.int32s ∧
      readTable conf.getInt64WithDefault i64Values (fun _ => 0) = .ok m.int64s ∧
      readTable (fun key dflt => .ok (conf.getStringWithDefault key dflt)) strValues
        (fun _ => []) = .ok m.strings := by
  unfold Members.new at h
  simp only [bind, Except.bind, pure, Except.pure] at h
  split at h
  case h_1 => cases h
  case h_2 bools hbools =>
    split at h
    case h_1 => cases h
    case h_2 int32s hint32s =>
      split at h
      case h_1 => cases h
      case h_2 int64s hint64s =>
        split at h
        case h_1 => cases h
        case h_2 strings hstrings =>
          cases h
          exact ⟨hbools, hint32s, hint64s, hstrings⟩

theorem new_int32s (h : Members.new conf = .ok m) :
    ∀ item ∈ i32Values, conf.getInt32WithDefault item.key item.value = .ok (m.int32s item.member) ∧
      ∀ check, item.check = some check → check item.key (m.int32s item.member) = .ok () :=
  readTable_ok (new_ok h).2.1 (by decide)

/-- A member of a table whose check is `CheckRangeGE` is at least its bound. -/
theorem new_int32_rangeGE (h : Members.new conf = .ok m) {member : Int32Member} {key : List Char}
    {value : Int32} {target : Int} (hitem : ⟨member, key, value, rangeGE Int32.toInt target⟩ ∈ i32Values) :
    target ≤ (m.int32s member).toInt :=
  CheckRangeGE_ok_iff.1 ((new_int32s h _ hitem).2 _ rfl)

/-! ## Errors -/

/-- The exception of a conversion that a getter with a default throws: `HdfsConfigNotFound`, nested,
when its `catch` names the class, and the exception itself otherwise. -/
theorem getValue_some_error {α : Type} {conv : List Char → Except ConfigError α}
    {caught : ConfigException} {key : List Char} {d : α} {ce : ConfigError}
    (h : conf.getValue conv caught (some d) key = .error ce) :
    ∃ value e, conf.kv.lookup key = some value ∧ conv (cString value) = .error e ∧
      ce = if e.exception = caught then ⟨.HdfsConfigNotFound, notFound key, some (e.exception, e.msg)⟩
        else e := by
  cases hlook : conf.kv.lookup key with
  | none =>
    rw [Config.getValue_missing_default hlook] at h
    cases h
  | some value =>
    cases hconv : conv (cString value) with
    | ok v =>
      rw [Config.getValue_of_ok hlook hconv] at h
      cases h
    | error e =>
      rw [Config.getValue_of_error hlook hconv] at h
      refine ⟨value, e, rfl, hconv, ?_⟩
      split_ifs at h ⊢ <;> cases h <;> rfl

theorem StrToInt_error_class {typeName : List Char} {lo hi : Int}
    {conv : List Char → LibC.StrtolResult}
    {str : List Char} {e : ConfigError} (h : StrToInt typeName lo hi conv str = .error e) :
    e.exception = .HdfsBadNumFoumat := by
  unfold StrToInt at h
  dsimp only at h
  split_ifs at h <;> cases h <;> rfl

theorem StrToInt32_error_class {str : List Char} {e : ConfigError} (h : StrToInt32 str = .error e) :
    e.exception = .HdfsBadNumFoumat := by
  unfold StrToInt32 at h
  cases hs : StrToInt "int32_t".toList (-2 ^ 31) (2 ^ 31 - 1) (fun s => LibC.strtol s 0) str with
  | ok v =>
    rw [hs] at h
    cases h
  | error e' =>
    rw [hs] at h
    cases h
    exact StrToInt_error_class hs

theorem StrToInt64_error_class {str : List Char} {e : ConfigError} (h : StrToInt64 str = .error e) :
    e.exception = .HdfsBadNumFoumat := by
  unfold StrToInt64 at h
  cases hs : StrToInt "int64_t".toList (-2 ^ 63) (2 ^ 63 - 1) (fun s => LibC.strtoll s 0) str with
  | ok v =>
    rw [hs] at h
    cases h
  | error e' =>
    rw [hs] at h
    cases h
    exact StrToInt_error_class hs

theorem StrToBool_error_eq {str : List Char} {e : ConfigError} (h : StrToBool str = .error e) :
    e = ⟨.HdfsBadBoolFoumat, "Invalid bool type: ".toList ++ str, none⟩ := by
  unfold StrToBool at h
  split_ifs at h
  cases h
  rfl

/-- A getter of a number with a default throws only `HdfsConfigNotFound`, whose message names the
key. -/
theorem getValue_int_error_names {α : Type} {conv : List Char → Except ConfigError α} {key : List Char}
    {d : α} {ce : ConfigError} (hclass : ∀ str e, conv str = .error e → e.exception = .HdfsBadNumFoumat)
    (h : conf.getValue conv .HdfsBadNumFoumat (some d) key = .error ce) : key <:+: ce.msg := by
  obtain ⟨value, e, -, he, rfl⟩ := getValue_some_error h
  rw [if_pos (hclass _ _ he)]
  exact ⟨"Config key: ".toList, " not found".toList, rfl⟩

/-- The check of an item, if it has one, is `CheckRangeGE` or `CheckMultipleOf`. -/
def IsStandardCheck {α : Type} (toInt : α → Int)
    (c : Option (List Char → α → Except SessionConfigError Unit)) : Prop :=
  c = none ∨ (∃ t, c = rangeGE toInt t) ∨ ∃ u, c = multipleOf toInt u

/-- A check that fails names its key. -/
theorem IsStandardCheck.names {α : Type} {toInt : α → Int}
    {c : Option (List Char → α → Except SessionConfigError Unit)} (hc : IsStandardCheck toInt c)
    {check : List Char → α → Except SessionConfigError Unit} (hsome : c = some check) {key : List Char}
    {v : α} {e : SessionConfigError} (he : check key v = .error e) : key <:+: e.msg := by
  rcases hc with rfl | ⟨t, rfl⟩ | ⟨u, rfl⟩
  · cases hsome
  · simp only [rangeGE, Option.some.injEq] at hsome
    subst hsome
    dsimp only at he
    unfold CheckRangeGE at he
    split_ifs at he
    cases he
    simp only [SessionConfigError.msg, List.append_assoc]
    exact List.infix_append' _ _ _
  · simp only [multipleOf, Option.some.injEq] at hsome
    subst hsome
    dsimp only at he
    unfold CheckMultipleOf at he
    split_ifs at he
    cases he
    simp only [SessionConfigError.msg, List.append_assoc]
    exact (List.prefix_append _ _).isInfix

theorem i32Values_standard : ∀ item ∈ i32Values, IsStandardCheck Int32.toInt item.check := by
  simp [i32Values, IsStandardCheck]

theorem i64Values_standard : ∀ item ∈ i64Values, IsStandardCheck Int64.toInt item.check := by
  simp [i64Values, IsStandardCheck]

theorem boolValues_check : ∀ item ∈ boolValues, item.check = none := by
  simp [boolValues]

theorem strValues_check : ∀ item ∈ strValues, item.check = none := by
  simp [strValues]

/-- **Every error names the key of the item that threw it, but one.** An exception of the
constructor comes from one item of its tables, whose getter or check threw it. For an `int32_t` or
`int64_t` item the message names that item's key; a `bool` item can only throw the
`HdfsBadBoolFoumat` of `StrToBool`, which carries only the value, since `getBool(key, def)` catches
another class. -/
theorem new_error_names_key {e : SessionConfigError} (h : Members.new conf = .error e) :
    (∃ item ∈ i32Values, ItemThrows conf.getInt32WithDefault item e ∧ item.key <:+: e.msg) ∨
      (∃ item ∈ i64Values, ItemThrows conf.getInt64WithDefault item e ∧ item.key <:+: e.msg) ∨
      ∃ item ∈ boolValues, ItemThrows conf.getBoolWithDefault item e ∧ ∃ value,
        conf.kv.lookup item.key = some value ∧
        e = .config ⟨.HdfsBadBoolFoumat, "Invalid bool type: ".toList ++ cString value, none⟩ := by
  unfold Members.new at h
  simp only [bind, Except.bind, pure, Except.pure] at h
  split at h
  case h_1 e₁ hbools =>
    -- a `bool` item: only its getter can throw
    cases h
    obtain ⟨item, hitem, hthrows⟩ := readTable_error hbools
    refine .inr (.inr ⟨item, hitem, hthrows, ?_⟩)
    rcases hthrows with ⟨ce, hce, rfl⟩ | ⟨v, check, -, hcheck, -⟩
    · obtain ⟨value, e', hlook, hconv, rfl⟩ := getValue_some_error hce
      rw [StrToBool_error_eq hconv]
      exact ⟨value, hlook, rfl⟩
    · rw [boolValues_check item hitem] at hcheck
      cases hcheck
  case h_2 =>
    split at h
    case h_1 e₂ hint32s =>
      cases h
      obtain ⟨item, hitem, hthrows⟩ := readTable_error hint32s
      refine .inl ⟨item, hitem, hthrows, ?_⟩
      rcases hthrows with ⟨ce, hce, rfl⟩ | ⟨v, check, -, hcheck, he⟩
      · exact getValue_int_error_names (fun _ _ => StrToInt32_error_class) hce
      · exact (i32Values_standard item hitem).names hcheck he
    case h_2 =>
      split at h
      case h_1 e₃ hint64s =>
        cases h
        obtain ⟨item, hitem, hthrows⟩ := readTable_error hint64s
        refine .inr (.inl ⟨item, hitem, hthrows, ?_⟩)
        rcases hthrows with ⟨ce, hce, rfl⟩ | ⟨v, check, -, hcheck, he⟩
        · exact getValue_int_error_names (fun _ _ => StrToInt64_error_class) hce
        · exact (i64Values_standard item hitem).names hcheck he
      case h_2 =>
        split at h
        case h_1 e₄ hstrings =>
          -- the strings neither fail to read nor have checks
          obtain ⟨item, hitem, ⟨ce, hce, -⟩ | ⟨v, check, -, hcheck, -⟩⟩ := readTable_error hstrings
          · cases hce
          · rw [strValues_check item hitem] at hcheck
            cases hcheck
        case h_2 => cases h

/-- `rpc.client.connect.retry` set to `0`, below its bound of 1: the check of that item throws,
naming its key. -/
theorem new_error_names_key_on_zero_retry :
    ∃ e, Members.new ⟨[], [("rpc.client.connect.retry".toList, "0".toList)]⟩ = .error e ∧
      ((∃ item ∈ i32Values, ItemThrows (Config.getInt32WithDefault
          ⟨[], [("rpc.client.connect.retry".toList, "0".toList)]⟩) item e ∧ item.key <:+: e.msg) ∨
        (∃ item ∈ i64Values, ItemThrows (Config.getInt64WithDefault
          ⟨[], [("rpc.client.connect.retry".toList, "0".toList)]⟩) item e ∧ item.key <:+: e.msg) ∨
        ∃ item ∈ boolValues, ItemThrows (Config.getBoolWithDefault
          ⟨[], [("rpc.client.connect.retry".toList, "0".toList)]⟩) item e ∧ ∃ value,
          [("rpc.client.connect.retry".toList, "0".toList)].lookup item.key = some value ∧
          e = .config ⟨.HdfsBadBoolFoumat, "Invalid bool type: ".toList ++ cString value, none⟩) :=
  ⟨_, rfl, @new_error_names_key ⟨[], [("rpc.client.connect.retry".toList, "0".toList)]⟩ _ rfl⟩

end Constructor

end SessionConfig

end HdfsClient
