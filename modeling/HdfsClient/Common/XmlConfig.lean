import HdfsClient.Lib.Strtol
import HdfsClient.Lib.LruCache
import HdfsClient.Client.KerberosName

/-!
# Configuration files

`Config` (`common/XmlConfig.cpp`) holds the client's settings: a map from keys to strings, read
from an XML file of `<property>` elements, each with a `<name>` and a `<value>`. `update` parses the
file with libxml2, `readConfigItems` walks the `<configuration>` root, and `readConfigItem` reads
one property; a name without a value stores the empty string. The getters look a key up and
convert its string: `getInt32` with `strtol`, `getInt64` with `strtoll`, `getBool` by a comparison
that ignores case. Each throws `HdfsConfigNotFound` for a missing key, and its overload with a
default returns the default instead. For a string that does not convert, each catches the
conversion's exception and throws `HdfsConfigNotFound` in its place, nested.

**The model.** The document is the tree libxml2 builds (`XmlNode`) once `xmlReadFile` has parsed
the file, and the map is a list of entries. libxml2 is not part of the client: its
`xmlDocGetRootElement` is a parameter (`LibXml`), with what the client assumes of it. The six getters are one definition, `Config.getValue`,
given each getter's conversion, the exception class its `catch` names and its default.
`StrToInt32` and `StrToInt64` read with `LibC.strtol`, glibc's conversion before 2.38.

**Theorem (`getters_error_contract`).** For every map and every key, the getters return the value
of a complete literal, and throw `HdfsConfigNotFound` for a missing key without a default. Two
cases break the single contract one could expect. The empty string is the value 0 for the integer
getters, since `strtol` leaves `end` at its NUL. `getBool(key, def)` catches `HdfsBadNumFoumat`,
which `StrToBool` never throws, so the `HdfsBadBoolFoumat` of a string that is not a boolean
escapes it.
-/

namespace HdfsClient

open LibC

/-! ## Exceptions -/

/-- The exception classes `Config` throws (`common/Exception.h`): each derives from
`HdfsException` and from no other of them. -/
inductive ConfigException
  | HdfsBadNumFoumat
  | HdfsBadBoolFoumat
  | HdfsBadConfigFoumat
  | HdfsConfigNotFound
  deriving DecidableEq, Repr

/-- A thrown exception: its class, the message `THROW` formats after the class name, and for
`NESTED_THROW` the class and message of the exception it was thrown in the handler of. -/
structure ConfigError where
  exception : ConfigException
  msg : List Char
  nested : Option (ConfigException × List Char)
  deriving DecidableEq, Repr

/-- "Config key: %s not found". -/
def notFound (key : List Char) : List Char := "Config key: ".toList ++ key ++ " not found".toList

/-- "Config cannot parse configure file: \"%s\"". -/
def badConfig (path : List Char) : ConfigError :=
  ⟨.HdfsBadConfigFoumat, "Config cannot parse configure file: \"".toList ++ path ++ "\"".toList,
    none⟩

/-! ## Reading the file -/

/-- The node types of `xmlElementType` that a parsed document holds. -/
inductive XmlElementType
  | XML_ELEMENT_NODE
  | XML_TEXT_NODE
  | XML_CDATA_SECTION_NODE
  | XML_ENTITY_REF_NODE
  | XML_PI_NODE
  | XML_COMMENT_NODE
  deriving DecidableEq, Repr

/-- An `xmlNode`: its type, its `name`, its `content` (that of a text node) and its children, the
first at `children` and each further one at the `next` of the one before. -/
structure XmlNode where
  type : XmlElementType
  name : List Char
  content : List Char
  children : List XmlNode

/-- The text of an element whose first child is a text node: `curNode->children->content`, read
as a C string. -/
def XmlNode.firstText (node : XmlNode) : Option (List Char) :=
  match node.children with
  | child :: _ => if child.type = .XML_TEXT_NODE then some (cString child.content) else none
  | [] => none

/-- A text node. -/
def XmlNode.text (content : List Char) : XmlNode := ⟨.XML_TEXT_NODE, [], content, []⟩

/-- An element with its children. -/
def XmlNode.element (name : List Char) (children : List XmlNode) : XmlNode :=
  ⟨.XML_ELEMENT_NODE, name, [], children⟩

/-- `<property><name>key</name><value>value</value></property>`, without the `<value>` for
`none`. -/
def propertyNode (key : List Char) (value : Option (List Char)) : XmlNode :=
  .element "property".toList <| .element "name".toList [.text key] ::
    match value with
    | some v => [.element "value".toList [.text v]]
    | none => []

/-- The document `<configuration>` of these properties, in order. -/
def configurationDocument (props : List (List Char × Option (List Char))) : List XmlNode :=
  [.element "configuration".toList (props.map fun p => propertyNode p.1 p.2)]

/-- The variables of `readConfigItem`'s loop. -/
structure ItemState where
  key : List Char
  value : List Char
  hasname : Bool
  hasvalue : Bool

/-- One node of `readConfigItem`'s loop: the first `<name>` and the first `<value>` with text are
kept, and every other node is skipped. -/
def readConfigItemStep (st : ItemState) (curNode : XmlNode) : ItemState :=
  if curNode.type ≠ .XML_ELEMENT_NODE then st
  else if !st.hasname && curNode.name = "name".toList then
    match curNode.firstText with
    | some key => { st with key := key, hasname := true }
    | none => st
  else if !st.hasvalue && curNode.name = "value".toList then
    match curNode.firstText with
    | some value => { st with value := value, hasvalue := true }
    | none => st
  else st

/-- `kv[key] = value`. -/
def assign (kv : List (List Char × List Char)) (key value : List Char) :
    List (List Char × List Char) :=
  (key, value) :: Lru.removeKey key kv

/-- `readConfigItem(root, kv, path)`, over the children of a `<property>` from `root` on: the
name and the value stored, the empty string for a name alone; without a name, an exception. -/
def readConfigItem (root : List XmlNode) (kv : List (List Char × List Char)) (path : List Char) :
    Except ConfigError (List (List Char × List Char)) :=
  let st := root.foldl readConfigItemStep ⟨[], [], false, false⟩
  if st.hasname && st.hasvalue then .ok (assign kv st.key st.value)
  else if st.hasname then .ok (assign kv st.key [])
  else .error (badConfig path)

/-- The loop of `readConfigItems` over the children of the root: each `<property>` read into `kv`
in turn, and any other element refused. An exception ends it, and `kv` keeps what was read
before. -/
def readConfigItemsLoop (path : List Char) :
    List XmlNode → List (List Char × List Char) → List (List Char × List Char) × Option ConfigError
  | [], kv => (kv, none)
  | curNode :: rest, kv =>
    if curNode.type ≠ .XML_ELEMENT_NODE then readConfigItemsLoop path rest kv
    else if curNode.name ≠ "property".toList then (kv, some (badConfig path))
    else
      match readConfigItem curNode.children kv path with
      | .ok kv => readConfigItemsLoop path rest kv
      | .error e => (kv, some e)

/-- The elements among nodes, in order: all that the readers look at. -/
def elementsOf (ns : List XmlNode) : List XmlNode := ns.filter fun n => n.type = .XML_ELEMENT_NODE

/-- What the client uses of libxml2, which is not part of it, once `xmlReadFile` has parsed a
file: `xmlDocGetRootElement(doc)`, given the document's top nodes, and what the client assumes of
it, that it finds the root of a document whose one element at the top is that root. -/
structure LibXml where
  xmlDocGetRootElement : List XmlNode → Option XmlNode
  getRoot_of_elementsOf : ∀ doc root, elementsOf doc = [root] → xmlDocGetRootElement doc = some root

/-- libxml2's `xmlDocGetRootElement`: the first element among the top nodes. -/
def LibXml.libxml2 : LibXml where
  xmlDocGetRootElement doc := doc.find? (·.type = .XML_ELEMENT_NODE)
  getRoot_of_elementsOf doc root h := by
    rw [← List.head?_filter]
    exact congrArg List.head? h

/-- `readConfigItems(doc, kv, path)`: the root must be `<configuration>`. -/
def readConfigItems (xml : LibXml) (doc : List XmlNode) (kv : List (List Char × List Char))
    (path : List Char) : List (List Char × List Char) × Option ConfigError :=
  match xml.xmlDocGetRootElement doc with
  | some root =>
    if root.name ≠ "configuration".toList then (kv, some (badConfig path))
    else readConfigItemsLoop path root.children kv
  | none => (kv, some (badConfig path))

/-- A `Config`: the path of its file and its map. -/
structure Config where
  path : List Char
  kv : List (List Char × List Char)
  deriving DecidableEq, Repr

/-- `update(p)`: the map emptied and the path set; then `access` (which gives the text of `errno`
when the file cannot be read) and `xmlReadFile` (which gives no document when it cannot parse
it). An exception leaves the `Config` with the properties read before it. -/
def Config.update (xml : LibXml) (_c : Config) (p : List Char) (access : Option (List Char))
    (doc : Option (List XmlNode)) : Config × Option ConfigError :=
  match access with
  | some err =>
    (⟨p, []⟩, some ⟨.HdfsBadConfigFoumat,
      "Cannot read configure file: \"".toList ++ p ++ "\", ".toList ++ err, none⟩)
  | none =>
    match doc with
    | none => (⟨p, []⟩, some (badConfig p))
    | some doc =>
      let (kv, e) := readConfigItems xml doc [] p
      (⟨p, kv⟩, e)

/-! ## Conversions -/

/-- `StrToInt32` and `StrToInt64`: `conv` (`strtol` or `strtoll`, with base 0) must stop at the
NUL, and its value must be in `[lo, hi]`, the range of `typeName`. -/
def StrToInt (typeName : List Char) (lo hi : Int) (conv : List Char → StrtolResult)
    (str : List Char) : Except ConfigError Int :=
  let r := conv str
  if r.errno = some .EINVAL ∨ charAt str r.endPos ≠ '\x00' then
    .error ⟨.HdfsBadNumFoumat, "Invalid ".toList ++ typeName ++ " type: ".toList ++ str, none⟩
  else if r.errno = some .ERANGE ∨ r.value > hi ∨ r.value < lo then
    .error ⟨.HdfsBadNumFoumat,
      "Underflow/Overflow ".toList ++ typeName ++ " type: ".toList ++ str, none⟩
  else .ok r.value

/-- `StrToInt32(str)`. -/
def StrToInt32 (str : List Char) : Except ConfigError Int32 :=
  Int32.ofInt <$> StrToInt "int32_t".toList (-2 ^ 31) (2 ^ 31 - 1) (fun s => strtol s 0) str

/-- `StrToInt64(str)`. -/
def StrToInt64 (str : List Char) : Except ConfigError Int64 :=
  Int64.ofInt <$> StrToInt "int64_t".toList (-2 ^ 63) (2 ^ 63 - 1) (fun s => strtoll s 0) str

/-- `strcasecmp(a, b) == 0`: the strings are equal after `tolower` of each character. -/
def strcaseeq (a b : List Char) : Bool := a.map Char.toLower == b.map Char.toLower

/-- `StrToBool(str)`: `true` or `false` in any case, or `1` or `0`. -/
def StrToBool (str : List Char) : Except ConfigError Bool :=
  if strcaseeq str "true".toList || str == "1".toList then .ok true
  else if strcaseeq str "false".toList || str == "0".toList then .ok false
  else .error ⟨.HdfsBadBoolFoumat, "Invalid bool type: ".toList ++ str, none⟩

/-! ## The getters -/

namespace Config

/-- The getters' shape: find `key`; when it is missing, return the default `dflt`, or throw
`HdfsConfigNotFound` without one; otherwise convert the C string of its value with `conv`, and
throw `HdfsConfigNotFound`, nested, in place of an exception of the class `caught`. -/
def getValue {α : Type} (conv : List Char → Except ConfigError α) (caught : ConfigException)
    (dflt : Option α) (c : Config) (key : List Char) : Except ConfigError α :=
  match c.kv.lookup key with
  | none =>
    match dflt with
    | some d => .ok d
    | none => .error ⟨.HdfsConfigNotFound, notFound key, none⟩
  | some value =>
    match conv (cString value) with
    | .ok v => .ok v
    | .error e =>
      if e.exception = caught then .error ⟨.HdfsConfigNotFound, notFound key, some (e.exception, e.msg)⟩
      else .error e

/-- `getInt64(key)`. -/
def getInt64 (c : Config) (key : List Char) : Except ConfigError Int64 :=
  c.getValue StrToInt64 .HdfsBadNumFoumat none key

/-- `getInt64(key, def)`. -/
def getInt64WithDefault (c : Config) (key : List Char) (dflt : Int64) : Except ConfigError Int64 :=
  c.getValue StrToInt64 .HdfsBadNumFoumat (some dflt) key

/-- `getInt32(key)`. -/
def getInt32 (c : Config) (key : List Char) : Except ConfigError Int32 :=
  c.getValue StrToInt32 .HdfsBadNumFoumat none key

/-- `getInt32(key, def)`. -/
def getInt32WithDefault (c : Config) (key : List Char) (dflt : Int32) : Except ConfigError Int32 :=
  c.getValue StrToInt32 .HdfsBadNumFoumat (some dflt) key

/-- `getBool(key)`: catches `HdfsBadBoolFoumat`. -/
def getBool (c : Config) (key : List Char) : Except ConfigError Bool :=
  c.getValue StrToBool .HdfsBadBoolFoumat none key

/-- `getBool(key, def)`: its `catch` names `HdfsBadNumFoumat`, as the source has it. -/
def getBoolWithDefault (c : Config) (key : List Char) (dflt : Bool) : Except ConfigError Bool :=
  c.getValue StrToBool .HdfsBadNumFoumat (some dflt) key

/-- `getString(key)`. -/
def getString (c : Config) (key : List Char) : Except ConfigError (List Char) :=
  match c.kv.lookup key with
  | none => .error ⟨.HdfsConfigNotFound, notFound key, none⟩
  | some value => .ok (cString value)

/-- `getString(key, def)`. -/
def getStringWithDefault (c : Config) (key dflt : List Char) : List Char :=
  match c.kv.lookup key with
  | none => dflt
  | some value => cString value

end Config

/-! ## The conversions against the literals -/

/-- `str` is a boolean literal of value `b`: `true` or `false` in any case, or `1` or `0`. -/
def BoolLiteral (str : List Char) (b : Bool) : Prop :=
  if b then str.map Char.toLower = "true".toList ∨ str = "1".toList
  else str.map Char.toLower = "false".toList ∨ str = "0".toList

instance (str : List Char) (b : Bool) : Decidable (BoolLiteral str b) :=
  inferInstanceAs (Decidable (if b then str.map Char.toLower = "true".toList ∨ str = "1".toList
    else str.map Char.toLower = "false".toList ∨ str = "0".toList))

theorem nul_not_mem_cString (s : List Char) : '\x00' ∉ cString s := fun h => by
  simpa using List.mem_takeWhile_imp h

section StrToInt

variable {typeName : List Char} {lo hi : Int}

/-- The empty string converts to 0: `strtol` reads no digit and leaves `end` at its NUL. -/
theorem StrToInt_nil (hlo : lo ≤ 0) (hhi : 0 ≤ hi) :
    StrToInt typeName lo hi (fun s => strto 64 s 0) [] = .ok 0 := by
  have hstrto : strto 64 [] 0 = ⟨0, 0, none⟩ := by decide
  simp only [StrToInt, hstrto, charAt_nil]
  simp
  omega

/-- A literal whose value is in the range converts to it. -/
theorem StrToInt_of_literal {str : List Char} {n : Int} (h : IntLiteral str n) (hlo : lo ≤ n)
    (hhi : n ≤ hi) (hlong : -2 ^ 63 ≤ lo ∧ hi < 2 ^ 63) :
    StrToInt typeName lo hi (fun s => strto 64 s 0) str = .ok n := by
  obtain ⟨hend, hconv⟩ := strto_of_literal (w := 64) (by norm_num) h
  have hin : -2 ^ (64 - 1) ≤ n ∧ n < 2 ^ (64 - 1) := by
    norm_num
    omega
  rw [Converts, if_pos hin] at hconv
  have hnul : charAt str str.length = '\x00' := by simp [charAt]
  simp only [StrToInt, hend, hconv.1, hconv.2, hnul]
  simp
  omega

/-- **Any other string throws.** A non-empty C string that is not a literal with a value in the
range throws `HdfsBadNumFoumat`. -/
theorem StrToInt_error {str : List Char} (hnul : '\x00' ∉ str) (hs : str ≠ [])
    (h : ¬∃ n, IntLiteral str n ∧ lo ≤ n ∧ n ≤ hi) :
    ∃ msg, StrToInt typeName lo hi (fun s => strto 64 s 0) str =
      .error ⟨.HdfsBadNumFoumat, msg, none⟩ := by
  simp only [StrToInt]
  split
  · exact ⟨_, rfl⟩
  split
  · exact ⟨_, rfl⟩
  rename_i hread hrange
  -- `strtol` read the whole string: it is a literal, and `strtol` returned its value
  push Not at hread hrange
  obtain ⟨n, hn⟩ := literal_of_strto hnul hs hread.2
  obtain ⟨-, hconv⟩ := strto_of_literal (w := 64) (by norm_num) hn
  unfold Converts at hconv
  split at hconv
  · exact absurd ⟨n, hn, hconv.2 ▸ hrange.2.2, hconv.2 ▸ hrange.2.1⟩ h
  · exact absurd hconv hrange.1

end StrToInt

theorem StrToInt32_nil : StrToInt32 [] = .ok 0 := by
  unfold StrToInt32 strtol
  rw [StrToInt_nil (by norm_num) (by norm_num)]
  rfl

theorem StrToInt64_nil : StrToInt64 [] = .ok 0 := by
  unfold StrToInt64 strtoll
  rw [StrToInt_nil (by norm_num) (by norm_num)]
  rfl

theorem StrToInt32_of_literal {str : List Char} {n : Int} (h : IntLiteral str n)
    (hlo : -2 ^ 31 ≤ n) (hhi : n < 2 ^ 31) : StrToInt32 str = .ok (Int32.ofInt n) := by
  unfold StrToInt32 strtol
  rw [StrToInt_of_literal h hlo (by omega) (by norm_num)]
  rfl

theorem StrToInt64_of_literal {str : List Char} {n : Int} (h : IntLiteral str n)
    (hlo : -2 ^ 63 ≤ n) (hhi : n < 2 ^ 63) : StrToInt64 str = .ok (Int64.ofInt n) := by
  unfold StrToInt64 strtoll
  rw [StrToInt_of_literal h hlo (by omega) (by norm_num)]
  rfl

theorem StrToInt32_error {str : List Char} (hnul : '\x00' ∉ str) (hs : str ≠ [])
    (h : ¬∃ n, IntLiteral str n ∧ -2 ^ 31 ≤ n ∧ n < 2 ^ 31) :
    ∃ msg, StrToInt32 str = .error ⟨.HdfsBadNumFoumat, msg, none⟩ := by
  obtain ⟨msg, hmsg⟩ : ∃ msg, StrToInt "int32_t".toList (-2 ^ 31) (2 ^ 31 - 1)
      (fun s => strto 64 s 0) str = .error ⟨.HdfsBadNumFoumat, msg, none⟩ :=
    StrToInt_error hnul hs fun ⟨n, hn, hlo, hhi⟩ => h ⟨n, hn, hlo, by omega⟩
  exact ⟨msg, by unfold StrToInt32 strtol; rw [hmsg]; rfl⟩

theorem StrToInt64_error {str : List Char} (hnul : '\x00' ∉ str) (hs : str ≠ [])
    (h : ¬∃ n, IntLiteral str n ∧ -2 ^ 63 ≤ n ∧ n < 2 ^ 63) :
    ∃ msg, StrToInt64 str = .error ⟨.HdfsBadNumFoumat, msg, none⟩ := by
  obtain ⟨msg, hmsg⟩ : ∃ msg, StrToInt "int64_t".toList (-2 ^ 63) (2 ^ 63 - 1)
      (fun s => strto 64 s 0) str = .error ⟨.HdfsBadNumFoumat, msg, none⟩ :=
    StrToInt_error hnul hs fun ⟨n, hn, hlo, hhi⟩ => h ⟨n, hn, hlo, by omega⟩
  exact ⟨msg, by unfold StrToInt64 strtoll; rw [hmsg]; rfl⟩

/-- A boolean literal converts to its value. -/
theorem StrToBool_of_literal {str : List Char} {b : Bool} (h : BoolLiteral str b) :
    StrToBool str = .ok b := by
  unfold StrToBool strcaseeq
  cases b with
  | true =>
    rw [BoolLiteral, if_pos rfl] at h
    rw [if_pos]
    rcases h with h | rfl
    · simp [h]
    · decide
  | false =>
    rw [BoolLiteral, if_neg Bool.false_ne_true] at h
    -- a lower-cased `false` or a `0` is neither a `true` nor a `1`
    rcases h with h | rfl
    · have hne : str ≠ ['1'] := by
        rintro rfl
        exact absurd h (by decide)
      rw [if_neg (by simp [h, hne]), if_pos (by simp [h])]
    · decide

/-- Any other string throws `HdfsBadBoolFoumat`. -/
theorem StrToBool_error {str : List Char} (h : ¬∃ b, BoolLiteral str b) :
    StrToBool str = .error ⟨.HdfsBadBoolFoumat, "Invalid bool type: ".toList ++ str, none⟩ := by
  have htrue : "true".toList.map Char.toLower = "true".toList := by decide
  have hfalse : "false".toList.map Char.toLower = "false".toList := by decide
  unfold StrToBool strcaseeq
  rw [if_neg, if_neg]
  · intro hf
    refine h ⟨false, ?_⟩
    simpa [BoolLiteral, hfalse] using hf
  · intro ht
    refine h ⟨true, ?_⟩
    simpa [BoolLiteral, htrue] using ht

/-! ## The getters -/

namespace Config

variable {α : Type} {conv : List Char → Except ConfigError α} {caught : ConfigException}
  {c : Config} {key : List Char}

theorem getValue_missing (h : c.kv.lookup key = none) :
    c.getValue conv caught none key = .error ⟨.HdfsConfigNotFound, notFound key, none⟩ := by
  simp [getValue, h]

theorem getValue_missing_default (h : c.kv.lookup key = none) (d : α) :
    c.getValue conv caught (some d) key = .ok d := by
  simp [getValue, h]

theorem getValue_of_ok {value : List Char} (h : c.kv.lookup key = some value) {v : α}
    (hv : conv (cString value) = .ok v) (dflt : Option α) : c.getValue conv caught dflt key = .ok v := by
  simp [getValue, h, hv]

/-- A conversion's exception: `HdfsConfigNotFound` with it nested when the `catch` names its class,
and the exception itself otherwise. -/
theorem getValue_of_error {value : List Char} (h : c.kv.lookup key = some value) {e : ConfigError}
    (he : conv (cString value) = .error e) (dflt : Option α) :
    c.getValue conv caught dflt key =
      if e.exception = caught then .error ⟨.HdfsConfigNotFound, notFound key, some (e.exception, e.msg)⟩
      else .error e := by
  simp [getValue, h, he]

/-- **The getters' contract.** For every map and key: a missing key throws `HdfsConfigNotFound`,
or gives the default; a complete literal in the type's range gives its value. The empty string
gives 0 to the integer getters. Any other string makes them throw `HdfsConfigNotFound` with the
conversion's exception nested, but `getBool(key, def)` lets the `HdfsBadBoolFoumat` of a string
that is not a boolean through. -/
theorem getters_error_contract (c : Config) (key : List Char) :
    (c.kv.lookup key = none →
      c.getInt32 key = .error ⟨.HdfsConfigNotFound, notFound key, none⟩ ∧
      c.getInt64 key = .error ⟨.HdfsConfigNotFound, notFound key, none⟩ ∧
      c.getBool key = .error ⟨.HdfsConfigNotFound, notFound key, none⟩ ∧
      (∀ d, c.getInt32WithDefault key d = .ok d) ∧ (∀ d, c.getInt64WithDefault key d = .ok d) ∧
      ∀ d, c.getBoolWithDefault key d = .ok d) ∧
    ∀ value, c.kv.lookup key = some value →
      (∀ n, IntLiteral (cString value) n → -2 ^ 31 ≤ n → n < 2 ^ 31 →
        c.getInt32 key = .ok (Int32.ofInt n) ∧
          ∀ d, c.getInt32WithDefault key d = .ok (Int32.ofInt n)) ∧
      (∀ n, IntLiteral (cString value) n → -2 ^ 63 ≤ n → n < 2 ^ 63 →
        c.getInt64 key = .ok (Int64.ofInt n) ∧
          ∀ d, c.getInt64WithDefault key d = .ok (Int64.ofInt n)) ∧
      (∀ b, BoolLiteral (cString value) b →
        c.getBool key = .ok b ∧ ∀ d, c.getBoolWithDefault key d = .ok b) ∧
      (cString value = [] →
        c.getInt32 key = .ok 0 ∧ (∀ d, c.getInt32WithDefault key d = .ok 0) ∧
        c.getInt64 key = .ok 0 ∧ ∀ d, c.getInt64WithDefault key d = .ok 0) ∧
      (cString value ≠ [] → (¬∃ n, IntLiteral (cString value) n ∧ -2 ^ 31 ≤ n ∧ n < 2 ^ 31) →
        ∃ e, c.getInt32 key = .error ⟨.HdfsConfigNotFound, notFound key, some e⟩ ∧
          ∀ d, c.getInt32WithDefault key d = .error ⟨.HdfsConfigNotFound, notFound key, some e⟩) ∧
      (cString value ≠ [] → (¬∃ n, IntLiteral (cString value) n ∧ -2 ^ 63 ≤ n ∧ n < 2 ^ 63) →
        ∃ e, c.getInt64 key = .error ⟨.HdfsConfigNotFound, notFound key, some e⟩ ∧
          ∀ d, c.getInt64WithDefault key d = .error ⟨.HdfsConfigNotFound, notFound key, some e⟩) ∧
      ((¬∃ b, BoolLiteral (cString value) b) →
        c.getBool key = .error ⟨.HdfsConfigNotFound, notFound key,
          some (.HdfsBadBoolFoumat, "Invalid bool type: ".toList ++ cString value)⟩ ∧
        ∀ d, c.getBoolWithDefault key d =
          .error ⟨.HdfsBadBoolFoumat, "Invalid bool type: ".toList ++ cString value, none⟩) := by
  refine ⟨fun h => ⟨getValue_missing h, getValue_missing h, getValue_missing h,
    getValue_missing_default h, getValue_missing_default h, getValue_missing_default h⟩,
    fun value h => ⟨?_, ?_, ?_, ?_, ?_, ?_, ?_⟩⟩
  · intro n hn hlo hhi
    have hv := StrToInt32_of_literal hn hlo hhi
    exact ⟨getValue_of_ok h hv none, fun d => getValue_of_ok h hv (some d)⟩
  · intro n hn hlo hhi
    have hv := StrToInt64_of_literal hn hlo hhi
    exact ⟨getValue_of_ok h hv none, fun d => getValue_of_ok h hv (some d)⟩
  · intro b hb
    have hv := StrToBool_of_literal hb
    exact ⟨getValue_of_ok h hv none, fun d => getValue_of_ok h hv (some d)⟩
  · -- `strtol` reads nothing from the empty string and stops at its NUL
    intro hnil
    have h32 : StrToInt32 (cString value) = .ok 0 := hnil ▸ StrToInt32_nil
    have h64 : StrToInt64 (cString value) = .ok 0 := hnil ▸ StrToInt64_nil
    exact ⟨getValue_of_ok h h32 none, fun d => getValue_of_ok h h32 (some d),
      getValue_of_ok h h64 none, fun d => getValue_of_ok h h64 (some d)⟩
  · intro hne hnot
    obtain ⟨msg, hmsg⟩ := StrToInt32_error (nul_not_mem_cString value) hne hnot
    exact ⟨(.HdfsBadNumFoumat, msg), getValue_of_error h hmsg none,
      fun d => getValue_of_error h hmsg (some d)⟩
  · intro hne hnot
    obtain ⟨msg, hmsg⟩ := StrToInt64_error (nul_not_mem_cString value) hne hnot
    exact ⟨(.HdfsBadNumFoumat, msg), getValue_of_error h hmsg none,
      fun d => getValue_of_error h hmsg (some d)⟩
  · -- `getBool` catches the `HdfsBadBoolFoumat`; `getBool(key, def)` waits for another class
    intro hnot
    have hv := StrToBool_error hnot
    exact ⟨getValue_of_error h hv none, fun d => getValue_of_error h hv (some d)⟩

end Config

/-- A file with a property `k` that has no value and a property `b` whose value is `yes`: `k` is
read as 0, with or without a default, and `getBool(b, def)` throws `HdfsBadBoolFoumat`. -/
theorem getters_error_contract_on_sample_file :
    (Config.update LibXml.libxml2 ⟨[], []⟩ "hdfs-client.xml".toList none (some (configurationDocument
        [("k".toList, none), ("b".toList, some "yes".toList)]))).1.getInt32 "k".toList = .ok 0 ∧
      (Config.update LibXml.libxml2 ⟨[], []⟩ "hdfs-client.xml".toList none (some (configurationDocument
        [("k".toList, none), ("b".toList, some "yes".toList)]))).1.getInt32WithDefault "k".toList 16 =
          .ok 0 ∧
      (Config.update LibXml.libxml2 ⟨[], []⟩ "hdfs-client.xml".toList none (some (configurationDocument
        [("k".toList, none), ("b".toList, some "yes".toList)]))).1.getBoolWithDefault "b".toList true =
          .error ⟨.HdfsBadBoolFoumat, "Invalid bool type: yes".toList, none⟩ := by
  have hk : (Config.update LibXml.libxml2 ⟨[], []⟩ "hdfs-client.xml".toList none (some (configurationDocument
      [("k".toList, none), ("b".toList, some "yes".toList)]))).1.kv.lookup "k".toList = some [] := by
    decide
  have hb : (Config.update LibXml.libxml2 ⟨[], []⟩ "hdfs-client.xml".toList none (some (configurationDocument
      [("k".toList, none), ("b".toList, some "yes".toList)]))).1.kv.lookup "b".toList =
        some "yes".toList := by
    decide
  have hyes : ¬∃ b, BoolLiteral (cString "yes".toList) b := by
    rintro ⟨b, hb⟩
    cases b <;> exact absurd hb (by decide)
  obtain ⟨h32, h32', -⟩ := ((Config.getters_error_contract _ _).2 [] hk).2.2.2.1 rfl
  obtain ⟨-, hbool⟩ := ((Config.getters_error_contract _ _).2 _ hb).2.2.2.2.2.2 hyes
  exact ⟨h32, h32' 16, hbool true⟩

/-! ## Reading a well-formed file -/

/-- Removing a key changes the lookup of no other. -/
theorem lookup_removeKey_of_ne (kv : List (List Char × List Char)) {k key : List Char}
    (h : key ≠ k) : (Lru.removeKey k kv).lookup key = kv.lookup key := by
  have hne : (key == k) = false := by simpa using h
  induction kv with
  | nil => rfl
  | cons e kv ih =>
    obtain ⟨k', v'⟩ := e
    by_cases hk : k' = k
    · subst hk
      rw [Lru.removeKey_cons_self, ih, List.lookup_cons, hne]
    · rw [Lru.removeKey_cons_of_ne v' kv hk, List.lookup_cons, List.lookup_cons, ih]

theorem lookup_assign (kv : List (List Char × List Char)) (k v key : List Char) :
    (assign kv k v).lookup key = if key = k then some v else kv.lookup key := by
  unfold assign
  by_cases h : key = k
  · subst h
    simp
  · have hne : (key == k) = false := by simpa using h
    rw [if_neg h, List.lookup_cons, hne, lookup_removeKey_of_ne _ h]

@[simp] theorem propertyNode_type (k : List Char) (v : Option (List Char)) :
    (propertyNode k v).type = .XML_ELEMENT_NODE := rfl

@[simp] theorem propertyNode_name (k : List Char) (v : Option (List Char)) :
    (propertyNode k v).name = "property".toList := rfl

/-- What a property stores: its name, and its value or the empty string. -/
def propertyEntry (q : List Char × Option (List Char)) : List Char × List Char :=
  (cString q.1, (q.2.map cString).getD [])

/-- A property with a name is read: its value is stored under its name, the empty string when it
has none. -/
theorem readConfigItem_propertyNode (k : List Char) (v : Option (List Char))
    (kv : List (List Char × List Char)) (path : List Char) :
    readConfigItem (propertyNode k v).children kv path =
      .ok (assign kv (propertyEntry (k, v)).1 (propertyEntry (k, v)).2) := by
  cases v <;> simp [readConfigItem, propertyNode, propertyEntry, XmlNode.element, XmlNode.text,
    readConfigItemStep, XmlNode.firstText]

/-- The properties are read in order, each assigned over the ones before. -/
theorem readConfigItemsLoop_properties (path : List Char)
    (props : List (List Char × Option (List Char))) (kv : List (List Char × List Char)) :
    readConfigItemsLoop path (props.map fun q => propertyNode q.1 q.2) kv =
      (props.foldl (fun kv q => assign kv (propertyEntry q).1 (propertyEntry q).2) kv, none) := by
  induction props generalizing kv with
  | nil => rfl
  | cons q props ih =>
    rw [List.map_cons, readConfigItemsLoop, if_neg (by simp), if_neg (by simp),
      readConfigItem_propertyNode]
    exact ih _

/-- After the properties, a key has the value of the last property of its name, or its value
before. -/
theorem lookup_foldl_assign (props : List (List Char × Option (List Char)))
    (kv : List (List Char × List Char)) (key : List Char) :
    (props.foldl (fun kv q => assign kv (propertyEntry q).1 (propertyEntry q).2) kv).lookup key =
      ((props.reverse.find? fun q => (propertyEntry q).1 = key).map fun q => (propertyEntry q).2).or
        (kv.lookup key) := by
  induction props generalizing kv with
  | nil => simp
  | cons q props ih =>
    rw [List.foldl_cons, ih, lookup_assign, List.reverse_cons, List.find?_append,
      Option.map_or, Option.or_assoc]
    by_cases hq : (propertyEntry q).1 = key
    · simp [hq]
    · simp [hq, Ne.symm hq]

/-! ## Indentation and comments

`xmlReadFile`, with no option, keeps the text between elements: the line breaks and the
indentation of a file become text nodes among the elements, and its comments comment nodes. The
readers skip every node that is not an element, so they read a document as they read it without
those nodes, at each of the three levels they walk: the top of the document, the children of the
root and those of each property. Inside a `<name>` or a `<value>`, the text is the first child. -/

/-- The nodes without those that are not elements, `depth` levels down. -/
def dropFillers : Nat → List XmlNode → List XmlNode
  | 0, ns => ns
  | depth + 1, ns => (elementsOf ns).map fun n => { n with children := dropFillers depth n.children }

theorem dropFillers_one (ns : List XmlNode) : dropFillers 1 ns = elementsOf ns := by
  simp only [dropFillers]
  -- `XmlNode` is recursive, so it has no eta: a node is rebuilt from its fields by cases
  exact List.map_id'' (fun n => by cases n; rfl) _

theorem dropFillers_succ_cons_of_element {n : XmlNode} (h : n.type = .XML_ELEMENT_NODE)
    (depth : Nat) (ns : List XmlNode) :
    dropFillers (depth + 1) (n :: ns) =
      { n with children := dropFillers depth n.children } :: dropFillers (depth + 1) ns := by
  simp [dropFillers, elementsOf, h]

theorem dropFillers_succ_cons_of_ne {n : XmlNode} (h : n.type ≠ .XML_ELEMENT_NODE)
    (depth : Nat) (ns : List XmlNode) :
    dropFillers (depth + 1) (n :: ns) = dropFillers (depth + 1) ns := by
  simp [dropFillers, elementsOf, h]

/-- `readConfigItem`'s loop passes over a node that is not an element. -/
theorem readConfigItemStep_of_ne (st : ItemState) {n : XmlNode} (h : n.type ≠ .XML_ELEMENT_NODE) :
    readConfigItemStep st n = st := if_pos h

theorem readConfigItem_dropFillers (ns : List XmlNode) (kv : List (List Char × List Char))
    (path : List Char) : readConfigItem (dropFillers 1 ns) kv path = readConfigItem ns kv path := by
  -- the loop over the elements is the loop over all the nodes, each other node a step that does
  -- nothing
  have hfold : ∀ st : ItemState, (elementsOf ns).foldl readConfigItemStep st =
      ns.foldl readConfigItemStep st := by
    intro st
    rw [elementsOf, List.foldl_filter]
    congr 1
    funext st n
    split
    · rfl
    · next hne => exact (readConfigItemStep_of_ne st (by simpa using hne)).symm
  simp only [readConfigItem, dropFillers_one, hfold]

/-- The loop over the root's children reads the properties as it does without the nodes that are
not elements, there and among each property's children. -/
theorem readConfigItemsLoop_dropFillers (path : List Char) (ns : List XmlNode)
    (kv : List (List Char × List Char)) :
    readConfigItemsLoop path (dropFillers 2 ns) kv = readConfigItemsLoop path ns kv := by
  induction ns generalizing kv with
  | nil => rfl
  | cons n ns ih =>
    by_cases hn : n.type = .XML_ELEMENT_NODE
    · rw [dropFillers_succ_cons_of_element hn, readConfigItemsLoop, readConfigItemsLoop]
      simp only [hn, ne_eq, not_true_eq_false, if_false, readConfigItem_dropFillers, ih]
    · rw [dropFillers_succ_cons_of_ne hn, ih, readConfigItemsLoop, if_pos hn]

/-- A document whose elements, down to the properties' children, are those of
`configurationDocument props` is read as that document is. -/
theorem readConfigItems_of_dropFillers (xml : LibXml) {doc : List XmlNode}
    {props : List (List Char × Option (List Char))}
    (hdoc : dropFillers 3 doc = configurationDocument props) (kv : List (List Char × List Char))
    (path : List Char) :
    readConfigItems xml doc kv path = readConfigItemsLoop path (props.map fun q => propertyNode q.1 q.2) kv := by
  -- the one element at the top is the root, a `<configuration>` of the properties
  obtain ⟨root, hroot, hmk⟩ := List.map_eq_singleton_iff.mp hdoc
  simp only [XmlNode.element, XmlNode.mk.injEq] at hmk
  obtain ⟨-, hname, -, hchildren⟩ := hmk
  rw [readConfigItems, xml.getRoot_of_elementsOf doc root hroot]
  simp only [hname, ne_eq, not_true_eq_false, if_false]
  rw [← readConfigItemsLoop_dropFillers, hchildren]

end HdfsClient
