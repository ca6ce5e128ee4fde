import Cmsg.Server.Queue
import Cmsg.Transport.Recv
import Cmsg.Wire.Tlv

/-! # Receiving a packet

`cmsg_server_receive` on a connection without encryption: the header is peeked
at, the whole packet is received, and the TLV headers and the message are
processed. The model returns what the function does together with what it
looks at: the positions of the receive buffer and the indices of the method
table. -/
namespace Cmsg.Server
open Cmsg.Base Cmsg.Wire

variable {Msg : Type} {svc : Service Msg}

/-- A connection: the bytes that arrive before the peer stops sending, what lies
in the receive buffer after them, and which allocations succeed. -/
structure Connection where
  stream : List UInt8
  stale : Memory
  calloc : Nat → Bool

/-- What became of a request, and the positions and method indices looked at. -/
structure Processed (svc : Service Msg) where
  state : State svc
  events : List (Event Msg)
  ret : RetCode
  inspected : List Nat
  indexed : List Nat

/-- The send functions of a one-way transport send nothing. -/
def serverSend (s : State svc) (reply : Reply) : List (Event Msg) :=
  if s.rpc then [.sent reply] else []

/-- `_cmsg_server_method_req_message_processor`: the name and the input of the
method are read before its index is checked. -/
def methodReqMessageProcessor (s : State svc) (calloc : Nat → Bool) (m : Memory)
    (bufferData messageLength : Nat) (request : TlvRequest) : Processed svc :=
  if h : request.methodIndex < svc.nMethods then
    let inspected := span bufferData messageLength
    match (svc.methods.get ⟨_, h⟩).unpack (slice m bufferData messageLength) with
    | none => ⟨s, [], .err, inspected, [request.methodIndex]⟩
    | some message =>
      let (s, events, ok) :=
        methodReqDispatch s ⟨⟨_, h⟩, request.methodNameRecvd, message, calloc⟩
      ⟨s, events, if ok then .ok else .err, inspected, [request.methodIndex]⟩
  else ⟨s, [], .err, [], [request.methodIndex]⟩

/-- `_cmsg_server_echo_req_message_processor`, where sends succeed. -/
def echoReply : Reply := ⟨.echoReply, .success, none, []⟩

/-- `cmsg_server_message_processor` -/
def messageProcessor (s : State svc) (calloc : Nat → Bool) (header : Header) (m : Memory)
    (bufferData : Nat) (request : TlvRequest) : Processed svc :=
  match header.msgType with
  | .methodReq => methodReqMessageProcessor s calloc m bufferData header.messageLength request
  | .echoReq => ⟨s, serverSend s echoReply, .ok, [], []⟩
  | .connOpen => ⟨s, [], .ok, [], []⟩
  | .methodReply | .echoReply => ⟨s, [], .err, [], []⟩

/-- A call of `cmsg_server_receive`: the number of bytes received, whether the loop over
the TLV headers was entered and whether the message processor was called. -/
structure Reception (svc : Service Msg) extends Processed svc where
  nbytes : Nat
  tlvLooped : Bool
  dispatched : Bool

/-- A call that ends before there is anything to process. -/
def Reception.nothing (s : State svc) (ret : RetCode) (nbytes : Nat) : Reception svc :=
  { state := s, events := [], ret, inspected := [], indexed := [], nbytes, tlvLooped := false,
    dispatched := false }

/-- `cmsg_server_recv_process`. What the message processor returns is logged and
forgotten. -/
def serverRecvProcess (s : State svc) (calloc : Nat → Bool) (header : Header) (m : Memory)
    (nbytes : Nat) : Reception svc :=
  let tlv := tlvHeaderProcess svc.getMethodIndexByName m headerSize header.extraHeaderSize .init
  let tlvLooped := decide (tlvSize 0 ≤ header.extraHeaderSize)
  match tlv.ret with
  | .ok =>
    if header.messageLength = 0 ∨ toInt32 (wrap32 nbytes) = toInt32 header.dynLen then
      let r := messageProcessor s calloc header m (headerSize + header.extraHeaderSize) tlv.request
      { state := r.state, events := r.events, ret := .ok, inspected := tlv.inspected ++ r.inspected
        indexed := r.indexed, nbytes, tlvLooped, dispatched := true }
    else
      { state := s, events := [], ret := .err, inspected := tlv.inspected, indexed := [], nbytes
        tlvLooped, dispatched := false }
  | ret =>
    let events :=
      if ret = .methodNotFound then serverSend s (emptyMethodReply .serverMethodNotFound) else []
    { state := s, events, ret, inspected := tlv.inspected, indexed := [], nbytes
      tlvLooped, dispatched := false }

/-- `cmsg_server_receive`, through `cmsg_transport_server_recv`. A header that
cannot be peeked at, that is not known, or whose packet cannot be allocated, is
an error. -/
def serverReceive (s : State svc) (c : Connection) : Reception svc :=
  if c.stream.length < headerSize then .nothing s .err 0
  else match headerProcess (ofBytes c.stream c.stale) with
    | none => .nothing s .err 0
    | some header =>
      if recvBufferSize < header.dynLen ∧ c.calloc header.dynLen = false then .nothing s .err 0
      else
        let nbytes := recvCount c.stream header.dynLen
        if 0 < toInt32 (wrap32 nbytes) then
          serverRecvProcess s c.calloc header (ofBytes (c.stream.take nbytes) c.stale) nbytes
        else .nothing s .ok nbytes

end Cmsg.Server
