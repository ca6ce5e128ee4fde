import Cmsg.Transport.Recv
import Cmsg.Wire.Tlv

/-! # Receiving a reply

`cmsg_client_invoke_recv` of a client without encryption. The header is peeked
at and received, then everything that it announces. Beside the status and the
message the model returns how many bytes were taken off the connection. -/
namespace Cmsg.Client
open Cmsg.Base Cmsg.Wire

variable {Msg : Type}

/-! ## What the receive functions share -/

/-- What a client does with its service descriptor: `unpackOutput` unpacks a
message of the output descriptor of a method. -/
structure Descriptor (Msg : Type) where
  getMethodIndexByName : CString → Nat
  unpackOutput : Nat → List UInt8 → Option Msg
  freeUnknownFields : Msg → Msg

/-- `cmsg_peek_code` -/
inductive PeekCode
  | success
  | connectionClosed
  | connectionReset
  | timeout
deriving DecidableEq, Repr

/-- `cmsg_transport_peek_to_status_code` -/
def peekToStatusCode : PeekCode → StatusCode
  | .connectionClosed => .connectionClosed
  | .connectionReset => .serverConnreset
  | .timeout => .serviceFailed
  | .success => .success

/-- The `errno` of a `recv` that fails. -/
inductive RecvErrno
  | connreset
  | other
deriving DecidableEq, Repr

/-- `sizeof (buf_static)` -/
def bufStaticSize : Nat := 512

/-- A status and what `messagePtPt` points to. A message comes with the status
of success only. -/
structure Received (Msg : Type) where
  status : StatusCode
  message : Option Msg
  socketClosed : Bool
  message_success : message ≠ none → status = .success

def Received.withoutMessage (status : StatusCode) : Received Msg :=
  ⟨status, none, false, fun h => absurd rfl h⟩

/-- The packet size that a header announces, without the fixed header. -/
def bodyLen (header : Header) : Nat := sub32 header.dynLen headerSize

/-- What `cmsg_client_invoke_recv` returns, the message it leaves in the closure
data, and whether it closes the connection. -/
structure Invoked (Msg : Type) where
  ret : RetCode
  message : Option Msg
  closed : Bool

/-- `cmsg_client_invoke_recv`, given what `cmsg_client_response_receive` returns -/
def invokeRecv (d : Descriptor Msg) (r : Received Msg) : Invoked Msg :=
  match r.status with
  | .serviceFailed | .connectionClosed | .serverConnreset => ⟨.closed, none, true⟩
  | .serviceQueued => ⟨.queued, none, false⟩
  | .serviceDropped => ⟨.dropped, none, false⟩
  | .serverMethodNotFound => ⟨.methodNotFound, none, false⟩
  | status =>
    match r.message with
    | none => if status = .success then ⟨.ok, none, false⟩ else ⟨.err, none, false⟩
    | some message => ⟨.ok, some (d.freeUnknownFields message), false⟩

/-- The invocation succeeds exactly when the receive function reports success. -/
theorem invokeRecv_ok_iff (d : Descriptor Msg) (r : Received Msg) :
    (invokeRecv d r).ret = .ok ↔ r.status = .success := by
  have hm := r.message_success
  unfold invokeRecv
  cases hs : r.status with
  | success =>
    cases r.message with
    | none => simp
    | some message => simp
  | unset | tooManyPending | other =>
    cases hmsg : r.message with
    | none => simp
    | some message =>
      rw [hs] at hm
      exact absurd (hm (by simp [hmsg])) (by simp)
  | serviceFailed | serviceQueued | serviceDropped | serverConnreset | serverMethodNotFound
  | connectionClosed => simp

/-- A message that was received is handed back without its unknown fields. -/
theorem invokeRecv_message (d : Descriptor Msg) (r : Received Msg) :
    (invokeRecv d r).message = r.message.map d.freeUnknownFields := by
  have hm := r.message_success
  unfold invokeRecv
  cases hmsg : r.message with
  | none =>
    cases r.status with
    | success => rfl
    | _ => simp
  | some message =>
    rw [hmsg] at hm
    rw [hm (by simp)]
    rfl

/-! ## Receiving on a plain connection -/

/-- What a call meets: the bytes that arrive, how the peek and the two calls of
`recv` end, and which allocations succeed. -/
structure Arrival where
  stream : List UInt8
  peekCode : PeekCode
  peeked : peekCode = .success → headerSize ≤ stream.length
  headerErrno : Option RecvErrno
  bodyErrno : Option RecvErrno
  calloc : Nat → Bool

-- what the receive buffer is cleared to
def zeroed : Memory := fun _ => 0

/-- The processing of a body that was received. -/
def receiveBody (d : Descriptor Msg) (header : Header) (body : List UInt8) : Received Msg :=
  let m := ofBytes body zeroed
  let tlv := tlvHeaderProcess d.getMethodIndexByName m 0 header.extraHeaderSize ⟨0, []⟩
  if tlv.ret ≠ .ok then .withoutMessage .serviceFailed
  else if h : header.statusCode = .success then
    match d.unpackOutput tlv.request.methodIndex
        (slice m header.extraHeaderSize header.messageLength) with
    | some message => ⟨header.statusCode, some message, false, fun _ => h⟩
    | none => .withoutMessage .serviceFailed
  else .withoutMessage header.statusCode

/-- What `recv_wrapper` returns for the body. -/
def Arrival.nbytes (a : Arrival) (dynLen : Nat) : Int :=
  match a.bodyErrno with
  | some _ => -1
  | none => toInt32 (wrap32 (recvCount (a.stream.drop headerSize) dynLen))

/-- `cmsg_transport_client_recv` once the header is received. -/
def receiveAnnounced (d : Descriptor Msg) (a : Arrival) (header : Header) : Received Msg × Nat :=
  let dynLen := bodyLen header
  if dynLen = 0 then (.withoutMessage header.statusCode, headerSize)
  else if bufStaticSize < dynLen ∧ a.calloc dynLen = false then
    ({ Received.withoutMessage .serviceFailed with socketClosed := true }, headerSize)
  else
    let received := recvCount (a.stream.drop headerSize) dynLen
    if a.nbytes dynLen = toInt32 dynLen then
      (receiveBody d header ((a.stream.drop headerSize).take received), headerSize + received)
    else (.withoutMessage .serviceFailed, headerSize + received)

/-- `cmsg_transport_client_recv`, and the number of bytes it takes. A header that
could be peeked at is received as a whole, or not at all. -/
def clientRecv (d : Descriptor Msg) (a : Arrival) : Received Msg × Nat :=
  if a.peekCode ≠ .success then (.withoutMessage (peekToStatusCode a.peekCode), 0)
  else match a.headerErrno with
    | some .connreset => (.withoutMessage .serverConnreset, 0)
    | some .other => (.withoutMessage .serviceFailed, 0)
    | none =>
      match headerProcess (ofBytes a.stream zeroed) with
      | none => (.withoutMessage .serviceFailed, headerSize)
      | some header => receiveAnnounced d a header

/-- The arrival of some bytes that can all be received. -/
def Arrival.complete (stream : List UInt8) (h : headerSize ≤ stream.length) : Arrival where
  stream
  peekCode := .success
  peeked _ := h
  headerErrno := none
  bodyErrno := none
  calloc _ := true

section
variable (d : Descriptor Msg) {stream : List UInt8} {header : Header}
  (h : headerSize ≤ stream.length)

theorem clientRecv_complete (hp : headerProcess (ofBytes stream zeroed) = some header) :
    clientRecv d (.complete stream h) = receiveAnnounced d (.complete stream h) header := by
  have hpeek : (Arrival.complete stream h).peekCode = .success := rfl
  have herrno : (Arrival.complete stream h).headerErrno = none := rfl
  have hstream : (Arrival.complete stream h).stream = stream := rfl
  unfold clientRecv
  rw [if_neg (not_not.mpr hpeek), herrno, hstream, hp]

theorem receiveAnnounced_empty (a : Arrival) (h0 : bodyLen header = 0) :
    receiveAnnounced d a header = (.withoutMessage header.statusCode, headerSize) := if_pos h0

/-- A body that arrives as a whole is received as a whole. -/
theorem receiveAnnounced_complete (h0 : bodyLen header ≠ 0) (hlt : bodyLen header < 2 ^ 31)
    (hle : headerSize + bodyLen header ≤ stream.length) :
    receiveAnnounced d (.complete stream h) header =
      (receiveBody d header ((stream.drop headerSize).take (bodyLen header)),
        headerSize + bodyLen header) := by
  have hcount : recvCount (stream.drop headerSize) (bodyLen header) = bodyLen header :=
    recvCount_eq (by rw [List.length_drop]; omega) hlt
  have hword : wrap32 (bodyLen header) = bodyLen header :=
    wrap32_of_lt (lt_word32 hlt)
  have hnbytes : (Arrival.complete stream h).nbytes (bodyLen header) =
      toInt32 (wrap32 (recvCount (stream.drop headerSize) (bodyLen header))) := rfl
  rw [hcount, hword] at hnbytes
  have hcalloc : ¬ (bufStaticSize < bodyLen header ∧
      (Arrival.complete stream h).calloc (bodyLen header) = false) := fun hc => by cases hc.2
  have hstream : (Arrival.complete stream h).stream = stream := rfl
  unfold receiveAnnounced
  dsimp only
  rw [if_neg h0, if_neg hcalloc, if_pos hnbytes, hstream, hcount]

end
end Cmsg.Client
