import Cmsg.Wire.Packet

/-! # Sending a request

`cmsg_client_create_packet` and `_cmsg_client_buffer_send_retry_once` on a client
without encryption. A send that fails closes the connection, and the packet is
sent once more, on a new one. -/
namespace Cmsg.Client
open Cmsg.Base Cmsg.Wire

/-! ## The packet -/

/-- An input message: what `protobuf_c_message_get_packed_size` returns for it and
the bytes that `protobuf_c_message_pack` writes. -/
structure Input where
  packedSize : Nat
  packed : List UInt8
deriving DecidableEq, Repr

/-- `cmsg_client_create_packet`; `none` stands for `CMSG_RET_ERR`. -/
def createPacket (calloc : Nat → Bool) (methodName : CString) (input : Input) :
    Option (List UInt8) :=
  let methodLength := wrap32 (methodName.length + 1)
  let packedSize := wrap32 input.packedSize
  let extraHeaderSize := wrap32 (tlvSize methodLength)
  let totalHeaderSize := wrap32 (headerSize + extraHeaderSize)
  let totalMessageSize := wrap32 (totalHeaderSize + packedSize)
  let header := headerCreate .methodReq extraHeaderSize packedSize .unset
  if !calloc totalMessageSize then none
  else if wrap32 input.packed.length < packedSize then none
  else if wrap32 input.packed.length > packedSize then none
  else
    some ((tlvMethodHeaderCreate header tlvMethodType methodLength methodName ++
      input.packed).take totalMessageSize)

/-- The packet has its method's name and as much of the message as its header says. -/
theorem createPacket_take {calloc : Nat → Bool} {name : CString} {input : Input}
    {packet : List UInt8} (h : createPacket calloc name input = some packet)
    (hsize : headerSize + tlvSize (name.length + 1) + wrap32 input.packedSize < word32) :
    packet = methodPacket .methodReq .unset name (input.packed.take (wrap32 input.packedSize)) ∧
      wrap32 input.packed.length = wrap32 input.packedSize := by
  have htlv : tlvSize (name.length + 1) = 8 + (name.length + 1) := rfl
  have hname : wrap32 (name.length + 1) = name.length + 1 := wrap32_of_lt (by omega)
  have hextra : wrap32 (tlvSize (name.length + 1)) = tlvSize (name.length + 1) :=
    wrap32_of_lt (by omega)
  have hheader : wrap32 (headerSize + tlvSize (name.length + 1)) =
      headerSize + tlvSize (name.length + 1) := wrap32_of_lt (by omega)
  unfold createPacket at h
  simp only [hname, hextra, hheader, wrap32_of_lt hsize] at h
  split at h
  · cases h
  · split at h
    · cases h
    · next hunder =>
      split at h
      · cases h
      · next hover =>
        have hannounced : wrap32 input.packed.length = wrap32 input.packedSize := by omega
        have htake : (input.packed.take (wrap32 input.packedSize)).length =
            wrap32 input.packedSize := by
          rw [List.length_take, ← hannounced]
          exact Nat.min_eq_left (wrap32_le _)
        have hfront : ∀ header : List UInt8, header.length = headerSize →
            (tlvMethodHeaderCreate header tlvMethodType (name.length + 1) name).length =
              headerSize + tlvSize (name.length + 1) := by
          intro header hlength
          rw [length_tlvMethodHeaderCreate, hlength]
        refine ⟨?_, hannounced⟩
        obtain rfl := Option.some.inj h
        rw [methodPacket, htake, ← hfront _ (length_headerCreate _ _ _ _), List.take_length_add_append]

/-- The packet of a message that fits has its method's name and the message. -/
theorem createPacket_eq {calloc : Nat → Bool} {name : CString} {input : Input}
    {packet : List UInt8} (h : createPacket calloc name input = some packet)
    (hsize : headerSize + tlvSize (name.length + 1) + input.packed.length < word32) :
    packet = methodPacket .methodReq .unset name input.packed := by
  have hannounced : wrap32 input.packedSize ≤ input.packed.length := by
    unfold createPacket at h
    dsimp only at h
    split at h
    · cases h
    · split at h
      · cases h
      · next hunder => exact Nat.le_trans (Nat.le_of_not_lt hunder) (wrap32_le _)
  obtain ⟨hpacket, hlength⟩ := createPacket_take h (by omega)
  rw [← hlength, wrap32_of_lt (by omega), List.take_length] at hpacket
  exact hpacket

/-! ## Sending it -/

/-- `cmsg_client_state` -/
inductive ClientState
  | init
  | connected
  | failed
  | closed
  | queued
deriving DecidableEq, Repr

/-- What a client does to its connection. -/
inductive Traffic
  | connect
  | sent (bytes : List UInt8)
  | close
deriving DecidableEq, Repr

/-- How an attempt goes: whether it connects, if it has to, and after how many
bytes the send fails, if it does. -/
structure Attempt where
  connects : Bool
  cut : Option Nat

/-- `cmsg_client_connect` -/
def clientConnect (state : ClientState) (connects : Bool) : ClientState × List Traffic :=
  if state = .connected then (state, [])
  else if connects then (.connected, [.connect])
  else (.failed, [])

/-- `cmsg_client_transport_send`, through `cmsg_transport_socket_send`: what it
returns and the bytes that get through. -/
def clientTransportSend (cut : Option Nat) (buffer : List UInt8) : Int × List UInt8 :=
  match cut with
  | none => (toInt32 buffer.length, buffer)
  | some n => (-1, buffer.take n)

/-- `_cmsg_client_buffer_send_retry_once`, with the traffic that it causes -/
def bufferSendRetryOnce (state : ClientState) (first second : Attempt) (buffer : List UInt8) :
    RetCode × ClientState × List Traffic :=
  let (state, connected) := clientConnect state first.connects
  if state ≠ .connected then (.closed, state, connected)
  else
    let (sendRet, bytes) := clientTransportSend first.cut buffer
    if sendRet < toInt32 buffer.length then
      let (state, reconnected) := clientConnect .closed second.connects
      let traffic := connected ++ [.sent bytes, .close] ++ reconnected
      if state = .connected then
        let (sendRet, bytes) := clientTransportSend second.cut buffer
        if sendRet < toInt32 buffer.length then
          (.err, .failed, traffic ++ [.sent bytes, .close])
        else (.ok, state, traffic ++ [.sent bytes])
      else (.closed, state, traffic)
    else (.ok, state, connected ++ [.sent bytes])

end Cmsg.Client
