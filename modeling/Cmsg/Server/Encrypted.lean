import Cmsg.Client.Encrypted
import Cmsg.Server.Receive

/-! # Receiving an encrypted packet

`cmsg_server_receive` on a connection with encryption: the secure header is
peeked at, the frame is received and decrypted, and the plaintext is processed
like a packet that arrived as it is. A plaintext that is too short for a header
leaves the header uninitialised. -/
namespace Cmsg.Server
open Cmsg.Base Cmsg.Wire Cmsg.Client

variable {Msg : Type} {svc : Service Msg}

/-- A connection with encryption: the bytes that arrive before the peer stops sending,
the SA that is found for the socket, which allocations succeed, and what the
receive buffer and the header hold before they are written. -/
structure EncryptedConnection where
  stream : List UInt8
  sa : Option CryptoSa
  saDeriveFunc : Option (CryptoSa → Memory → Bool)
  calloc : Nat → Bool
  stale : Memory
  processedHeader : Header

/-- `cmsg_server_receive` once the frame is decrypted. The buffer of the plaintext is
cleared; a failure to decrypt is not an error. -/
def serverReceiveDecoded (s : State svc) (c : EncryptedConnection) :
    Option (List UInt8) → Reception svc
  | none => .nothing s .ok 0
  | some decoded =>
    let m := ofBytes decoded zeroed
    if headerSize ≤ decoded.length then
      match headerProcess m with
      | none => .nothing s .err decoded.length
      | some header => serverRecvProcess s c.calloc header m decoded.length
    else if 0 < decoded.length then
      serverRecvProcess s c.calloc c.processedHeader m decoded.length
    else .nothing s .ok 0

/-- `cmsg_server_receive`, through `cmsg_server_receive_encrypted` -/
def serverReceiveEncrypted (s : State svc) (c : EncryptedConnection) : Reception svc :=
  if c.sa = none then .nothing s .err 0
  else if c.stream.length < 8 then .nothing s .err 0
  else
    let msgLength := cryptoParseHeader (ofBytes c.stream c.stale)
    if msgLength = invalidHeader then .nothing s .err 0
    else if bufStaticSize ≤ msgLength ∧ c.calloc msgLength = false then .nothing s .err 0
    else
      let nbytes := recvCount c.stream msgLength
      if wrap32 nbytes = msgLength then
        if recvBufferSize < msgLength ∧ c.calloc msgLength = false then .nothing s .err 0
        else
          serverReceiveDecoded s c (cryptoDecrypt c.sa c.saDeriveFunc
            (ofBytes (c.stream.take nbytes) c.stale) (toInt32 msgLength))
      else .nothing s .err 0

end Cmsg.Server
