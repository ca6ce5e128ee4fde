import Cmsg.Client.Receive

/-! # Receiving an encrypted reply

`cmsg_client_invoke_recv` of a client whose connection is encrypted: the secure
header is peeked at, the frame is received and decrypted, and the plaintext is
processed like a packet that arrived as it is. The cipher, what unpacks a
message and what lies in memory that was never written are parameters. -/
namespace Cmsg.Client
open Cmsg.Base Cmsg.Wire

variable {Msg : Type}

/-! ## The secure header and the cipher -/

/-- `CMSG_CRYPTO_MAGIC` -/
def cryptoMagic : Nat := 0xa5a50001

/-- `CMSG_CRYPTO_TYPE_NONCE` -/
def cryptoTypeNonce : Nat := 1

/-- `CMSG_CRYPTO_TYPE_PAYLOAD` -/
def cryptoTypePayload : Nat := 2

/-- The three words in front of a ciphertext. -/
def secureHeaderSize : Nat := 12

-- the word for the -1 of cmsg_crypto_parse_header
def invalidHeader : Nat := 0xffffffff

/-- `cmsg_crypto_parse_header` -/
def cryptoParseHeader (header : Memory) : Nat :=
  if be32 header 0 ≠ cryptoMagic ∨ be32 header 4 = 0 then invalidHeader else be32 header 4

/-- `cmsg_crypto_sa`. The cipher is given the number of bytes and the bytes, and
either fails or returns a plaintext whose length is an `int`. -/
structure CryptoSa where
  server : Bool
  ctxOutInit : Bool
  evpDecrypt : Int → List UInt8 → Option (List UInt8)
  length_lt : ∀ {n bytes plaintext}, evpDecrypt n bytes = some plaintext →
    plaintext.length < 2 ^ 31

/-- `cmsg_crypto_decrypt`; `none` stands for -1. -/
def cryptoDecrypt (sa : Option CryptoSa) (saDeriveFunc : Option (CryptoSa → Memory → Bool))
    (inbuf : Memory) (length : Int) : Option (List UInt8) :=
  match sa, saDeriveFunc with
  | some sa, some saDeriveFunc =>
    let type := be32 inbuf 8
    let bytesRemaining := length - secureHeaderSize
    if sa.server = true ∧ sa.ctxOutInit = false then
      if type = cryptoTypeNonce ∧ saDeriveFunc sa (fun i => inbuf (secureHeaderSize + i)) = true
      then some [] else none
    else if type = cryptoTypePayload then
      sa.evpDecrypt bytesRemaining (slice inbuf secureHeaderSize bytesRemaining.toNat)
    else none
  | _, _ => none

/-- A payload is given to the cipher where no nonce is waited for. -/
theorem cryptoDecrypt_payload {sa : CryptoSa} {m : Memory} {ciphertext : List UInt8}
    (hready : ¬ (sa.server = true ∧ sa.ctxOutInit = false)) (htype : be32 m 8 = cryptoTypePayload)
    (hbytes : slice m secureHeaderSize ciphertext.length = ciphertext)
    (f : CryptoSa → Memory → Bool) {length : Int}
    (hlength : length - secureHeaderSize = ciphertext.length) :
    cryptoDecrypt (some sa) (some f) m length = sa.evpDecrypt ciphertext.length ciphertext := by
  unfold cryptoDecrypt
  dsimp only
  rw [if_neg hready, if_pos htype, hlength, Int.toNat_natCast, hbytes]

theorem cryptoDecrypt_length {sa : Option CryptoSa}
    {saDeriveFunc : Option (CryptoSa → Memory → Bool)} {inbuf : Memory} {length : Int}
    {plaintext : List UInt8} (h : cryptoDecrypt sa saDeriveFunc inbuf length = some plaintext) :
    plaintext.length < 2 ^ 31 := by
  unfold cryptoDecrypt at h
  split at h
  · next sa _ =>
    dsimp only at h
    split at h
    · split at h
      · rw [← Option.some.inj h]
        simp
      · cases h
    · split at h
      · exact sa.length_lt h
      · cases h
  · cases h

/-! ## The client and its connection -/

/-- A client after `cmsg_client_crypto_enable`, which refuses a missing SA or
derive function, and what `protobuf-c` does with its descriptor. -/
structure CmsgClient (Msg : Type) extends Descriptor Msg where
  cryptoSa : CryptoSa
  cryptoSaDeriveFunc : CryptoSa → Memory → Bool

/-- What a call meets: the bytes delivered, how the peek and the `recv` end, which
of the two buffers can be allocated, and what lies in memory before it is
written. -/
structure Connection where
  stream : List UInt8
  peekCode : PeekCode
  peeked : peekCode = .success → 8 ≤ stream.length
  recvErrno : Option RecvErrno
  bufferCalloc : Bool
  decodedCalloc : Bool
  stale : Memory
  staleDecoded : Memory
  serverRequest : TlvRequest

/-! ## The receive functions -/

/-- The message behind the headers of a plaintext. What the processing of the
TLV headers returns is not looked at. -/
def unpackMessage (client : CmsgClient Msg) (c : Connection) (header : Header) (m : Memory) :
    Option Msg :=
  let tlv := tlvHeaderProcess client.getMethodIndexByName m headerSize header.extraHeaderSize
    c.serverRequest
  client.unpackOutput tlv.request.methodIndex
    (slice m (headerSize + header.extraHeaderSize) header.messageLength)

/-- `_cmsg_client_receive_encrypted` after the decryption. -/
def receiveDecoded (client : CmsgClient Msg) (c : Connection) (msgLength : Nat) :
    Option (List UInt8) → Received Msg
  | none => .withoutMessage .success
  | some decoded =>
    if headerSize ≤ decoded.length then
      let m := ofBytes decoded c.staleDecoded
      match headerProcess m with
      | none => .withoutMessage .serviceFailed
      | some header =>
        if bodyLen header = 0 then .withoutMessage header.statusCode
        else if msgLength < bodyLen header + headerSize then
          { Received.withoutMessage .serviceFailed with socketClosed := true }
        else if (decoded.length : Int) - headerSize = toInt32 (bodyLen header) then
          if h : header.statusCode = .success then
            match unpackMessage client c header m with
            | some message => ⟨header.statusCode, some message, false, fun _ => h⟩
            | none => .withoutMessage .serviceFailed
          else .withoutMessage header.statusCode
        else .withoutMessage .success
    else .withoutMessage .success

/-- Whether `calloc` finds `size` bytes: no object is larger than `PTRDIFF_MAX`. -/
def callocs (available : Bool) (size : Nat) : Bool := available && decide (size < 2 ^ 63)

/-- `_cmsg_client_receive_encrypted`, which takes the length as an `int32_t` -/
def receiveEncrypted (client : CmsgClient Msg) (c : Connection) (msgLength : Nat)
    (buffer : Memory) : Received Msg :=
  if bufStaticSize < toSize msgLength ∧ callocs c.decodedCalloc (toSize msgLength) = false then
    .withoutMessage .serviceFailed
  else
    receiveDecoded client c (toSize msgLength)
      (cryptoDecrypt (some client.cryptoSa) (some client.cryptoSaDeriveFunc) buffer
        (toInt32 msgLength))

/-- `cmsg_client_receive_encrypted` -/
def clientReceiveEncrypted (client : CmsgClient Msg) (c : Connection) : Received Msg :=
  if c.peekCode ≠ .success then .withoutMessage (peekToStatusCode c.peekCode)
  else
    let msgLength := cryptoParseHeader (ofBytes c.stream c.stale)
    if msgLength = invalidHeader then .withoutMessage .serviceFailed
    else if bufStaticSize ≤ msgLength ∧ c.bufferCalloc = false then
      .withoutMessage .serviceFailed
    else match c.recvErrno with
      | some .connreset => .withoutMessage .serverConnreset
      | some .other => .withoutMessage .serviceFailed
      | none =>
        let nbytes := recvCount c.stream msgLength
        if wrap32 nbytes = msgLength then
          receiveEncrypted client c msgLength (ofBytes (c.stream.take nbytes) c.stale)
        else if toInt32 (wrap32 nbytes) ≠ 0 then .withoutMessage .serviceFailed
        else .withoutMessage .connectionClosed

/-- `cmsg_client_invoke_recv`, through `cmsg_client_response_receive`. -/
def clientInvokeRecv (client : CmsgClient Msg) (c : Connection) : Invoked Msg :=
  invokeRecv client.toDescriptor (clientReceiveEncrypted client c)

/-- The invocation succeeds exactly when the receive function reports success. -/
theorem clientInvokeRecv_ok_iff (client : CmsgClient Msg) (c : Connection) :
    (clientInvokeRecv client c).ret = .ok ↔ (clientReceiveEncrypted client c).status = .success :=
  invokeRecv_ok_iff client.toDescriptor (clientReceiveEncrypted client c)

end Cmsg.Client
