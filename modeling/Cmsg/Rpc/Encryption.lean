import Cmsg.Base.Layout
import Cmsg.Client.Reporting
import Cmsg.Server.Encrypted
import Cmsg.Server.ReceiveSafety
import Cmsg.Rpc.RoundTrip

/-! # Packets that arrive encrypted and packets that arrive as they are

A packet is received as one encrypted frame, or as it is before the end of the
stream. The two paths check the lengths of a packet in different ways, and the
encrypted ones go on where the plain ones fail. -/
namespace Cmsg.Rpc
open Cmsg.Base Cmsg.Wire Cmsg.Client Cmsg.Server

variable {Msg : Type} {svc : Service Msg}

/-! ## Frames -/

/-- The frame that `cmsg_crypto_encrypt` makes of a ciphertext. -/
def payloadFrame (ciphertext : List UInt8) : List UInt8 :=
  toBe32 cryptoMagic ++ (toBe32 (secureHeaderSize + ciphertext.length) ++
    (toBe32 cryptoTypePayload ++ ciphertext))

/-- The cipher, once it is set up, decrypts what it made of a packet. A ciphertext is
not shorter than its plaintext, and the length of a frame is an `int`. -/
structure Seals (sa : CryptoSa) (packet ciphertext : List UInt8) : Prop where
  ready : sa.server = true → sa.ctxOutInit = true
  decrypts : sa.evpDecrypt ciphertext.length ciphertext = some packet
  length_le : packet.length ≤ ciphertext.length
  length_lt : secureHeaderSize + ciphertext.length < 2 ^ 31

theorem length_payloadFrame (ciphertext : List UInt8) :
    (payloadFrame ciphertext).length = secureHeaderSize + ciphertext.length := by
  simp only [payloadFrame, List.length_append, length_toBe32, secureHeaderSize]
  omega

section
variable {sa : CryptoSa} {packet ciphertext : List UInt8}

theorem Seals.parse (h : Seals sa packet ciphertext) {m : Memory}
    (hm : Holds m 0 (payloadFrame ciphertext)) :
    cryptoParseHeader m = secureHeaderSize + ciphertext.length := by
  obtain ⟨hmagic, hm⟩ := hm.append
  have hlength := hm.append.1
  have hlt := lt_word32 h.length_lt
  have hmagic' : be32 m 0 = cryptoMagic := hmagic.be32_of_lt (by decide)
  have hlength' : be32 m 4 = secureHeaderSize + ciphertext.length := hlength.be32_of_lt hlt
  have hpos : secureHeaderSize + ciphertext.length ≠ 0 :=
    Nat.ne_of_gt (Nat.add_pos_left (by decide) _)
  rw [cryptoParseHeader, hmagic', hlength', if_neg (not_or.mpr ⟨not_not.mpr rfl, hpos⟩)]

theorem Seals.decrypt (h : Seals sa packet ciphertext) {m : Memory}
    (hm : Holds m 0 (payloadFrame ciphertext)) (f : CryptoSa → Memory → Bool) :
    cryptoDecrypt (some sa) (some f) m (toInt32 (secureHeaderSize + ciphertext.length)) =
      some packet := by
  obtain ⟨_, hm⟩ := hm.append
  obtain ⟨_, hm⟩ := hm.append
  obtain ⟨htype, hbytes⟩ := hm.append
  have htype' : be32 m 8 = cryptoTypePayload := htype.be32_of_lt (by decide)
  have hslice : slice m secureHeaderSize ciphertext.length = ciphertext := hbytes.slice
  have hready : ¬ (sa.server = true ∧ sa.ctxOutInit = false) := by
    intro hs
    rw [h.ready hs.1] at hs
    cases hs.2
  have hremaining : toInt32 (secureHeaderSize + ciphertext.length) - secureHeaderSize =
      ciphertext.length := by
    rw [toInt32_of_lt h.length_lt]
    omega
  rw [cryptoDecrypt_payload hready htype' hslice f hremaining, h.decrypts]

end

/-! ## On the server -/

/-- The same request is dispatched, or both are errors. -/
def Reception.Agree (r₁ r₂ : Reception svc) : Prop :=
  (r₁.dispatched = true ∧ r₂.dispatched = true ∧ r₁.state = r₂.state ∧ r₁.events = r₂.events ∧
    r₁.indexed = r₂.indexed) ∨ (r₁.ret ≠ .ok ∧ r₂.ret ≠ .ok)

/-- The packet before the end of the stream. -/
def plainConnection (packet : List UInt8) : Server.Connection := ⟨packet, zeroed, fun _ => true⟩

/-- A server for which no allocation fails makes the same of the packet on both paths,
whatever the header holds before it is written. -/
def ServersAgree (svc : Service Msg) (sa : CryptoSa) (packet ciphertext : List UInt8) : Prop :=
  ∀ (s : State svc) (f : CryptoSa → Memory → Bool) (stale : Memory) (processedHeader : Header),
    Reception.Agree (serverReceive s (plainConnection packet))
      (serverReceiveEncrypted s
        ⟨payloadFrame ciphertext, some sa, some f, fun _ => true, stale, processedHeader⟩)

theorem serverReceiveEncrypted_frame {sa : CryptoSa} {packet ciphertext : List UInt8}
    (h : Seals sa packet ciphertext) (s : State svc) (f : CryptoSa → Memory → Bool) (stale : Memory)
    (processedHeader : Header) :
    let c : EncryptedConnection :=
      ⟨payloadFrame ciphertext, some sa, some f, fun _ => true, stale, processedHeader⟩
    serverReceiveEncrypted s c = serverReceiveDecoded s c (some packet) := by
  intro c
  have hsize : secureHeaderSize = 12 := rfl
  have hlength := length_payloadFrame ciphertext
  have hlt := h.length_lt
  have hword : 2 ^ 31 < word32 := by decide
  have hinvalid : invalidHeader = word32 - 1 := rfl
  have hcount : recvCount (payloadFrame ciphertext) (secureHeaderSize + ciphertext.length) =
      secureHeaderSize + ciphertext.length := recvCount_eq (Nat.le_of_eq hlength.symm) hlt
  have htake : (payloadFrame ciphertext).take (secureHeaderSize + ciphertext.length) =
      payloadFrame ciphertext := List.take_of_length_le (Nat.le_of_eq hlength)
  have hholds := holds_ofBytes (payloadFrame ciphertext) stale
  unfold c serverReceiveEncrypted
  rw [if_neg (by simp)]
  dsimp only
  rw [if_neg (by omega), h.parse hholds, if_neg (by omega), if_neg (by simp), hcount,
    if_pos (wrap32_of_lt (by omega)), if_neg (by simp), htake, h.decrypt hholds f]

/-- The TLV headers of the packet that `cmsg_transport_server_recv` receives. -/
def packetTlv (svc : Service Msg) (header : Header) (packet : List UInt8) : TlvResult :=
  tlvHeaderProcess svc.getMethodIndexByName (ofBytes (packet.take header.dynLen) zeroed) headerSize
    header.extraHeaderSize .init

/-- The packet has a header, and if it is a known one then it announces something.
Where more arrives than it announces, it announces no message or its TLV headers
are refused. -/
def HandledAlike (svc : Service Msg) (packet : List UInt8) : Prop :=
  headerSize ≤ packet.length ∧
    ∀ header, headerProcess (ofBytes packet zeroed) = some header → header.dynLen ≠ 0 ∧
      (packet.length ≤ header.dynLen ∨ header.messageLength = 0 ∨
        (packetTlv svc header packet).ret ≠ .ok)

theorem serverRecvProcess_ret (s : State svc) (calloc : Nat → Bool) (header : Header) (m : Memory)
    (nbytes : Nat) : (serverRecvProcess s calloc header m nbytes).ret = .ok ↔
      (serverRecvProcess s calloc header m nbytes).dispatched = true := by
  unfold serverRecvProcess
  dsimp only
  split
  · split
    · exact ⟨fun _ => rfl, fun _ => rfl⟩
    · exact ⟨fun h => (by cases h), fun h => (by cases h)⟩
  · next hret => exact ⟨fun h => absurd h hret, fun h => (by cases h)⟩

theorem Reception.agree_self {s : State svc} {calloc : Nat → Bool} {header : Header} {m : Memory}
    {nbytes : Nat} : Reception.Agree (serverRecvProcess s calloc header m nbytes)
      (serverRecvProcess s calloc header m nbytes) := by
  by_cases h : (serverRecvProcess s calloc header m nbytes).dispatched = true
  · exact .inl ⟨h, h, rfl, rfl, rfl⟩
  · have hret := fun hr => h ((serverRecvProcess_ret s calloc header m nbytes).mp hr)
    exact .inr ⟨hret, hret⟩

section
variable {packet : List UInt8} {header : Header}

theorem serverReceive_short (h : packet.length < headerSize) (s : State svc) :
    serverReceive s (plainConnection packet) = .nothing s .err 0 := if_pos h

theorem serverReceive_long {c : Server.Connection} (hcalloc : ∀ n, c.calloc n = true)
    (hlong : headerSize ≤ c.stream.length) (hlt : c.stream.length < 2 ^ 31)
    (hp : headerProcess (ofBytes c.stream c.stale) = some header) (s : State svc) :
    serverReceive s c =
      if header.dynLen = 0 then .nothing s .ok 0
      else serverRecvProcess s c.calloc header
        (ofBytes (c.stream.take (min c.stream.length header.dynLen)) c.stale)
        (min c.stream.length header.dynLen) := by
  have hword : 2 ^ 31 < word32 := by decide
  have hheader : headerSize = 16 := rfl
  have hcount : recvCount c.stream header.dynLen = min c.stream.length header.dynLen := by
    by_cases hd : header.dynLen < 2 ^ 31
    · exact recvCount_of_lt c.stream hd
    · have hsize : header.dynLen ≤ toSize header.dynLen := by
        rw [toSize, if_neg hd]
        exact Nat.le_add_right _ _
      rw [recvCount]
      omega
  have hpos := toInt32_pos (wrap32_lt (min c.stream.length header.dynLen))
  rw [wrap32_of_lt (by omega)] at hpos
  unfold serverReceive
  rw [if_neg (Nat.not_lt.mpr hlong), hp]
  dsimp only
  rw [if_neg (by simp [hcalloc]), hcount, wrap32_of_lt (by omega)]
  by_cases h0 : header.dynLen = 0
  · rw [if_pos h0, if_neg (by rw [hpos]; omega), h0, Nat.min_zero]
  · rw [if_neg h0, if_pos (by rw [hpos]; omega)]

/-- What is received of a packet, when it has a known header that announces something. -/
theorem serverReceive_plain (hlong : headerSize ≤ packet.length) (hlt : packet.length < 2 ^ 31)
    (hp : headerProcess (ofBytes packet zeroed) = some header) (s : State svc) :
    serverReceive s (plainConnection packet) =
      if header.dynLen = 0 then .nothing s .ok 0
      else serverRecvProcess s (fun _ => true) header
        (ofBytes (packet.take (min packet.length header.dynLen)) zeroed)
        (min packet.length header.dynLen) :=
  serverReceive_long (c := plainConnection packet) (fun _ => rfl) hlong hlt hp s

/-- With no more than the packet announces, both paths process the same bytes. -/
theorem agree_of_le (h0 : header.dynLen ≠ 0) (hle : packet.length ≤ header.dynLen)
    (hlong : headerSize ≤ packet.length) (hlt : packet.length < 2 ^ 31)
    (hp : headerProcess (ofBytes packet zeroed) = some header) (s : State svc) :
    Reception.Agree (serverReceive s (plainConnection packet))
      (serverRecvProcess s (fun _ => true) header (ofBytes packet zeroed) packet.length) := by
  rw [serverReceive_plain hlong hlt hp, if_neg h0, Nat.min_eq_left hle, List.take_length]
  exact Reception.agree_self

/-- Without a message the bytes matter for the TLV headers only. -/
theorem messageProcessor_empty (h : header.messageLength = 0) (s : State svc) (calloc : Nat → Bool)
    (m m' : Memory) (bufferData : Nat) (request : TlvRequest) :
    messageProcessor s calloc header m bufferData request =
      messageProcessor s calloc header m' bufferData request := by
  unfold messageProcessor
  cases header.msgType with
  | methodReq =>
    dsimp only
    unfold methodReqMessageProcessor
    rw [h]
    rfl
  | _ => rfl

theorem agree_of_empty (h : header.messageLength = 0) (s : State svc) (calloc : Nat → Bool)
    (m m' : Memory) (nbytes nbytes' : Nat) :
    let tlv := tlvHeaderProcess svc.getMethodIndexByName m headerSize header.extraHeaderSize .init
    let tlv' := tlvHeaderProcess svc.getMethodIndexByName m' headerSize header.extraHeaderSize .init
    tlv.ret = tlv'.ret → tlv.request = tlv'.request →
      Reception.Agree (serverRecvProcess s calloc header m nbytes)
        (serverRecvProcess s calloc header m' nbytes') := by
  intro tlv tlv' hret hrequest
  by_cases hok : tlv.ret = .ok
  · have hok' : tlv'.ret = .ok := hret.symm.trans hok
    unfold serverRecvProcess
    dsimp only
    rw [show tlvHeaderProcess svc.getMethodIndexByName m headerSize _ .init = tlv from rfl,
      show tlvHeaderProcess svc.getMethodIndexByName m' headerSize _ .init = tlv' from rfl, hok, hok',
      hrequest]
    dsimp only
    rw [if_pos (.inl h), if_pos (.inl h), messageProcessor_empty h s calloc m m']
    exact .inl ⟨rfl, rfl, rfl, rfl, rfl⟩
  · have hok' : tlv'.ret ≠ .ok := fun he => hok (hret.trans he)
    refine .inr ⟨fun he => ?_, fun he => ?_⟩
    · rw [serverRecvProcess_ret] at he
      exact hok ((serverRecvProcess_looks s calloc header m nbytes).2.2.1.mp he).1
    · rw [serverRecvProcess_ret] at he
      exact hok' ((serverRecvProcess_looks s calloc header m' nbytes').2.2.1.mp he).1

/-- Headers that reach far behind the packet are refused. -/
theorem tlv_refused (hlt : packet.length < 2 ^ 31) (hshort : header.headerLength < headerSize) :
    (tlvHeaderProcess svc.getMethodIndexByName (ofBytes packet zeroed) headerSize
      header.extraHeaderSize .init).ret ≠ .ok := by
  intro hok
  have hextra : header.extraHeaderSize = word32 + header.headerLength - headerSize :=
    sub32_of_lt hshort (by decide)
  have hword : word32 = 2 ^ 31 + 2 ^ 31 := rfl
  have hheader : headerSize = 16 := rfl
  have hmax : maxNameLength = 128 := rfl
  have hzero : ∀ p, packet.length ≤ p → ofBytes packet zeroed p = 0 := by
    intro p hge
    rw [ofBytes, List.getElem?_eq_none hge]
    rfl
  rcases tlvHeaderProcess_bounded svc.getMethodIndexByName hzero .init hok with h0 | hbound
  · omega
  · omega

/-- With more than the packet announces, the plain path processes what is announced
and the encrypted path refuses a packet with a message. -/
theorem agree_of_gt (hgt : header.dynLen < packet.length) (hlt : packet.length < 2 ^ 31)
    (s : State svc) :
    let r₁ := serverRecvProcess s (fun _ => true) header
      (ofBytes (packet.take header.dynLen) zeroed) header.dynLen
    let r₂ := serverRecvProcess s (fun _ => true) header (ofBytes packet zeroed) packet.length
    Reception.Agree r₁ r₂ ↔ header.messageLength = 0 ∨ (packetTlv svc header packet).ret ≠ .ok := by
  intro r₁ r₂
  have hdynlt : header.dynLen < word32 := wrap32_lt _
  have hword : 2 ^ 31 < word32 := by decide
  have hdispatched₁ := (serverRecvProcess_looks s (fun _ => true) header
    (ofBytes (packet.take header.dynLen) zeroed) header.dynLen).2.2.1
  have hdispatched₂ := (serverRecvProcess_looks s (fun _ => true) header (ofBytes packet zeroed)
    packet.length).2.2.1
  have hret₁ : r₁.ret = .ok ↔ _ := serverRecvProcess_ret ..
  have hret₂ : r₂.ret = .ok ↔ _ := serverRecvProcess_ret ..
  rw [wrap32_of_lt (by omega), toInt32_inj (by omega) hdynlt] at hdispatched₂
  constructor
  · intro hagree
    by_contra hn
    obtain ⟨hmessage, htlv⟩ := not_or.mp hn
    have h₁ : r₁.dispatched = true :=
      hdispatched₁.mpr ⟨not_not.mp htlv, .inr (by rw [wrap32_of_lt hdynlt])⟩
    have h₂ : ¬ r₂.dispatched = true := by
      intro hd
      rcases (hdispatched₂.mp hd).2 with h0 | heq
      · exact hmessage h0
      · omega
    rcases hagree with ⟨_, hd, _⟩ | ⟨hne, _⟩
    · exact h₂ hd
    · exact hne (hret₁.mpr h₁)
  · intro h
    by_cases hmessage : header.messageLength = 0
    · have hdyn : header.dynLen = header.headerLength := by
        rw [header.dynLen_eq (by rw [hmessage]; exact header.headerLength_lt), hmessage,
          Nat.add_zero]
      by_cases hheader : headerSize ≤ header.headerLength
      · have hextra := header.extraHeaderSize_eq hheader
        obtain ⟨hret, hrequest⟩ := @tlvHeaderProcess_congr svc.getMethodIndexByName
          (ofBytes (packet.take header.dynLen) zeroed) (ofBytes packet zeroed) headerSize headerSize
          header.extraHeaderSize .init (sub32_lt _ _) (fun i hi => by
            have hi' : headerSize + i < header.dynLen := by omega
            rw [ofBytes, ofBytes, List.getElem?_take_of_lt hi'])
        exact agree_of_empty hmessage s _ _ _ _ _ hret hrequest
      · have hshort := Nat.lt_of_not_le hheader
        have htake : (packet.take header.dynLen).length < 2 ^ 31 :=
          Nat.lt_of_le_of_lt (List.length_take_le' _ _) hlt
        refine .inr ⟨fun he => ?_, fun he => ?_⟩
        · exact tlv_refused htake hshort (hdispatched₁.mp (hret₁.mp he)).1
        · exact tlv_refused hlt hshort (hdispatched₂.mp (hret₂.mp he)).1
    · have htlv := h.resolve_left hmessage
      refine .inr ⟨fun he => ?_, fun he => ?_⟩
      · exact htlv (hdispatched₁.mp (hret₁.mp he)).1
      · rcases (hdispatched₂.mp (hret₂.mp he)).2 with h0 | heq
        · exact hmessage h0
        · omega

end

/-- A header of a packet without anything, which is dispatched. -/
def connOpenHeader : Header where
  msgType := .connOpen
  headerLength := headerSize
  messageLength := 0
  statusCode := .unset
  headerLength_lt := by decide
  messageLength_lt := by decide

/-- **On the server**, exactly the packets that both paths handle alike. -/
theorem servers_agree_iff {sa : CryptoSa} {packet ciphertext : List UInt8}
    (h : Seals sa packet ciphertext) :
    ServersAgree svc sa packet ciphertext ↔ HandledAlike svc packet := by
  have hlt : packet.length < 2 ^ 31 := by
    have := h.length_le
    have := h.length_lt
    omega
  constructor
  · intro hagree
    have hs := hagree (serverCreate svc true) (fun _ _ => true) zeroed connOpenHeader
    rw [serverReceiveEncrypted_frame h] at hs
    by_cases hlong : headerSize ≤ packet.length
    · refine ⟨hlong, fun header hp => ?_⟩
      rw [serverReceive_plain hlong hlt hp] at hs
      unfold serverReceiveDecoded at hs
      dsimp only at hs
      rw [if_pos hlong, hp] at hs
      dsimp only at hs
      by_cases h0 : header.dynLen = 0
      · rw [if_pos h0] at hs
        rcases hs with ⟨hd, _⟩ | ⟨hne, _⟩
        · cases hd
        · exact absurd rfl hne
      · refine ⟨h0, ?_⟩
        by_cases hle : packet.length ≤ header.dynLen
        · exact .inl hle
        · have hgt := Nat.lt_of_not_le hle
          rw [if_neg h0, Nat.min_eq_right (Nat.le_of_lt hgt)] at hs
          exact .inr ((agree_of_gt hgt hlt _).mp hs)
    · have hshort := Nat.lt_of_not_le hlong
      rw [serverReceive_short hshort] at hs
      unfold serverReceiveDecoded at hs
      dsimp only at hs
      rw [if_neg hlong] at hs
      rcases hs with ⟨hd, _⟩ | ⟨_, hne⟩
      · cases hd
      · split at hne
        · exact absurd rfl hne
        · exact absurd rfl hne
  · intro ⟨hlong, hheader⟩ s f stale processedHeader
    rw [serverReceiveEncrypted_frame h]
    unfold serverReceiveDecoded
    dsimp only
    rw [if_pos hlong]
    cases hp : headerProcess (ofBytes packet zeroed) with
    | none =>
      refine .inr ⟨?_, by simp [Reception.nothing]⟩
      unfold serverReceive
      rw [if_neg (show ¬ (plainConnection packet).stream.length < headerSize from
        Nat.not_lt.mpr hlong),
        show headerProcess (ofBytes (plainConnection packet).stream (plainConnection packet).stale) =
          none from hp]
      simp [Reception.nothing]
    | some header =>
      obtain ⟨h0, hcases⟩ := hheader header hp
      dsimp only
      rcases hcases with hle | hrest
      · exact agree_of_le h0 hle hlong hlt hp s
      · by_cases hle : packet.length ≤ header.dynLen
        · exact agree_of_le h0 hle hlong hlt hp s
        · have hgt := Nat.lt_of_not_le hle
          rw [serverReceive_plain hlong hlt hp, if_neg h0, Nat.min_eq_right (Nat.le_of_lt hgt)]
          exact (agree_of_gt hgt hlt s).mpr hrest

/-! ## On the client -/

/-- The statuses on which `cmsg_client_invoke_recv` closes the connection. -/
def Fails (status : StatusCode) : Prop :=
  status = .serviceFailed ∨ status = .connectionClosed ∨ status = .serverConnreset

/-- The same message and status, or both are failures. -/
def Received.Agree (r₁ r₂ : Received Msg) : Prop :=
  (r₁.status = r₂.status ∧ r₁.message = r₂.message) ∨ (Fails r₁.status ∧ Fails r₂.status)

/-- The packet before the end of the stream, and no error and no lack of memory. -/
structure PlainArrival (a : Arrival) (packet : List UInt8) : Prop where
  stream : a.stream = packet
  peeks : headerSize ≤ packet.length → a.peekCode = .success
  headerErrno : a.headerErrno = none
  bodyErrno : a.bodyErrno = none
  calloc : ∀ n, a.calloc n = true

/-- The frame, and no error and no lack of memory. -/
structure FrameArrival (c : Client.Connection) (ciphertext : List UInt8) : Prop where
  stream : c.stream = payloadFrame ciphertext
  peekCode : c.peekCode = .success
  recvErrno : c.recvErrno = none
  bufferCalloc : c.bufferCalloc = true
  decodedCalloc : c.decodedCalloc = true

/-- What `_cmsg_client_receive_encrypted` unpacks: the output of which method, and the
bytes of the message. -/
structure UnpackCall where
  methodIndex : Nat
  start : Nat
  length : Nat

/-- The request that the TLV headers fill in is not initialised. -/
def unpackCall (d : Descriptor Msg) (header : Header) (m : Memory) (request : TlvRequest) :
    UnpackCall where
  methodIndex := (tlvHeaderProcess d.getMethodIndexByName m headerSize header.extraHeaderSize
    request).request.methodIndex
  start := headerSize + header.extraHeaderSize
  length := header.messageLength

/-- The descriptor has such a method, and the bytes are those of the packet. -/
def UnpackCall.Defined (svc : Service Msg) (packet : List UInt8) (call : UnpackCall) : Prop :=
  call.methodIndex < svc.nMethods ∧ call.start + call.length ≤ packet.length

/-- `_cmsg_client_receive_encrypted` comes to unpack a message. -/
structure Unpacks (packet : List UInt8) (frameLength : Nat) (header : Header) : Prop where
  long : headerSize ≤ packet.length
  known : headerProcess (ofBytes packet zeroed) = some header
  announces : bodyLen header ≠ 0
  fits : headerSize + bodyLen header ≤ frameLength
  whole : packet.length = headerSize + bodyLen header
  success : header.statusCode = .success

/-- The client makes the same of the packet on both paths, whatever its buffers and
the request hold before they are written; where the encrypted path unpacks a message,
it reads nothing that is not there. -/
def ClientsAgree (svc : Service Msg) (client : CmsgClient Msg) (packet ciphertext : List UInt8) :
    Prop :=
  ∀ a c, PlainArrival a packet → FrameArrival c ciphertext →
    Received.Agree (clientRecv client.toDescriptor a).1 (clientReceiveEncrypted client c) ∧
      ∀ header, Unpacks packet (secureHeaderSize + ciphertext.length) header →
        (unpackCall client.toDescriptor header (ofBytes packet c.staleDecoded)
          c.serverRequest).Defined svc packet

theorem clientReceiveEncrypted_frame {client : CmsgClient Msg} {packet ciphertext : List UInt8}
    (h : Seals client.cryptoSa packet ciphertext) {c : Client.Connection}
    (hc : FrameArrival c ciphertext) :
    clientReceiveEncrypted client c =
      receiveDecoded client c (secureHeaderSize + ciphertext.length) (some packet) := by
  have hsize : secureHeaderSize = 12 := rfl
  have hlength := length_payloadFrame ciphertext
  have hlt := h.length_lt
  have hword : 2 ^ 31 < word32 := by decide
  have hinvalid : invalidHeader = word32 - 1 := rfl
  have hcount : recvCount (payloadFrame ciphertext) (secureHeaderSize + ciphertext.length) =
      secureHeaderSize + ciphertext.length := recvCount_eq (Nat.le_of_eq hlength.symm) hlt
  have htake : (payloadFrame ciphertext).take (secureHeaderSize + ciphertext.length) =
      payloadFrame ciphertext := List.take_of_length_le (Nat.le_of_eq hlength)
  have hholds := holds_ofBytes (payloadFrame ciphertext) c.stale
  unfold clientReceiveEncrypted
  rw [if_neg (not_not.mpr hc.peekCode), hc.stream]
  dsimp only
  rw [h.parse hholds, if_neg (by omega), if_neg (by simp [hc.bufferCalloc]), hc.recvErrno]
  dsimp only
  rw [hcount, if_pos (wrap32_of_lt (by omega)), htake]
  unfold receiveEncrypted
  rw [if_neg (by simp [callocs_of_lt _ hlt, hc.decodedCalloc]), h.decrypt hholds, toSize_of_lt hlt]

section
variable {d : Descriptor Msg} {packet : List UInt8} {header : Header}

theorem PlainArrival.eq_complete {a : Arrival} (ha : PlainArrival a packet)
    (hlong : headerSize ≤ packet.length) : a = .complete packet hlong := by
  obtain ⟨stream, peekCode, peeked, headerErrno, bodyErrno, calloc⟩ := a
  obtain ⟨rfl, hpeeks, hheader, hbody, hcalloc⟩ := ha
  have hpeek : peekCode = .success := hpeeks hlong
  have hcalloc' : calloc = fun _ => true := funext hcalloc
  subst hpeek hcalloc'
  rw [show headerErrno = none from hheader, show bodyErrno = none from hbody]
  rfl

/-- A packet that is shorter than a header fails. -/
theorem clientRecv_short {a : Arrival} (ha : PlainArrival a packet)
    (hshort : packet.length < headerSize) : Fails (clientRecv d a).1.status := by
  have hpeek : a.peekCode ≠ .success := by
    intro hp
    have := a.peeked hp
    rw [ha.stream] at this
    omega
  unfold clientRecv
  rw [if_pos hpeek]
  cases hcode : a.peekCode with
  | success => exact absurd hcode hpeek
  | connectionClosed => exact .inr (.inl rfl)
  | connectionReset => exact .inr (.inr rfl)
  | timeout => exact .inl rfl

/-- What is made of a packet with a known header. -/
theorem clientRecv_long (hlong : headerSize ≤ packet.length) (hlt : packet.length < 2 ^ 31)
    (hp : headerProcess (ofBytes packet zeroed) = some header) :
    (clientRecv d (.complete packet hlong)).1 =
      if bodyLen header = 0 then .withoutMessage header.statusCode
      else if headerSize + bodyLen header ≤ packet.length then
        receiveBody d header ((packet.drop headerSize).take (bodyLen header))
      else .withoutMessage .serviceFailed := by
  have hword : 2 ^ 31 < word32 := by decide
  have hbodylt : bodyLen header < word32 := sub32_lt _ _
  rw [clientRecv_complete d hlong hp]
  by_cases h0 : bodyLen header = 0
  · rw [if_pos h0, receiveAnnounced_empty d _ h0]
  · rw [if_neg h0]
    by_cases hle : headerSize + bodyLen header ≤ packet.length
    · rw [if_pos hle, receiveAnnounced_complete d hlong h0 (by omega) hle]
    · rw [if_neg hle]
      have hdrop : (packet.drop headerSize).length = packet.length - headerSize := List.length_drop
      have hcount : recvCount (packet.drop headerSize) (bodyLen header) =
          packet.length - headerSize := by
        have hsize : bodyLen header ≤ toSize (bodyLen header) := by
          unfold toSize
          split
          · exact Nat.le_refl _
          · exact Nat.le_add_right _ _
        rw [recvCount]
        omega
      have hnbytes : (Arrival.complete packet hlong).nbytes (bodyLen header) =
          toInt32 (wrap32 (recvCount (packet.drop headerSize) (bodyLen header))) := rfl
      rw [hcount, wrap32_of_lt (by omega)] at hnbytes
      have hne : ¬ (Arrival.complete packet hlong).nbytes (bodyLen header) =
          toInt32 (bodyLen header) := by
        rw [hnbytes, toInt32_inj (by omega) hbodylt]
        omega
      have hcalloc : ¬ (bufStaticSize < bodyLen header ∧
          (Arrival.complete packet hlong).calloc (bodyLen header) = false) := fun h => by cases h.2
      unfold receiveAnnounced
      dsimp only
      rw [if_neg h0, if_neg hcalloc, if_neg hne]

/-! ### The message of a body -/

/-- The TLV headers of a body that starts with them. -/
def bodyTlv (d : Descriptor Msg) (header : Header) (body : List UInt8) (request : TlvRequest) :
    TlvResult :=
  tlvHeaderProcess d.getMethodIndexByName (ofBytes body zeroed) 0 header.extraHeaderSize request

/-- The message that the plain path unpacks. -/
def bodyMessage (d : Descriptor Msg) (header : Header) (body : List UInt8) : Option Msg :=
  if (bodyTlv d header body ⟨0, []⟩).ret = .ok then
    d.unpackOutput (bodyTlv d header body ⟨0, []⟩).request.methodIndex
      (slice (ofBytes body zeroed) header.extraHeaderSize header.messageLength)
  else none

/-- The message that the encrypted path unpacks, with a request and a buffer that hold
something before they are written. -/
def decodedMessage (d : Descriptor Msg) (header : Header) (packet : List UInt8)
    (request : TlvRequest) (rest : Memory) : Option Msg :=
  let call := unpackCall d header (ofBytes packet rest) request
  d.unpackOutput call.methodIndex (slice (ofBytes packet rest) call.start call.length)

theorem receiveBody_success (h : header.statusCode = .success) (body : List UInt8) :
    (receiveBody d header body).message = bodyMessage d header body ∧
      (receiveBody d header body).status =
        if (bodyMessage d header body).isSome then .success else .serviceFailed := by
  unfold receiveBody bodyMessage bodyTlv
  dsimp only
  by_cases hok : (tlvHeaderProcess d.getMethodIndexByName (ofBytes body zeroed) 0
      header.extraHeaderSize ⟨0, []⟩).ret = .ok
  · rw [if_neg (not_not.mpr hok), dif_pos h, if_pos hok]
    cases d.unpackOutput _ (slice (ofBytes body zeroed) header.extraHeaderSize
      header.messageLength) with
    | none => exact ⟨rfl, rfl⟩
    | some message => exact ⟨rfl, h⟩
  · rw [if_pos hok, if_neg hok]
    exact ⟨rfl, rfl⟩

theorem receiveBody_other (h : header.statusCode ≠ .success) (body : List UInt8) :
    receiveBody d header body = .withoutMessage
      (if (bodyTlv d header body ⟨0, []⟩).ret = .ok then header.statusCode else .serviceFailed) := by
  unfold receiveBody bodyTlv
  dsimp only
  by_cases hok : (tlvHeaderProcess d.getMethodIndexByName (ofBytes body zeroed) 0
      header.extraHeaderSize ⟨0, []⟩).ret = .ok
  · rw [if_neg (not_not.mpr hok), dif_neg h, if_pos hok]
  · rw [if_pos hok, if_neg hok]

/-- Both paths unpack the same message, and it is there. The lengths cover the header and
do not wrap; the TLV headers are accepted and there are some, or they are refused after
one that names a method, of whose output the message is none. -/
def SameMessage (d : Descriptor Msg) (svc : Service Msg) (header : Header) (packet : List UInt8) :
    Prop :=
  let tlv := bodyTlv d header (packet.drop headerSize) .init
  headerSize ≤ header.headerLength ∧ header.headerLength + header.messageLength < word32 ∧
    ((tlv.ret = .ok ∧ header.headerLength ≠ headerSize) ∨
      (tlv.ret ≠ .ok ∧ tlv.request.methodIndex < svc.nMethods ∧
        d.unpackOutput tlv.request.methodIndex (packet.drop header.headerLength) = none))

section
variable {svc : Service Msg}

/-- A message that lies in the packet is announced by lengths that do not wrap. -/
theorem lengths_of_defined (hlt : packet.length < 2 ^ 31) {m : Memory} {request : TlvRequest}
    (h : (unpackCall d header m request).Defined svc packet) :
    headerSize ≤ header.headerLength ∧ header.headerLength + header.messageLength < word32 := by
  have hend : headerSize + header.extraHeaderSize + header.messageLength ≤ packet.length := h.2
  have hword : word32 = 2 ^ 31 + 2 ^ 31 := rfl
  have hheader : headerSize = 16 := rfl
  by_cases hshort : header.headerLength < headerSize
  · have hextra : header.extraHeaderSize = word32 + header.headerLength - headerSize :=
      sub32_of_lt hshort (by decide)
    omega
  · have hextra := header.extraHeaderSize_eq (Nat.le_of_not_lt hshort)
    omega

/-- The lengths that do not wrap are those of the packet. -/
theorem lengths_eq (hheader : headerSize ≤ header.headerLength)
    (hsum : header.headerLength + header.messageLength < word32)
    (hlen : packet.length = headerSize + bodyLen header) :
    header.headerLength + header.messageLength = packet.length := by
  have hdyn := header.dynLen_eq hsum
  rw [hlen, bodyLen, hdyn, sub32_of_le (by omega) hsum]
  omega

theorem unpackCall_methodIndex (hheader : headerSize ≤ header.headerLength)
    (hlen : header.headerLength + header.messageLength = packet.length) (request : TlvRequest)
    (rest : Memory) :
    (unpackCall d header (ofBytes packet rest) request).methodIndex =
      (bodyTlv d header (packet.drop headerSize) request).request.methodIndex := by
  have hextra := header.extraHeaderSize_eq hheader
  have hsame := (@tlvHeaderProcess_congr d.getMethodIndexByName (ofBytes packet rest)
    (ofBytes (packet.drop headerSize) zeroed) headerSize 0 header.extraHeaderSize request
    (sub32_lt _ _) (fun i hi => by
      have hi' : headerSize + i < packet.length := by omega
      rw [ofBytes, ofBytes, List.getElem?_drop, Nat.zero_add, List.getElem?_eq_getElem hi']
      rfl)).2
  rw [unpackCall, hsame]
  rfl

theorem decodedMessage_eq (hheader : headerSize ≤ header.headerLength)
    (hlen : header.headerLength + header.messageLength = packet.length) (request : TlvRequest)
    (rest : Memory) :
    decodedMessage d header packet request rest =
      d.unpackOutput (bodyTlv d header (packet.drop headerSize) request).request.methodIndex
        (packet.drop header.headerLength) := by
  have hpayload : slice (ofBytes packet rest) (headerSize + header.extraHeaderSize)
      header.messageLength = packet.drop header.headerLength := by
    rw [slice_ofBytes rest (by have := header.extraHeaderSize_eq hheader; omega),
      header.extraHeaderSize_eq hheader, Nat.add_sub_cancel' hheader]
  rw [decodedMessage, unpackCall_methodIndex hheader hlen request rest]
  exact congrArg _ hpayload

theorem bodyMessage_eq (hheader : headerSize ≤ header.headerLength)
    (hlen : header.headerLength + header.messageLength = packet.length) :
    bodyMessage d header (packet.drop headerSize) =
    if (bodyTlv d header (packet.drop headerSize) ⟨0, []⟩).ret = .ok then
      d.unpackOutput (bodyTlv d header (packet.drop headerSize) ⟨0, []⟩).request.methodIndex
        (packet.drop header.headerLength)
    else none := by
  have hextra := header.extraHeaderSize_eq hheader
  rw [bodyMessage, slice_ofBytes zeroed (by rw [List.length_drop]; omega), List.drop_drop, hextra,
    Nat.add_sub_cancel' hheader]

theorem bodyTlv_ret (body : List UInt8) (request request' : TlvRequest) :
    (bodyTlv d header body request).ret = (bodyTlv d header body request').ret :=
  (tlvHeaderProcess_request d.getMethodIndexByName (ofBytes body zeroed) 0 header.extraHeaderSize
    request request').1

/-- Headers that are accepted, if there are any, name a method. -/
theorem bodyTlv_named (hlookup : d.getMethodIndexByName = svc.getMethodIndexByName)
    {body : List UInt8} {request : TlvRequest} (hok : (bodyTlv d header body request).ret = .ok)
    (hsome : header.extraHeaderSize ≠ 0) :
    (bodyTlv d header body request).request.methodIndex < svc.nMethods := by
  obtain ⟨-, hfound, -⟩ := tlvHeaderProcess_spec d.getMethodIndexByName (ofBytes body zeroed) 0
    request (sub32_lt header.headerLength headerSize)
  obtain ⟨h0, -⟩ | ⟨hdefined, _, _, -, -, -, -, -, hname⟩ := hfound hok
  · exact absurd h0 hsome
  · rw [hname, hlookup] at hdefined
    have hindex : (bodyTlv d header body request).request.methodIndex = _ := hname
    rw [hindex, hlookup]
    exact svc.getMethodIndexByName_lt _ hdefined

theorem sameMessage_iff (hlookup : d.getMethodIndexByName = svc.getMethodIndexByName)
    (hlt : packet.length < 2 ^ 31) (hwhole : packet.length = headerSize + bodyLen header) :
    (∀ request rest,
      (unpackCall d header (ofBytes packet rest) request).Defined svc packet ∧
        decodedMessage d header packet request rest =
          bodyMessage d header (packet.drop headerSize)) ↔ SameMessage d svc header packet := by
  constructor
  · intro h
    obtain ⟨hheader, hsum⟩ := lengths_of_defined hlt (h .init zeroed).1
    have hlen := lengths_eq hheader hsum hwhole
    refine ⟨hheader, hsum, ?_⟩
    by_cases hok : (bodyTlv d header (packet.drop headerSize) .init).ret = .ok
    · -- without headers the index is what the request holds before
      refine .inl ⟨hok, fun hnone => ?_⟩
      have hindex := (h ⟨svc.nMethods, []⟩ zeroed).1.1
      rw [unpackCall, header.extraHeaderSize_eq_zero.mpr hnone, tlvHeaderProcess_zero] at hindex
      exact absurd hindex (Nat.lt_irrefl _)
    · obtain ⟨⟨hindex, -⟩, hmessage⟩ := h .init zeroed
      rw [unpackCall_methodIndex hheader hlen] at hindex
      rw [decodedMessage_eq hheader hlen, bodyMessage_eq hheader hlen,
        bodyTlv_ret _ ⟨0, []⟩ .init, if_neg hok] at hmessage
      exact .inr ⟨hok, hindex, hmessage⟩
  · rintro ⟨hheader, hsum, hcases⟩ request rest
    have hlen := lengths_eq hheader hsum hwhole
    have hextra := header.extraHeaderSize_eq hheader
    have hend : (unpackCall d header (ofBytes packet rest) request).start +
        (unpackCall d header (ofBytes packet rest) request).length ≤ packet.length := by
      show headerSize + header.extraHeaderSize + header.messageLength ≤ packet.length
      omega
    rw [UnpackCall.Defined, unpackCall_methodIndex hheader hlen, decodedMessage_eq hheader hlen,
      bodyMessage_eq hheader hlen]
    rcases hcases with ⟨hok, hheaders⟩ | ⟨hrefused, hindex, hnone⟩
    · have hsome : header.extraHeaderSize ≠ 0 :=
        fun h0 => hheaders (header.extraHeaderSize_eq_zero.mp h0)
      rw [bodyTlv_ret _ .init request] at hok
      obtain ⟨hret, hrequest⟩ := tlvHeaderProcess_request d.getMethodIndexByName
        (ofBytes (packet.drop headerSize) zeroed) 0 header.extraHeaderSize request ⟨0, []⟩
      refine ⟨⟨bodyTlv_named hlookup hok hsome, hend⟩, ?_⟩
      rw [if_pos ((bodyTlv_ret _ ⟨0, []⟩ request).trans hok), bodyTlv, bodyTlv, hrequest hok hsome]
    · have hsame : (bodyTlv d header (packet.drop headerSize) request).request.methodIndex =
          (bodyTlv d header (packet.drop headerSize) .init).request.methodIndex := by
        obtain ⟨hkept, -⟩ | hsame := tlvHeaderProcess_methodIndex d.getMethodIndexByName
          (ofBytes (packet.drop headerSize) zeroed) 0 header.extraHeaderSize .init request
        · rw [bodyTlv, hkept] at hindex
          exact absurd hindex (Nat.not_lt_of_gt svc.methods_lt)
        · exact hsame.symm
      rw [if_neg (fun hok => hrefused ((bodyTlv_ret _ .init ⟨0, []⟩).trans hok)), hsame]
      exact ⟨⟨hindex, hend⟩, hnone⟩

end

/-! ### The condition -/

/-- The packet has a header, and if it is a known one then it announces nothing, or
more than the frame can hold, or exactly what is there. In the last case a reply of
success has the same message on both paths, and for another one the TLV headers are
accepted or the status is a failure anyway. -/
def ReadAlike (d : Descriptor Msg) (svc : Service Msg) (packet : List UInt8) (frameLength : Nat) :
    Prop :=
  headerSize ≤ packet.length ∧
    ∀ header, headerProcess (ofBytes packet zeroed) = some header →
      bodyLen header = 0 ∨ frameLength < headerSize + bodyLen header ∨
        (packet.length = headerSize + bodyLen header ∧
          if header.statusCode = .success then SameMessage d svc header packet
          else (bodyTlv d header (packet.drop headerSize) .init).ret = .ok ∨
            Fails header.statusCode)

/-! ### The cases -/

theorem headerProcess_ofBytes (hlong : headerSize ≤ packet.length) (rest rest' : Memory) :
    headerProcess (ofBytes packet rest) = headerProcess (ofBytes packet rest') := by
  refine headerProcess_congr fun p hlt => ?_
  rw [ofBytes, ofBytes, List.getElem?_eq_getElem (Nat.lt_of_lt_of_le hlt hlong)]
  rfl

/-- A client that reports success without a message agrees with none that reports
success with messages only. -/
theorem not_agree_success {r : Received Msg} (h : r.status = .success → r.message ≠ none) :
    ¬ Received.Agree r (.withoutMessage .success) := by
  intro hagree
  rcases hagree with ⟨hstatus, hmessage⟩ | ⟨_, hfails⟩
  · exact h hstatus hmessage
  · rcases hfails with hf | hf | hf
    · cases hf
    · cases hf
    · cases hf

theorem receiveBody_message (body : List UInt8)
    (h : (receiveBody d header body).status = .success) :
    (receiveBody d header body).message ≠ none := by
  by_cases hs : header.statusCode = .success
  · obtain ⟨hmessage, hstatus⟩ := receiveBody_success hs body
    rw [hstatus] at h
    rw [hmessage]
    split at h
    · next hsome => exact fun hnone => by simp [hnone] at hsome
    · cases h
  · rw [receiveBody_other hs] at h
    refine absurd (show (if _ then header.statusCode else StatusCode.serviceFailed) = .success from h)
      ?_
    split
    · exact hs
    · simp

/-- Two clients that report success exactly when they have a message. -/
theorem agree_message_iff {r₁ r₂ : Received Msg}
    (h₁ : r₁.status = if r₁.message.isSome then .success else .serviceFailed)
    (h₂ : r₂.status = if r₂.message.isSome then .success else .serviceFailed) :
    Received.Agree r₁ r₂ ↔ r₂.message = r₁.message := by
  constructor
  · intro hagree
    rcases hagree with ⟨_, hmessage⟩ | ⟨hf₁, hf₂⟩
    · exact hmessage.symm
    · have hnone : ∀ r : Received Msg,
          r.status = (if r.message.isSome then .success else .serviceFailed) → Fails r.status →
            r.message = none := by
        intro r hr hf
        cases hm : r.message with
        | none => rfl
        | some message =>
          rw [hr, hm] at hf
          rcases hf with hf | hf | hf
          · cases hf
          · cases hf
          · cases hf
      rw [hnone r₁ h₁ hf₁, hnone r₂ h₂ hf₂]
  · intro hmessage
    refine .inl ⟨?_, hmessage.symm⟩
    rw [h₁, h₂, hmessage]

theorem agree_other_iff {status : StatusCode} {ok : Prop} [Decidable ok] :
    Received.Agree (Received.withoutMessage (if ok then status else .serviceFailed) : Received Msg)
      (.withoutMessage status) ↔ ok ∨ Fails status := by
  by_cases h : ok
  · rw [if_pos h]
    exact ⟨fun _ => .inl h, fun _ => .inl ⟨rfl, rfl⟩⟩
  · rw [if_neg h]
    constructor
    · intro hagree
      rcases hagree with ⟨hstatus, _⟩ | ⟨_, hf⟩
      · exact .inr (.inl hstatus.symm)
      · exact .inr hf
    · intro hf
      exact .inr ⟨.inl rfl, hf.resolve_left h⟩

/-- The encrypted path, when the frame holds what the header announces. -/
theorem receiveDecoded_long {client : CmsgClient Msg} {c : Client.Connection} {n : Nat}
    (hlong : headerSize ≤ packet.length) (hn : n < 2 ^ 31)
    (hp : headerProcess (ofBytes packet zeroed) = some header) :
    receiveDecoded client c n (some packet) =
      if bodyLen header = 0 then .withoutMessage header.statusCode
      else if n < headerSize + bodyLen header then
        { Received.withoutMessage .serviceFailed with socketClosed := true }
      else if packet.length = headerSize + bodyLen header then
        if h : header.statusCode = .success then
          match decodedMessage client.toDescriptor header packet c.serverRequest c.staleDecoded with
          | some message => ⟨header.statusCode, some message, false, fun _ => h⟩
          | none => .withoutMessage .serviceFailed
        else .withoutMessage header.statusCode
      else .withoutMessage .success := by
  have hp' : headerProcess (ofBytes packet c.staleDecoded) = some header := by
    rw [headerProcess_ofBytes hlong _ zeroed, hp]
  unfold receiveDecoded
  dsimp only
  rw [if_pos hlong, hp']
  dsimp only
  rw [Nat.add_comm (bodyLen header) headerSize]
  by_cases hfits : n < headerSize + bodyLen header
  · rw [if_pos hfits, if_pos hfits]
  · have hlength : ((packet.length : Int) - headerSize = toInt32 (bodyLen header)) ↔
        packet.length = headerSize + bodyLen header := by
      rw [toInt32_of_lt (by omega)]
      omega
    simp only [hlength]
    rfl

/-- The encrypted path unpacks nothing else: without such a packet it makes no difference
what unpacks messages. -/
theorem receiveDecoded_of_not_unpacks {client : CmsgClient Msg} {c : Client.Connection} {n : Nat}
    (hn : n < 2 ^ 31) (h : ∀ header, ¬ Unpacks packet n header)
    (unpackOutput : Nat → List UInt8 → Option Msg) :
    receiveDecoded { client with unpackOutput } c n (some packet) =
      receiveDecoded client c n (some packet) := by
  by_cases hlong : headerSize ≤ packet.length
  · cases hp : headerProcess (ofBytes packet zeroed) with
    | none =>
      have hp' : headerProcess (ofBytes packet c.staleDecoded) = none := by
        rw [headerProcess_ofBytes hlong _ zeroed, hp]
      unfold receiveDecoded
      dsimp only
      rw [if_pos hlong, if_pos hlong, hp']
    | some header =>
      rw [receiveDecoded_long hlong hn hp, receiveDecoded_long hlong hn hp]
      by_cases h0 : bodyLen header = 0
      · rw [if_pos h0, if_pos h0]
      by_cases hbig : n < headerSize + bodyLen header
      · rw [if_neg h0, if_neg h0, if_pos hbig, if_pos hbig]
      by_cases hwhole : packet.length = headerSize + bodyLen header
      · have hother : header.statusCode ≠ .success := fun hsuccess =>
          h header ⟨hlong, hp, h0, Nat.le_of_not_lt hbig, hwhole, hsuccess⟩
        rw [dif_neg hother, dif_neg hother]
      · rw [if_neg h0, if_neg h0, if_neg hbig, if_neg hbig, if_neg hwhole, if_neg hwhole]
  · unfold receiveDecoded
    dsimp only
    rw [if_neg hlong, if_neg hlong]

theorem agree_long_iff {client : CmsgClient Msg} {c : Client.Connection} {n : Nat}
    (hlong : headerSize ≤ packet.length) (hle : packet.length ≤ n) (hn : n < 2 ^ 31)
    (hp : headerProcess (ofBytes packet zeroed) = some header) :
    Received.Agree (clientRecv client.toDescriptor (.complete packet hlong)).1
        (receiveDecoded client c n (some packet)) ↔
      bodyLen header = 0 ∨ n < headerSize + bodyLen header ∨
        (packet.length = headerSize + bodyLen header ∧
          if header.statusCode = .success then
            decodedMessage client.toDescriptor header packet c.serverRequest c.staleDecoded =
              bodyMessage client.toDescriptor header (packet.drop headerSize)
          else (bodyTlv client.toDescriptor header (packet.drop headerSize) ⟨0, []⟩).ret = .ok ∨
            Fails header.statusCode) := by
  rw [clientRecv_long hlong (Nat.lt_of_le_of_lt hle hn) hp, receiveDecoded_long hlong hn hp]
  by_cases h0 : bodyLen header = 0
  · rw [if_pos h0, if_pos h0]
    exact ⟨fun _ => .inl h0, fun _ => .inl ⟨rfl, rfl⟩⟩
  rw [if_neg h0, if_neg h0]
  by_cases hbig : n < headerSize + bodyLen header
  · rw [if_pos hbig, if_neg (by omega)]
    exact ⟨fun _ => .inr (.inl hbig), fun _ => .inl ⟨rfl, rfl⟩⟩
  rw [if_neg hbig]
  by_cases hlen : packet.length = headerSize + bodyLen header
  · have hbody : (packet.drop headerSize).take (bodyLen header) = packet.drop headerSize :=
      List.take_of_length_le (by rw [List.length_drop]; omega)
    rw [if_pos hlen, if_pos (Nat.le_of_eq hlen.symm), hbody]
    have hexact : ∀ {P : Prop}, (bodyLen header = 0 ∨ n < headerSize + bodyLen header ∨
        (packet.length = headerSize + bodyLen header ∧ P)) ↔ P := by
      intro P
      exact ⟨fun h => ((h.resolve_left h0).resolve_left hbig).2, fun h => .inr (.inr ⟨hlen, h⟩)⟩
    rw [hexact]
    by_cases hs : header.statusCode = .success
    · obtain ⟨hmessage, hstatus⟩ := receiveBody_success (d := client.toDescriptor) hs
        (packet.drop headerSize)
      rw [if_pos hs, dif_pos hs]
      cases decodedMessage client.toDescriptor header packet c.serverRequest c.staleDecoded with
      | none =>
        rw [agree_message_iff (by rw [hmessage]; exact hstatus) (by rfl), hmessage]
        exact Iff.rfl
      | some message =>
        rw [agree_message_iff (by rw [hmessage]; exact hstatus) (by exact hs), hmessage]
    · rw [if_neg hs, dif_neg hs, receiveBody_other hs]
      exact agree_other_iff
  · rw [if_neg hlen]
    refine ⟨fun hagree => absurd hagree (not_agree_success ?_), fun h => ?_⟩
    · split
      · exact receiveBody_message _
      · exact fun h => by cases h
    · rcases h with h | h | h
      · exact absurd h h0
      · exact absurd h hbig
      · exact absurd h.1 hlen

/-- A header that is not known is a failure on both paths. -/
theorem agree_unknown {client : CmsgClient Msg} {c : Client.Connection} {n : Nat}
    (hlong : headerSize ≤ packet.length) (hp : headerProcess (ofBytes packet zeroed) = none) :
    Received.Agree (clientRecv client.toDescriptor (.complete packet hlong)).1
      (receiveDecoded client c n (some packet)) := by
  have hp' : headerProcess (ofBytes packet c.staleDecoded) = none := by
    rw [headerProcess_ofBytes hlong _ zeroed, hp]
  have hplain : clientRecv client.toDescriptor (.complete packet hlong) =
      (.withoutMessage .serviceFailed, headerSize) := by
    unfold clientRecv
    rw [if_neg (show ¬ (Arrival.complete packet hlong).peekCode ≠ .success from fun h => h rfl),
      show headerProcess (ofBytes (Arrival.complete packet hlong).stream zeroed) = none from hp]
    rfl
  unfold receiveDecoded
  dsimp only
  rw [hplain, if_pos hlong, hp']
  exact .inl ⟨rfl, rfl⟩

end

/-- **On the client**, exactly the packets that both paths read alike. -/
theorem clients_agree_iff {client : CmsgClient Msg} {packet ciphertext : List UInt8}
    (hlookup : client.getMethodIndexByName = svc.getMethodIndexByName)
    (h : Seals client.cryptoSa packet ciphertext) :
    ClientsAgree svc client packet ciphertext ↔
      ReadAlike client.toDescriptor svc packet (secureHeaderSize + ciphertext.length) := by
  have hle : packet.length ≤ secureHeaderSize + ciphertext.length :=
    Nat.le_trans h.length_le (Nat.le_add_left _ _)
  have hlt : packet.length < 2 ^ 31 := Nat.lt_of_le_of_lt hle h.length_lt
  have hframe : 8 ≤ (payloadFrame ciphertext).length := by
    rw [length_payloadFrame]
    exact Nat.le_trans (by decide) (Nat.le_add_right secureHeaderSize _)
  -- a connection whose request and buffer hold what they may
  have harrival : ∀ (request : TlvRequest) (rest : Memory), FrameArrival
      ⟨payloadFrame ciphertext, .success, fun _ => hframe, none, true, true, zeroed, rest, request⟩
      ciphertext := fun _ _ => ⟨rfl, rfl, rfl, rfl, rfl⟩
  constructor
  · intro hagree
    by_cases hlong : headerSize ≤ packet.length
    · refine ⟨hlong, fun header hp => ?_⟩
      have hs := fun request rest => hagree (.complete packet hlong) _
        ⟨rfl, fun _ => rfl, rfl, rfl, fun _ => rfl⟩ (harrival request rest)
      simp only [clientReceiveEncrypted_frame h (harrival _ _),
        agree_long_iff hlong hle h.length_lt hp] at hs
      by_cases h0 : bodyLen header = 0
      · exact .inl h0
      by_cases hbig : secureHeaderSize + ciphertext.length < headerSize + bodyLen header
      · exact .inr (.inl hbig)
      have hexact := fun request rest => ((hs request rest).1.resolve_left h0).resolve_left hbig
      have hwhole := (hexact ⟨0, []⟩ zeroed).1
      refine .inr (.inr ⟨hwhole, ?_⟩)
      split
      · next hsuccess =>
        have hunpacks : Unpacks packet (secureHeaderSize + ciphertext.length) header :=
          ⟨hlong, hp, h0, Nat.le_of_not_lt hbig, hwhole, hsuccess⟩
        refine (sameMessage_iff hlookup hlt hwhole).mp fun request rest =>
          ⟨(hs request rest).2 header hunpacks, ?_⟩
        have hmessage := (hexact request rest).2
        rw [if_pos hsuccess] at hmessage
        exact hmessage
      · next hother =>
        have hstatus := (hexact ⟨0, []⟩ zeroed).2
        rw [if_neg hother, bodyTlv_ret _ ⟨0, []⟩ .init] at hstatus
        exact hstatus
    · have hshort := Nat.lt_of_not_le hlong
      have hplain : PlainArrival ⟨packet, .timeout, by simp, none, none, fun _ => true⟩ packet :=
        ⟨rfl, fun h => absurd h hlong, rfl, rfl, fun _ => rfl⟩
      have hs := (hagree _ _ hplain (harrival ⟨0, []⟩ zeroed)).1
      rw [clientReceiveEncrypted_frame h (harrival ⟨0, []⟩ zeroed), receiveDecoded,
        if_neg hlong] at hs
      refine absurd hs (not_agree_success fun hsuccess => ?_)
      have hfails := clientRecv_short hplain hshort (d := client.toDescriptor)
      rw [hsuccess] at hfails
      rcases hfails with hf | hf | hf
      · cases hf
      · cases hf
      · cases hf
  · rintro ⟨hlong, hheader⟩ a c ha hc
    rw [clientReceiveEncrypted_frame h hc, ha.eq_complete hlong]
    refine ⟨?_, fun header hunpacks => ?_⟩
    · cases hp : headerProcess (ofBytes packet zeroed) with
      | none => exact agree_unknown hlong hp
      | some header =>
        rw [agree_long_iff hlong hle h.length_lt hp]
        rcases hheader header hp with h0 | hbig | ⟨hwhole, hmessage⟩
        · exact .inl h0
        · exact .inr (.inl hbig)
        · refine .inr (.inr ⟨hwhole, ?_⟩)
          split
          · next hsuccess =>
            rw [if_pos hsuccess] at hmessage
            exact ((sameMessage_iff hlookup hlt hwhole).mpr hmessage _ _).2
          · next hother =>
            rw [if_neg hother, bodyTlv_ret _ .init ⟨0, []⟩] at hmessage
            exact hmessage
    · rcases hheader header hunpacks.known with h0 | hbig | ⟨hwhole, hmessage⟩
      · exact absurd h0 hunpacks.announces
      · exact absurd hunpacks.fits (Nat.not_le_of_gt hbig)
      · rw [if_pos hunpacks.success] at hmessage
        exact ((sameMessage_iff hlookup hlt hwhole).mpr hmessage _ _).1

/-! ## Both -/

-- a cipher that leaves everything as it is
def sampleSa : CryptoSa where
  server := false
  ctxOutInit := true
  evpDecrypt _ bytes := if bytes.length < 2 ^ 30 then some bytes else none
  length_lt h := by
    split at h
    · rw [← Option.some.inj h]
      omega
    · cases h

def sampleClient : CmsgClient (List UInt8) where
  toDescriptor := sampleDescriptor
  cryptoSa := sampleSa
  cryptoSaDeriveFunc _ _ := true

theorem seals_sample {packet : List UInt8} (h : packet.length < 2 ^ 30) :
    Seals sampleSa packet packet where
  ready hs := by cases hs
  decrypts := if_pos h
  length_le := Nat.le_refl _
  length_lt := by
    have : secureHeaderSize = 12 := rfl
    omega

/-- A reply with one byte. -/
def samplePacket : List UInt8 := methodPacket .methodReply .success sampleName [1]

def sampleHeader : Header where
  msgType := .methodReply
  headerLength := 29
  messageLength := 1
  statusCode := .success
  headerLength_lt := by decide
  messageLength_lt := by decide

end Cmsg.Rpc
