import Cmsg.Client.Receive
import Cmsg.Client.Send
import Cmsg.Server.TlvParser

/-! # Requests and replies are read as they were written

The client writes a request and the server reads it; the server writes a reply
and the client reads it. Both ways the name of the method, the message and the
status come through, for all the sizes that an `int` can hold. -/
namespace Cmsg.Rpc
open Cmsg.Base Cmsg.Wire Cmsg.Client Cmsg.Server

variable {Msg : Type} {svc : Service Msg}

/-! ## The server reads a request -/

/-- The packet in memory is a request of method `i`, with these message bytes. -/
def ReadsRequest (svc : Service Msg) (i : Fin svc.nMethods) (m : Memory) (message : List UInt8) :
    Prop :=
  ∃ header, headerProcess m = some header ∧ header.msgType = .methodReq ∧
    let tlv := tlvHeaderProcess svc.getMethodIndexByName m headerSize header.extraHeaderSize .init
    tlv.ret = .ok ∧ tlv.request = ⟨i, (svc.methods.get i).name⟩ ∧
      slice m (headerSize + header.extraHeaderSize) header.messageLength = message

theorem lookup_ne_undefined (h : svc.Sorted) (i : Fin svc.nMethods) :
    svc.getMethodIndexByName (svc.methods.get i).name ≠ undefinedMethod := by
  rw [h.getMethodIndexByName]
  exact Nat.ne_of_lt (Nat.lt_trans i.isLt svc.methods_lt)

theorem reads_methodPacket (h : svc.Sorted) {i : Fin svc.nMethods}
    (hname : MethodName (svc.methods.get i).name) {statusCode : StatusCode} (hs : statusCode.Known)
    {message : List UInt8}
    (hsize : headerSize + tlvSize ((svc.methods.get i).name.length + 1) + message.length < word32)
    {m : Memory}
    (hm : Holds m 0 (methodPacket .methodReq statusCode (svc.methods.get i).name message)) :
    ReadsRequest svc i m message := by
  obtain ⟨header, hp, hannounces⟩ := headerProcess_methodPacket hm hs hsize
  rw [methodPacket_eq] at hm
  obtain ⟨htlv, hmessage⟩ := hm.append.2.append
  rw [length_headerCreate, Nat.zero_add] at htlv hmessage
  rw [length_methodTlv] at hmessage
  have hread := @tlvHeaderProcess_of_holds svc.getMethodIndexByName m _ _ htlv hname .init
  rw [if_neg (lookup_ne_undefined h i), h.getMethodIndexByName] at hread
  refine ⟨header, hp, hannounces.msgType_eq, ?_⟩
  rw [hannounces.extraHeaderSize_eq, hannounces.messageLength_eq]
  exact ⟨hread.1, hread.2, hmessage.slice⟩

/-! ## The client reads a reply -/

/-- The bytes that `cmsg_server_empty_method_reply_send` or `cmsg_server_closure_rpc`
sends for a reply. -/
def replyPacket (reply : Reply) : List UInt8 :=
  match reply.methodName with
  | none => headerCreate reply.msgType 0 0 reply.statusCode
  | some name => methodPacket reply.msgType reply.statusCode name reply.message

theorem headerSize_le_length_replyPacket (reply : Reply) :
    headerSize ≤ (replyPacket reply).length := by
  unfold replyPacket
  split
  · exact Nat.le_of_eq (length_headerCreate _ _ _ _).symm
  · rw [length_methodPacket]
    omega

theorem headerSize_le_replyPacket (reply : Reply) (rest : List UInt8) :
    headerSize ≤ (replyPacket reply ++ rest).length :=
  Nat.le_trans (headerSize_le_length_replyPacket reply) (List.prefix_append _ _).length_le

/-- The header of a reply announces what follows it. -/
theorem bodyLen_replyPacket {reply : Reply} (hs : reply.statusCode.Known)
    (hsize : (replyPacket reply).length < 2 ^ 31) {m : Memory} (hm : Holds m 0 (replyPacket reply))
    {header : Header} (hp : headerProcess m = some header) :
    headerSize + bodyLen header = (replyPacket reply).length := by
  have hword : 2 ^ 31 < word32 := by decide
  have hlong := headerSize_le_length_replyPacket reply
  have hdyn : header.dynLen = (replyPacket reply).length := by
    unfold replyPacket at hm hsize ⊢
    cases hname : reply.methodName with
    | none =>
      rw [hname] at hm
      obtain ⟨header', hp', _, hheader, hmessage, _⟩ := headerProcess_headerCreate hm hs
      obtain rfl := Option.some.inj (hp.symm.trans hp')
      rw [header.dynLen_eq (by rw [hheader, hmessage]; decide), hheader, hmessage]
      rfl
    | some name =>
      rw [hname] at hm hsize
      dsimp only at hm hsize ⊢
      rw [length_methodPacket] at hsize ⊢
      obtain ⟨header', hp', hannounces⟩ :=
        headerProcess_methodPacket hm hs (lt_word32 hsize)
      obtain rfl := Option.some.inj (hp.symm.trans hp')
      exact hannounces.dynLen_eq (lt_word32 hsize)
  rw [bodyLen, sub32_of_le (by omega) (by omega), hdyn]
  omega

/-- The client takes the whole packet off the connection. It gets the status, and of the
bytes of a message, if there are any, what the output descriptor of method `i` unpacks. -/
structure ReadsReply (d : Descriptor Msg) (i : Nat) (packet : List UInt8) (status : StatusCode)
    (message : Option (List UInt8)) (r : Received Msg × Nat) : Prop where
  whole : r.2 = packet.length
  status : (∀ bytes, message = some bytes → (d.unpackOutput i bytes).isSome) → r.1.status = status
  message : r.1.message = message.bind (d.unpackOutput i)

/-- A reply without a message is its header. -/
theorem reads_emptyReply (d : Descriptor Msg) (i : Nat) {status : StatusCode} (hs : status.Known)
    (rest : List UInt8) :
    ReadsReply d i (replyPacket (emptyMethodReply status)) status none (clientRecv d
      (.complete (replyPacket (emptyMethodReply status) ++ rest)
        (headerSize_le_replyPacket _ rest))) := by
  have hm := (holds_ofBytes (replyPacket (emptyMethodReply status) ++ rest) zeroed).append.1
  obtain ⟨header, hp, _, _, _, hstatus⟩ := headerProcess_headerCreate hm hs
  have hlength := @bodyLen_replyPacket (emptyMethodReply status) hs (show headerSize < 2 ^ 31 by decide)
    _ hm _ hp
  have hbody : bodyLen header = 0 := Nat.add_left_cancel hlength
  rw [clientRecv_complete d _ hp, receiveAnnounced_empty d _ hbody, hstatus]
  exact ⟨rfl, fun _ => rfl, rfl⟩

theorem reads_methodReply {d : Descriptor Msg} (h : svc.Sorted)
    (hd : d.getMethodIndexByName = svc.getMethodIndexByName) {i : Fin svc.nMethods}
    (hname : MethodName (svc.methods.get i).name) (packed : List UInt8)
    (hsize : headerSize + tlvSize ((svc.methods.get i).name.length + 1) + packed.length < 2 ^ 31)
    (rest : List UInt8) :
    let reply : Reply := ⟨.methodReply, .success, some (svc.methods.get i).name, packed⟩
    ReadsReply d i (replyPacket reply) .success (some packed)
      (clientRecv d (.complete (replyPacket reply ++ rest) (headerSize_le_replyPacket _ rest))) := by
  intro reply
  have hword : 2 ^ 31 < word32 := by decide
  have hm := (holds_ofBytes (replyPacket reply ++ rest) zeroed).append.1
  have hknown : StatusCode.success.Known := by
    intro word
    simp
  obtain ⟨header, hp, hannounces⟩ := headerProcess_methodPacket hm hknown (lt_word32 hsize)
  have hextra := hannounces.extraHeaderSize_eq
  have hpacket : replyPacket reply = headerCreate .methodReply
      (tlvSize ((svc.methods.get i).name.length + 1)) packed.length .success ++
        (methodTlv (svc.methods.get i).name ++ packed) := methodPacket_eq _ _ _ _
  have hlength : (replyPacket reply).length =
      headerSize + tlvSize ((svc.methods.get i).name.length + 1) + packed.length :=
    length_methodPacket _ _ _ _
  have hpos : 0 < tlvSize ((svc.methods.get i).name.length + 1) := Nat.add_pos_left (by decide) _
  have hdrop : (replyPacket reply ++ rest).drop headerSize =
      (methodTlv (svc.methods.get i).name ++ packed) ++ rest := by
    rw [hpacket, List.append_assoc]
    exact List.drop_left' (length_headerCreate _ _ _ _)
  have htotal : (replyPacket reply).length =
      headerSize + (methodTlv (svc.methods.get i).name ++ packed).length := by
    rw [hpacket]
    exact List.length_append
  have hbody : bodyLen header = (methodTlv (svc.methods.get i).name ++ packed).length :=
    Nat.add_left_cancel ((bodyLen_replyPacket hknown (by omega) hm hp).trans htotal)
  have hle : headerSize + bodyLen header ≤ (replyPacket reply ++ rest).length := by
    rw [List.length_append, htotal, hbody]
    omega
  rw [clientRecv_complete d _ hp, receiveAnnounced_complete d _ (by omega) (by omega) hle, hdrop,
    hbody, List.take_left]
  -- the body starts with the name of the method
  obtain ⟨htlv, hmessage⟩ :=
    (holds_ofBytes (methodTlv (svc.methods.get i).name ++ packed) zeroed).append
  rw [length_methodTlv, Nat.zero_add] at hmessage
  have hread := @tlvHeaderProcess_of_holds svc.getMethodIndexByName _ _ _ htlv hname ⟨0, []⟩
  rw [if_neg (lookup_ne_undefined h i), h.getMethodIndexByName] at hread
  have hbytes : slice (ofBytes (methodTlv (svc.methods.get i).name ++ packed) zeroed)
      header.extraHeaderSize header.messageLength = packed := by
    rw [hextra, hannounces.messageLength_eq, hmessage.slice]
  unfold receiveBody
  dsimp only
  rw [hbytes, hd, hextra, hread.1, hread.2, if_neg (by simp), dif_pos hannounces.statusCode_eq]
  dsimp only
  cases hunpack : d.unpackOutput i packed with
  | some message => exact ⟨htotal.symm, fun _ => hannounces.statusCode_eq, hunpack.symm⟩
  | none =>
    refine ⟨htotal.symm, fun hsome => ?_, hunpack.symm⟩
    have hreads := hsome packed rfl
    rw [hunpack] at hreads
    cases hreads

/-! ## Both ways -/

/-- A reply of `cmsg_server_closure_rpc` is a bare status or a response. -/
theorem closureRpc_cases {reason : ProcessingReason} {name : CString} {calloc : Nat → Bool}
    {response : Option Response} {reply : Reply}
    (h : reply ∈ closureRpc reason name calloc response) :
    (∃ status : StatusCode, status.Known ∧ reply = emptyMethodReply status) ∨
      ∃ packed, reply = ⟨.methodReply, .success, some name, packed⟩ := by
  have hfailed : StatusCode.serviceFailed.Known := by intro word; simp
  cases reason with
  | invokingFromQueue => cases h
  | queued => exact .inl ⟨.serviceQueued, by intro word; simp, List.mem_singleton.mp h⟩
  | dropped => exact .inl ⟨.serviceDropped, by intro word; simp, List.mem_singleton.mp h⟩
  | okToInvoke =>
    cases response with
    | none => exact .inl ⟨_, hfailed, List.mem_singleton.mp h⟩
    | some response =>
      unfold closureRpc at h
      dsimp only at h
      split at h
      · exact .inl ⟨_, hfailed, List.mem_singleton.mp h⟩
      · split at h
        · exact .inl ⟨_, hfailed, List.mem_singleton.mp h⟩
        · split at h
          · exact .inl ⟨_, hfailed, List.mem_singleton.mp h⟩
          · exact .inr ⟨response.packed, List.mem_singleton.mp h⟩

/-- The server sends one reply, of which the client gets the status and the message,
whatever arrives behind it. -/
def AnsweredWith (d : Descriptor Msg) (i : Nat) (replies : List Reply) (status : StatusCode)
    (message : Option (List UInt8)) : Prop :=
  ∃ reply, replies = [reply] ∧ ∀ rest,
    ReadsReply d i (replyPacket reply) status message
      (clientRecv d (.complete (replyPacket reply ++ rest) (headerSize_le_replyPacket _ rest)))

theorem answeredWith_empty (d : Descriptor Msg) (i : Nat) {status : StatusCode}
    (hs : status.Known) : AnsweredWith d i [emptyMethodReply status] status none :=
  ⟨_, rfl, reads_emptyReply d i hs⟩

/-- The size of the packet of a message. -/
def packetSize (name : CString) (messageSize : Nat) : Nat :=
  headerSize + tlvSize (name.length + 1) + messageSize

/-- The packet of a message that fits, when there is memory for it. -/
theorem createPacket_isSome {calloc : Nat → Bool} {name : CString} {input : Client.Input}
    (hsize : packetSize name input.packed.length < 2 ^ 31)
    (hcalloc : calloc (packetSize name input.packed.length) = true)
    (hpacked : input.packed.length = input.packedSize) :
    (createPacket calloc name input).isSome := by
  have hword : packetSize name input.packed.length < word32 := lt_word32 hsize
  unfold packetSize at hword hcalloc
  have htlv : tlvSize (name.length + 1) = 8 + (name.length + 1) := rfl
  have hname : wrap32 (name.length + 1) = name.length + 1 := wrap32_of_lt (by omega)
  have hextra : wrap32 (tlvSize (name.length + 1)) = tlvSize (name.length + 1) :=
    wrap32_of_lt (by omega)
  have hheader : wrap32 (headerSize + tlvSize (name.length + 1)) =
      headerSize + tlvSize (name.length + 1) := wrap32_of_lt (by omega)
  have hmessage : wrap32 input.packed.length = input.packed.length := wrap32_of_lt (by omega)
  unfold createPacket
  simp only [hname, hextra, hheader, ← hpacked, hmessage, wrap32_of_lt hword, hcalloc]
  simp

/-- A response is sent when there is memory for its packet and it packs to its size. -/
theorem closureRpc_response {name : CString} {calloc : Nat → Bool} {response : Response}
    (hsize : packetSize name response.packedSize < 2 ^ 31) :
    closureRpc .okToInvoke name calloc (some response) =
      if calloc (packetSize name response.packedSize) = true ∧
          response.packed.length = response.packedSize then
        [⟨.methodReply, .success, some name, response.packed⟩]
      else [emptyMethodReply .serviceFailed] := by
  have hwrap : wrap32 (packetSize name response.packedSize) = packetSize name response.packedSize :=
    wrap32_of_lt (lt_word32 hsize)
  unfold closureRpc
  dsimp only
  rw [show headerSize + tlvSize (name.length + 1) + response.packedSize =
    packetSize name response.packedSize from rfl, hwrap]
  cases calloc (packetSize name response.packedSize) with
  | false => rfl
  | true =>
    rw [if_neg (by simp)]
    by_cases hunder : response.packed.length < response.packedSize
    · rw [if_pos hunder, if_neg (fun h => Nat.ne_of_lt hunder h.2)]
    by_cases hover : response.packed.length > response.packedSize
    · rw [if_neg hunder, if_pos hover, if_neg (fun h => Nat.ne_of_gt hover h.2)]
    · rw [if_neg hunder, if_neg hover, if_pos ⟨rfl, by omega⟩]

/-- **The round trip.** The client makes a packet of a request that there is memory for,
and the server reads every such packet as a request of its method with its message. The
server answers a request as its closure is called, not at all when it comes from the
queue, and the client reads the status, and the message of a response. -/
theorem request_reply_roundtrip (h : svc.Sorted)
    (hnames : ∀ m ∈ svc.methods, 1 ≤ m.name.length ∧ m.name.length ≤ 127)
    {d : Descriptor Msg} (hd : d.getMethodIndexByName = svc.getMethodIndexByName)
    (i : Fin svc.nMethods) :
    let name := (svc.methods.get i).name
    (∀ calloc input, packetSize name input.packed.length < 2 ^ 31 →
      (calloc (packetSize name input.packed.length) = true →
        input.packed.length = input.packedSize → (createPacket calloc name input).isSome) ∧
      ∀ packet stale, createPacket calloc name input = some packet →
        ReadsRequest svc i (ofBytes packet stale) input.packed) ∧
    ∀ calloc response,
      closureRpc .invokingFromQueue name calloc response = [] ∧
      AnsweredWith d i (closureRpc .queued name calloc response) .serviceQueued none ∧
      AnsweredWith d i (closureRpc .dropped name calloc response) .serviceDropped none ∧
      AnsweredWith d i (closureRpc .okToInvoke name calloc none) .serviceFailed none ∧
      ∀ r, response = some r → packetSize name r.packedSize < 2 ^ 31 →
        if calloc (packetSize name r.packedSize) = true ∧ r.packed.length = r.packedSize then
          AnsweredWith d i (closureRpc .okToInvoke name calloc response) .success (some r.packed)
        else AnsweredWith d i (closureRpc .okToInvoke name calloc response) .serviceFailed none := by
  intro name
  have hmem : svc.methods.get i ∈ svc.methods := List.get_mem _ _
  have hname : MethodName name := by
    obtain ⟨hpos, hle⟩ := hnames _ hmem
    exact ⟨List.ne_nil_of_length_pos hpos, Nat.lt_succ_of_le hle, svc.name_ne_zero _ hmem⟩
  have hfailed : StatusCode.serviceFailed.Known := by intro word; simp
  refine ⟨fun calloc input hsize => ⟨createPacket_isSome hsize, fun packet stale hc => ?_⟩,
    fun calloc response => ⟨rfl, answeredWith_empty d i (by intro word; simp),
      answeredWith_empty d i (by intro word; simp), answeredWith_empty d i hfailed, ?_⟩⟩
  · have hword := lt_word32 hsize
    obtain rfl := createPacket_eq hc hword
    exact reads_methodPacket h hname (by intro word; simp) hword (holds_ofBytes _ stale)
  · rintro r rfl hsize
    rw [closureRpc_response hsize]
    split
    · next hgiven =>
      refine ⟨_, rfl, reads_methodReply h hd hname r.packed ?_⟩
      rw [hgiven.2]
      exact hsize
    · exact answeredWith_empty d i hfailed

def sampleDescriptor : Descriptor (List UInt8) where
  getMethodIndexByName := sampleService.getMethodIndexByName
  unpackOutput _ bytes := some bytes
  freeUnknownFields := id

/-- A request with one byte, and the responses to it: one with two bytes, and one that
there is no memory for. -/
theorem request_reply_roundtrip_sample :
    ReadsRequest sampleService ⟨0, by decide⟩
      (ofBytes (methodPacket .methodReq .unset sampleName [1]) zeroed) [1] ∧
    AnsweredWith sampleDescriptor 0
      (closureRpc .okToInvoke sampleName (fun _ => true) (some ⟨2, [3, 4]⟩)) .success
      (some [3, 4]) ∧
    AnsweredWith sampleDescriptor 0
      (closureRpc .okToInvoke sampleName (fun _ => false) (some ⟨2, [3, 4]⟩)) .serviceFailed none := by
  have hnames : ∀ m ∈ sampleService.methods, 1 ≤ m.name.length ∧ m.name.length ≤ 127 := by
    intro m hm
    obtain rfl := List.mem_singleton.mp hm
    exact ⟨by decide, by decide⟩
  obtain ⟨hrequest, hreply⟩ := request_reply_roundtrip sampleService_sorted hnames
    (show sampleDescriptor.getMethodIndexByName = _ from rfl) ⟨0, by decide⟩
  obtain ⟨hmade, hreads⟩ := hrequest (fun _ => true) ⟨1, [1]⟩ (by decide)
  obtain ⟨packet, hpacket⟩ := Option.isSome_iff_exists.mp (hmade rfl rfl)
  obtain rfl := createPacket_eq hpacket (by decide)
  refine ⟨hreads _ zeroed hpacket, ?_, ?_⟩
  · obtain ⟨-, -, -, -, hresponse⟩ := hreply (fun _ => true) (some ⟨2, [3, 4]⟩)
    have hsent := hresponse ⟨2, [3, 4]⟩ rfl (by decide)
    rw [if_pos ⟨rfl, rfl⟩] at hsent
    exact hsent
  · obtain ⟨-, -, -, -, hresponse⟩ := hreply (fun _ => false) (some ⟨2, [3, 4]⟩)
    have hsent := hresponse ⟨2, [3, 4]⟩ rfl (by decide)
    rw [if_neg (by simp)] at hsent
    exact hsent

end Cmsg.Rpc
