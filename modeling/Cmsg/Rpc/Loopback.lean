import Cmsg.Rpc.AtMostOnce
import Cmsg.Rpc.Encryption

/-! # Loopback calls

A loopback client calls the implementation in its own process, and reads the reply
from the buffer in which `cmsg_transport_loopback_server_send` leaves it. A call over
a stream takes the whole way through `cmsg_client_create_packet`,
`cmsg_server_receive` and `cmsg_transport_client_recv`. The two ways end alike, but
for the name of the method, which only the second checks before it copies it. -/
namespace Cmsg.Rpc
open Cmsg.Base Cmsg.Wire Cmsg.Client Cmsg.Server

variable {Msg : Type} {svc : Service Msg}

/-! ## The loopback transport -/

/-- `cmsg_loopback_recv_buffer`, whose `len` is the length of `msg`. -/
structure LoopbackRecvBuffer where
  msg : List UInt8
  pos : Nat
deriving DecidableEq

/-- `cmsg_transport_loopback_server_send`, undefined for a packet whose length is no
`int`: a negative number of bytes is allocated and copied. -/
def loopbackServerSend (buff : List UInt8) : Option LoopbackRecvBuffer :=
  if buff.length < 2 ^ 31 then some ⟨buff, 0⟩ else none

/-- `cmsg_transport_loopback_recv_handler`, with the bytes that it copies; undefined
where it copies a negative number of them. -/
def loopbackRecvHandler (buffer : LoopbackRecvBuffer) (len : Nat) (peek : Bool) :
    Option (Int × List UInt8 × LoopbackRecvBuffer) :=
  if buffer.msg.length ≤ buffer.pos then some (-1, [], buffer)
  else
    let len :=
      if buffer.msg.length < wrap32 (buffer.pos + len) then buffer.msg.length - buffer.pos else len
    if len < 2 ^ 31 then
      some (len, (buffer.msg.drop buffer.pos).take len,
        if peek then buffer else { buffer with pos := buffer.pos + len })
    else none

/-- `cmsg_transport_peek_for_header`. What is in the buffer stays the same, so a header
that is not there as a whole leads to a timeout; where nothing is there the function
looks at an `errno` that nobody set. -/
def loopbackPeekForHeader (buffer : LoopbackRecvBuffer) : Option PeekCode :=
  (loopbackRecvHandler buffer headerSize true).bind fun (nbytes, _, _) =>
    if nbytes = headerSize then some .success
    else if nbytes = 0 then some .connectionClosed
    else if nbytes = -1 then none
    else some .timeout

/-- `cmsg_transport_client_recv` with this handler, where allocations succeed. -/
def loopbackTransportRecv (d : Descriptor Msg) (buffer : LoopbackRecvBuffer) :
    Option (Received Msg) :=
  (loopbackPeekForHeader buffer).bind fun peekCode =>
    if peekCode ≠ .success then some (.withoutMessage (peekToStatusCode peekCode))
    else (loopbackRecvHandler buffer headerSize false).bind fun (nbytes, bytes, buffer) =>
      if nbytes = headerSize then
        match headerProcess (ofBytes bytes zeroed) with
        | none => some (.withoutMessage .serviceFailed)
        | some header =>
          let dynLen := bodyLen header
          if dynLen = 0 then some (.withoutMessage header.statusCode)
          else (loopbackRecvHandler buffer dynLen false).map fun (nbytes, body, _) =>
            if nbytes = toInt32 dynLen then receiveBody d header body
            else .withoutMessage .serviceFailed
      else some (.withoutMessage .serviceFailed)

/-- `cmsg_transport_loopback_client_recv`, which frees what `user_data` points to. -/
def loopbackClientRecv (d : Descriptor Msg) :
    Option LoopbackRecvBuffer → Option (Received Msg × Option LoopbackRecvBuffer)
  | none => none
  | some buffer => (loopbackTransportRecv d buffer).map fun received => (received, none)

/-- `cmsg_server_invoke_direct`, on the server of `cmsg_create_client_loopback`: what its
replies leave in `user_data`. The name is copied without a look at its length. -/
def serverInvokeDirect (userData : Option LoopbackRecvBuffer) (methodIndex : Fin svc.nMethods)
    (input : Msg) : Option (Option LoopbackRecvBuffer) :=
  let methodName := (svc.methods.get methodIndex).name
  if maxNameLength < methodName.length + 1 then none
  else
    let request : Request svc := ⟨methodIndex, methodName, input, fun _ => true⟩
    (replies (serverInvoke (serverCreate svc true) request .okToInvoke).2).foldlM
      (fun _ reply => (loopbackServerSend (replyPacket reply)).map some) userData

/-- `cmsg_client_invoke` of a loopback client, with `user_data` before and after it. -/
def loopbackInvoke (d : Descriptor Msg) (userData : Option LoopbackRecvBuffer)
    (methodIndex : Fin svc.nMethods) (input : Msg) :
    Option (Invoked Msg × Option LoopbackRecvBuffer) :=
  (serverInvokeDirect userData methodIndex input).bind fun userData =>
    (loopbackClientRecv d userData).map fun (received, userData) =>
      let invoked := invokeRecv d received
      (invoked, if invoked.closed then none else userData)

/-! ## The stream transport -/

/-- An attempt that does not fail. -/
def wholeAttempt : Attempt := ⟨true, none⟩

/-- `cmsg_client_invoke` of a client without queue filters over a stream, where nothing
fails: `packed` is the packed input. A packet whose length is no `int` cannot be sent
without a failure, and so there is no such call. -/
def rpcInvoke (s : State svc) (d : Descriptor Msg) (state : ClientState)
    (methodIndex : Fin svc.nMethods) (packed : List UInt8) : Option (Invoked Msg) :=
  let methodName := (svc.methods.get methodIndex).name
  if headerSize + tlvSize (methodName.length + 1) + packed.length < 2 ^ 31 then
    match createPacket (fun _ => true) methodName ⟨packed.length, packed⟩ with
    | none => some ⟨.err, none, false⟩
    | some packet =>
      match (bufferSendRetryOnce state wholeAttempt wholeAttempt packet).1 with
      | .ok =>
        let r := serverReceive s (plainConnection packet)
        match replies r.events with
        | reply :: _ =>
          if (replyPacket reply).length < 2 ^ 31 then
            some (invokeRecv d (clientRecv d (.complete (replyPacket reply)
              (headerSize_le_length_replyPacket reply))).1)
          else none
        -- the poll loop closes the socket, or the client is left waiting
        | [] =>
          if r.ret.toInt < 0 then
            some (invokeRecv d (.withoutMessage (peekToStatusCode .connectionClosed)))
          else none
      | ret => some ⟨ret, none, false⟩
  else none

/-- **What is claimed** of a call: whatever state the stream client is in, and whatever
an earlier call left behind, the loopback call ends as the call over the stream does. -/
def LoopbackMatches (s : State svc) (d : Descriptor Msg) (methodIndex : Fin svc.nMethods)
    (input : Msg) (packed : List UInt8) : Prop :=
  ∀ state invoked, rpcInvoke s d state methodIndex packed = some invoked →
    ∀ userData, loopbackInvoke d userData methodIndex input = some (invoked, none)

/-! ## Reading from the buffer -/

/-- What is asked for is there. -/
theorem loopbackRecvHandler_of_le {buffer : LoopbackRecvBuffer} {len : Nat}
    (hlt : buffer.msg.length < 2 ^ 31) (hpos : 0 < len) (hle : buffer.pos + len ≤ buffer.msg.length)
    (peek : Bool) :
    loopbackRecvHandler buffer len peek = some ((len : Int), (buffer.msg.drop buffer.pos).take len,
      if peek then buffer else { buffer with pos := buffer.pos + len }) := by
  have hword : 2 ^ 31 < word32 := by decide
  have hwrap : wrap32 (buffer.pos + len) = buffer.pos + len := wrap32_of_lt (by omega)
  have hsome : ¬ buffer.msg.length ≤ buffer.pos := by omega
  have hall : ¬ buffer.msg.length < buffer.pos + len := by omega
  have hint : len < 2 ^ 31 := by omega
  unfold loopbackRecvHandler
  dsimp only
  rw [if_neg hsome, hwrap, if_neg hall, if_pos hint]

/-- The buffer is read as a stream with the same bytes is. -/
theorem loopbackTransportRecv_eq (d : Descriptor Msg) {bytes : List UInt8}
    (hlong : headerSize ≤ bytes.length) (hlt : bytes.length < 2 ^ 31)
    (hbody : ∀ header, headerProcess (ofBytes bytes zeroed) = some header →
      headerSize + bodyLen header ≤ bytes.length) :
    loopbackTransportRecv d ⟨bytes, 0⟩ = some (clientRecv d (.complete bytes hlong)).1 := by
  have hheader : 0 < headerSize := by decide
  have hread := @loopbackRecvHandler_of_le ⟨bytes, 0⟩ headerSize hlt hheader
    (show 0 + headerSize ≤ bytes.length by omega)
  have hpeek : loopbackPeekForHeader ⟨bytes, 0⟩ = some .success := by
    unfold loopbackPeekForHeader
    rw [hread]
    rfl
  have hfront : headerProcess (ofBytes (bytes.take headerSize) zeroed) =
      headerProcess (ofBytes bytes zeroed) := by
    refine headerProcess_congr fun p hp => ?_
    rw [ofBytes, ofBytes, List.getElem?_take_of_lt hp]
  unfold loopbackTransportRecv
  rw [hpeek, Option.bind_some, if_neg (by simp), hread, Option.bind_some]
  dsimp only
  rw [if_pos rfl, List.drop_zero, hfront]
  cases hp : headerProcess (ofBytes bytes zeroed) with
  | none =>
    have hstream : (Arrival.complete bytes hlong).stream = bytes := rfl
    unfold clientRecv
    rw [if_neg (show ¬ (Arrival.complete bytes hlong).peekCode ≠ .success from fun h => h rfl),
      show (Arrival.complete bytes hlong).headerErrno = none from rfl, hstream, hp]
  | some header =>
    dsimp only
    rw [clientRecv_complete d hlong hp]
    by_cases h0 : bodyLen header = 0
    · rw [if_pos h0, receiveAnnounced_empty d _ h0]
    · have hannounced := hbody header hp
      have hrest := @loopbackRecvHandler_of_le ⟨bytes, 0 + headerSize⟩ _ hlt (Nat.pos_of_ne_zero h0)
        (show 0 + headerSize + bodyLen header ≤ bytes.length by omega) false
      rw [if_neg h0, receiveAnnounced_complete d hlong h0 (by omega) hannounced,
        if_neg (by simp), hrest, Option.map_some]
      dsimp only
      rw [if_pos (toInt32_of_lt (by omega)).symm, Nat.zero_add]

theorem closureRpc_known {reason : ProcessingReason} {name : CString} {calloc : Nat → Bool}
    {response : Option Response} {reply : Reply}
    (h : reply ∈ closureRpc reason name calloc response) : reply.statusCode.Known := by
  rcases closureRpc_cases h with ⟨status, hs, rfl⟩ | ⟨packed, rfl⟩
  · exact hs
  · intro word
    simp

/-! ## The reply of an invocation -/

/-- The closure of a two-way server sends what `closureRpc` says. -/
theorem replies_closure_eq {s : State svc} (hs : s.rpc = true) (reason : ProcessingReason)
    (name : CString) (calloc : Nat → Bool) (response : Option Response) :
    replies (Server.closure s reason name calloc response) =
      closureRpc reason name calloc response := by
  rw [Server.closure, if_pos hs, replies, List.filterMap_map]
  exact List.filterMap_some

/-- An implementation, or the validation before it, sends one reply. -/
theorem replies_invokeImpl {s : State svc} (hs : s.rpc = true) {i : Fin svc.nMethods} {input : Msg}
    (himpl : Implemented svc i input) (name : CString) (calloc : Nat → Bool) :
    ∃ reply response, reply ∈ closureRpc .okToInvoke name calloc response ∧
      replies (serverInvokeImpl svc i input (Server.closure s .okToInvoke name calloc)) = [reply] := by
  have hclosure := replies_closure_eq hs .okToInvoke name calloc
  obtain ⟨hone, _⟩ := replies_serverInvokeImpl i input
    fun response => @replies_closure _ _ s hs .okToInvoke (by simp) name calloc response
  obtain ⟨reply, hreply⟩ := List.length_eq_one_iff.mp (hone himpl)
  have hmem : reply ∈
      replies (serverInvokeImpl svc i input (Server.closure s .okToInvoke name calloc)) := by
    rw [hreply]
    exact List.mem_singleton.mpr rfl
  rcases serverInvokeImpl_cases svc i input (Server.closure s .okToInvoke name calloc) with
    ⟨response, he⟩ | he | ⟨response, he⟩
  · rw [he, hclosure] at hmem
    exact ⟨reply, response, hmem, hreply⟩
  · rw [he] at hmem
    cases hmem
  · rw [he] at hmem
    have hsent : replies (.invoked i input :: Server.closure s .okToInvoke name calloc response) =
        replies (Server.closure s .okToInvoke name calloc response) := rfl
    rw [hsent, hclosure] at hmem
    exact ⟨reply, response, hmem, hreply⟩

/-! ## The way over the stream -/

/-- The packet of an input that fits is created. -/
theorem createPacket_whole (name : CString) {packed : List UInt8}
    (hsize : headerSize + tlvSize (name.length + 1) + packed.length < word32) :
    createPacket (fun _ => true) name ⟨packed.length, packed⟩ =
      some (methodPacket .methodReq .unset name packed) := by
  cases hc : createPacket (fun _ => true) name ⟨packed.length, packed⟩ with
  | none =>
    unfold createPacket at hc
    simp at hc
  | some packet => rw [createPacket_eq hc hsize]

theorem bufferSendRetryOnce_whole (state : ClientState) (packet : List UInt8) :
    (bufferSendRetryOnce state wholeAttempt wholeAttempt packet).1 = .ok := by
  have hconnects : (clientConnect state wholeAttempt.connects).1 = .connected := by
    unfold clientConnect
    split
    · next h => exact h
    · rfl
  unfold bufferSendRetryOnce
  dsimp only
  rw [hconnects, if_neg (by simp)]
  have hwhole : (clientTransportSend wholeAttempt.cut packet).1 = toInt32 packet.length := rfl
  rw [hwhole, if_neg (Int.lt_irrefl _)]

/-- A packet that fits is received and processed as a whole. -/
theorem serverReceive_methodPacket (s : State svc) (name : CString) (packed : List UInt8)
    (hsize : headerSize + tlvSize (name.length + 1) + packed.length < 2 ^ 31) :
    let packet := methodPacket .methodReq .unset name packed
    ∃ header, headerProcess (ofBytes packet zeroed) = some header ∧
      header.Announces .methodReq .unset name packed.length ∧ header.dynLen = packet.length ∧
      serverReceive s (plainConnection packet) = serverRecvProcess s (fun _ => true) header
        (ofBytes packet zeroed) packet.length := by
  intro packet
  have hword := lt_word32 hsize
  have hlength : packet.length = headerSize + tlvSize (name.length + 1) + packed.length :=
    length_methodPacket _ _ _ _
  obtain ⟨header, hp, hannounces⟩ := headerProcess_methodPacket
    (holds_ofBytes packet zeroed) (by intro word; simp) hword
  have hdyn : header.dynLen = packet.length := (hannounces.dynLen_eq hword).trans hlength.symm
  have hpos : 0 < headerSize := by decide
  refine ⟨header, hp, hannounces, hdyn, ?_⟩
  rw [serverReceive_plain (by omega) (by omega) hp, if_neg (by omega), hdyn, Nat.min_self,
    List.take_length]

/-- A name that is too long for `method_name_recvd` is refused. -/
theorem tlvHeaderProcess_long {lookup : CString → Nat} {m : Memory} {buf : Nat} {name : CString}
    (hm : Holds m buf (methodTlv name)) (hlong : maxNameLength ≤ name.length)
    (hsize : tlvSize (name.length + 1) < word32) (request : TlvRequest) :
    tlvHeaderProcess lookup m buf (tlvSize (name.length + 1)) request =
      ⟨.err, request, span buf 8⟩ := by
  obtain ⟨htype, hm⟩ := hm.append
  obtain ⟨hlength, _⟩ := hm.append
  have htlv : tlvSize (name.length + 1) = 8 + (name.length + 1) := rfl
  have htype' : be32 m buf = tlvMethodType := htype.be32_of_lt (by decide)
  have hlength' : be32 m (buf + 4) = name.length + 1 := hlength.be32_of_lt (by omega)
  have hmethod : tlvMethod lookup m buf (name.length + 1) request = ⟨.err, request, []⟩ := by
    unfold tlvMethod
    exact if_pos (.inr (by omega))
  unfold tlvHeaderProcess
  rw [htlv, if_neg (show ¬ 8 + (name.length + 1) = 0 by omega)]
  unfold tlvLoop
  rw [if_pos (show tlvSize 0 ≤ 8 + (name.length + 1) from Nat.le_add_right _ _)]
  dsimp only
  rw [hlength', wrap32_of_lt hsize, htlv, if_pos (Nat.le_refl _), if_pos htype', hmethod]
  simp only [List.append_nil]

section
variable {s : State svc} {i : Fin svc.nMethods} {packed : List UInt8}

/-- A request whose name is too long gets no reply, and its socket is closed. -/
theorem serverReceive_long_name (hlong : maxNameLength ≤ (svc.methods.get i).name.length)
    (hsize : headerSize + tlvSize ((svc.methods.get i).name.length + 1) + packed.length < 2 ^ 31) :
    let r := serverReceive s
      (plainConnection (methodPacket .methodReq .unset (svc.methods.get i).name packed))
    r.events = [] ∧ r.ret = .err := by
  intro r
  obtain ⟨header, _, hannounces, _, hreceive⟩ := serverReceive_methodPacket s _ _ hsize
  have hword : 2 ^ 31 < word32 := by decide
  have hm := holds_ofBytes
    (methodPacket .methodReq .unset (svc.methods.get i).name packed) zeroed
  rw [methodPacket_eq] at hm
  have htlv := hm.append.2.append.1
  rw [length_headerCreate, Nat.zero_add, ← methodPacket_eq] at htlv
  have hrefused := @tlvHeaderProcess_long svc.getMethodIndexByName _ _ _ htlv hlong (by omega) .init
  unfold r
  rw [hreceive]
  unfold serverRecvProcess
  dsimp only
  rw [hannounces.extraHeaderSize_eq, hrefused]
  exact ⟨rfl, rfl⟩

theorem methodReqMessageProcessor_events {calloc : Nat → Bool} {m : Memory} {pos len : Nat}
    {name : CString} {input : Msg}
    (hunpack : (svc.methods.get i).unpack (slice m pos len) = some input) :
    (methodReqMessageProcessor s calloc m pos len ⟨i, name⟩).events =
      (methodReqDispatch s ⟨i, name, input, calloc⟩).2.1 := by
  unfold methodReqMessageProcessor
  rw [dif_pos i.isLt]
  dsimp only
  split
  · next hnone => cases hunpack.symm.trans hnone
  · next message hsome =>
    obtain rfl := Option.some.inj (hunpack.symm.trans hsome)
    rfl

/-- A request of a method is dispatched with its input. -/
theorem serverReceive_request_events (h : svc.Sorted) (hname : MethodName (svc.methods.get i).name)
    (hsize : headerSize + tlvSize ((svc.methods.get i).name.length + 1) + packed.length < 2 ^ 31)
    {input : Msg} (hunpack : (svc.methods.get i).unpack packed = some input) :
    (serverReceive s
        (plainConnection (methodPacket .methodReq .unset (svc.methods.get i).name packed))).events =
      (methodReqDispatch s ⟨i, (svc.methods.get i).name, input, fun _ => true⟩).2.1 := by
  have hword := lt_word32 hsize
  obtain ⟨header, hp, _, hdyn, hreceive⟩ := serverReceive_methodPacket s _ _ hsize
  obtain ⟨header', hp', htype, hok, hrequest, hmessage⟩ :=
    reads_methodPacket h hname (by intro word; simp) hword
      (holds_ofBytes (methodPacket .methodReq .unset (svc.methods.get i).name packed) zeroed)
  obtain rfl := Option.some.inj (hp.symm.trans hp')
  have hlength := length_methodPacket .methodReq .unset (svc.methods.get i).name packed
  have hwhole : toInt32 (wrap32
      (methodPacket .methodReq .unset (svc.methods.get i).name packed).length) =
        toInt32 header.dynLen := by
    rw [hdyn, wrap32_of_lt (by omega)]
  rw [hreceive]
  unfold serverRecvProcess
  simp only [hok, if_pos (Or.inr hwhole), messageProcessor, htype, hrequest]
  refine methodReqMessageProcessor_events ?_
  rw [hmessage]
  exact hunpack

/-! ## Both ways -/

/-- A server without queue filters invokes what it dispatches. -/
theorem methodReqDispatch_process (hfilter : s.filters = queueFilterInit svc.names) (input : Msg)
    (calloc : Nat → Bool) :
    (methodReqDispatch s ⟨i, (svc.methods.get i).name, input, calloc⟩).2.1 =
      serverInvokeImpl svc i input (Server.closure s .okToInvoke (svc.methods.get i).name calloc) := by
  have hprocess : queueFilterLookup s.filters (svc.methods.get i).name = .process := by
    rw [hfilter]
    exact queueFilterLookup_serverCreate i true
  unfold methodReqDispatch
  dsimp only
  rw [hprocess]
  rfl

/-- The call over the stream, where the request fits. -/
theorem rpcInvoke_whole (d : Descriptor Msg) (state : ClientState)
    (hsize : headerSize + tlvSize ((svc.methods.get i).name.length + 1) + packed.length < 2 ^ 31) :
    let r := serverReceive s
      (plainConnection (methodPacket .methodReq .unset (svc.methods.get i).name packed))
    rpcInvoke s d state i packed =
      match replies r.events with
      | reply :: _ =>
        if (replyPacket reply).length < 2 ^ 31 then
          some (invokeRecv d (clientRecv d (.complete (replyPacket reply)
            (headerSize_le_length_replyPacket reply))).1)
        else none
      | [] =>
        if r.ret.toInt < 0 then
          some (invokeRecv d (.withoutMessage (peekToStatusCode .connectionClosed)))
        else none := by
  intro r
  unfold rpcInvoke
  dsimp only
  rw [if_pos hsize, createPacket_whole _ (lt_word32 hsize)]
  dsimp only
  rw [bufferSendRetryOnce_whole]

theorem rpcInvoke_long_name (d : Descriptor Msg) (state : ClientState)
    (hlong : maxNameLength ≤ (svc.methods.get i).name.length)
    (hsize : headerSize + tlvSize ((svc.methods.get i).name.length + 1) + packed.length < 2 ^ 31) :
    rpcInvoke s d state i packed = some ⟨.closed, none, true⟩ := by
  obtain ⟨hevents, hret⟩ := serverReceive_long_name (s := s) hlong hsize
  rw [rpcInvoke_whole d state hsize, hevents, hret]
  rfl

theorem loopbackInvoke_long_name (d : Descriptor Msg)
    (hlong : maxNameLength ≤ (svc.methods.get i).name.length)
    (userData : Option LoopbackRecvBuffer) (input : Msg) :
    loopbackInvoke d userData i input = none := by
  have hdirect : serverInvokeDirect userData i input = none :=
    if_pos (Nat.lt_succ_of_le hlong)
  rw [loopbackInvoke, hdirect]
  rfl

/-- A loopback call whose reply fits ends as the reply makes a stream client end. -/
theorem loopbackInvoke_whole (d : Descriptor Msg) (userData : Option LoopbackRecvBuffer)
    (hshort : (svc.methods.get i).name.length < maxNameLength) {input : Msg} {reply : Reply}
    (hreply : replies (serverInvokeImpl svc i input (Server.closure (serverCreate svc true)
      .okToInvoke (svc.methods.get i).name fun _ => true)) = [reply])
    (hknown : reply.statusCode.Known) (hfits : (replyPacket reply).length < 2 ^ 31) :
    loopbackInvoke d userData i input =
      some (invokeRecv d (clientRecv d (.complete (replyPacket reply)
        (headerSize_le_length_replyPacket reply))).1, none) := by
  have hdirect : serverInvokeDirect userData i input = some (some ⟨replyPacket reply, 0⟩) := by
    unfold serverInvokeDirect
    rw [if_neg (Nat.not_lt.mpr hshort)]
    show (replies (serverInvokeImpl svc i input (Server.closure (serverCreate svc true)
      .okToInvoke (svc.methods.get i).name fun _ => true))).foldlM _ userData = _
    rw [hreply, List.foldlM_cons, loopbackServerSend, if_pos hfits]
    rfl
  have hrecv := loopbackTransportRecv_eq d (headerSize_le_length_replyPacket reply) hfits
    fun header hp => Nat.le_of_eq (bodyLen_replyPacket hknown hfits (holds_ofBytes _ zeroed) hp)
  rw [loopbackInvoke, hdirect, Option.bind_some, loopbackClientRecv, hrecv]
  simp

/-- **Loopback calls** end as calls over a stream do, with the same return code and the
same response, exactly when the name of the method fits into `method_name_recvd` or the
request into no packet. -/
theorem loopback_matches_iff (h : svc.Sorted) (hname : (svc.methods.get i).name ≠ [])
    (hrpc : s.rpc = true) (hfilter : s.filters = queueFilterInit svc.names)
    (d : Descriptor Msg) {input : Msg} (hunpack : (svc.methods.get i).unpack packed = some input)
    (himpl : Implemented svc i input) :
    LoopbackMatches s d i input packed ↔
      (headerSize + tlvSize ((svc.methods.get i).name.length + 1) + packed.length < 2 ^ 31 →
        (svc.methods.get i).name.length < maxNameLength) := by
  constructor
  · intro hmatches hsize
    by_contra hlong
    have hrpc' := rpcInvoke_long_name (s := s) d .init (Nat.le_of_not_lt hlong) hsize
    have hloop := hmatches _ _ hrpc' none
    rw [loopbackInvoke_long_name d (Nat.le_of_not_lt hlong)] at hloop
    cases hloop
  · intro hshort state invoked hinvoked userData
    have hsize : headerSize + tlvSize ((svc.methods.get i).name.length + 1) + packed.length <
        2 ^ 31 := by
      by_contra hlarge
      have hnone : rpcInvoke s d state i packed = none := if_neg hlarge
      rw [hnone] at hinvoked
      cases hinvoked
    have hmethod : MethodName (svc.methods.get i).name :=
      ⟨hname, hshort hsize, svc.name_ne_zero _ (List.get_mem _ _)⟩
    obtain ⟨reply, response, hmem, hreply⟩ :=
      replies_invokeImpl hrpc himpl (svc.methods.get i).name fun _ => true
    rw [rpcInvoke_whole d state hsize, serverReceive_request_events h hmethod hsize hunpack,
      methodReqDispatch_process hfilter, hreply] at hinvoked
    dsimp only at hinvoked
    split at hinvoked
    · next hfits =>
      obtain rfl := Option.some.inj hinvoked
      refine loopbackInvoke_whole d userData (hshort hsize) ?_ (closureRpc_known hmem) hfits
      rw [← hreply]
      unfold Server.closure
      rw [hrpc]
      rfl
    · cases hinvoked

end

/-- A call of the only method of a service, with the empty message for a reply. -/
theorem loopback_matches_sample :
    LoopbackMatches (serverCreate sampleService true) sampleDescriptor ⟨0, by decide⟩ [] [] := by
  refine (loopback_matches_iff sampleService_sorted (by decide) rfl rfl sampleDescriptor rfl (.inl rfl)).mpr ?_
  intro _
  decide

/-! ## A name that is too long -/

def longName : CString := List.replicate maxNameLength 0x61

theorem longName_ne_zero : ∀ m ∈ [(⟨longName, sampleUnpack, none, some fun _ => some ⟨0, []⟩⟩ :
    Method (List UInt8))], ∀ c ∈ m.name, c ≠ 0 := by
  intro m hm c hc
  obtain rfl := List.mem_singleton.mp hm
  rw [List.eq_of_mem_replicate hc]
  decide

def longService : Service (List UInt8) where
  methods := [⟨longName, sampleUnpack, none, some fun _ => some ⟨0, []⟩⟩]
  methodIndicesByName := [0]
  indices_length := sampleService.indices_length
  indices_lt := sampleService.indices_lt
  methods_lt := sampleService.methods_lt
  name_ne_zero := longName_ne_zero

def longMethod : Fin longService.nMethods := ⟨0, longService.indices_lt 0 (.head _)⟩

def longDescriptor : Descriptor (List UInt8) :=
  { sampleDescriptor with getMethodIndexByName := longService.getMethodIndexByName }

/-- Over the stream the server closes the connection; the loopback client copies the name
past the end of its buffer. -/
theorem loopback_name_overrun :
    (longService.methods.get longMethod).unpack [] = some [] ∧
      Implemented longService longMethod [] ∧
      rpcInvoke (serverCreate longService true) longDescriptor .init longMethod [] =
        some ⟨.closed, none, true⟩ ∧
      loopbackInvoke longDescriptor none longMethod [] = none ∧
      ¬ LoopbackMatches (serverCreate longService true) longDescriptor longMethod [] [] := by
  have hlength : (longService.methods.get longMethod).name.length = maxNameLength :=
    List.length_replicate
  have hsize : headerSize + tlvSize ((longService.methods.get longMethod).name.length + 1) +
      ([] : List UInt8).length < 2 ^ 31 := by
    rw [hlength]
    decide
  have hrpc := @rpcInvoke_long_name _ _ (serverCreate longService true) longMethod []
    longDescriptor .init (Nat.le_of_eq hlength.symm) hsize
  have hloop := loopbackInvoke_long_name longDescriptor (Nat.le_of_eq hlength.symm) none []
  refine ⟨rfl, .inl rfl, hrpc, hloop, fun hmatches => ?_⟩
  have hmatch := hmatches _ _ hrpc none
  rw [hloop] at hmatch
  cases hmatch

end Cmsg.Rpc
