import Cmsg.Server.Ordering
import Cmsg.Server.Replies

/-! # The requests that packets lead to

A packet leads to at most one request, and that depends on its bytes alone. A
request calls an implementation at most once, at once or from the queue, so the
calls of one method are bounded by the packets with requests of it. -/
namespace Cmsg.Server
open Cmsg.Base Cmsg.Base.Runs Cmsg.Wire

variable {Msg : Type} {svc : Service Msg}

/-! ## From a packet to a request -/

/-- The request that `cmsg_server_message_processor` hands on. -/
def processorRequest (svc : Service Msg) (calloc : Nat → Bool) (header : Header) (m : Memory)
    (bufferData : Nat) (request : TlvRequest) : Option (Request svc) :=
  if header.msgType = .methodReq then
    if h : request.methodIndex < svc.nMethods then
      ((svc.methods.get ⟨_, h⟩).unpack (slice m bufferData header.messageLength)).map
        fun message => ⟨⟨_, h⟩, request.methodNameRecvd, message, calloc⟩
    else none
  else none

/-- The request that `cmsg_server_recv_process` hands on. -/
def processedRequest (svc : Service Msg) (calloc : Nat → Bool) (header : Header) (m : Memory)
    (nbytes : Nat) : Option (Request svc) :=
  let tlv := tlvHeaderProcess svc.getMethodIndexByName m headerSize header.extraHeaderSize .init
  if tlv.ret = .ok ∧
      (header.messageLength = 0 ∨ toInt32 (wrap32 nbytes) = toInt32 header.dynLen) then
    processorRequest svc calloc header m (headerSize + header.extraHeaderSize) tlv.request
  else none

/-- The request that `cmsg_server_receive` hands on. -/
def receivedRequest (svc : Service Msg) (c : Connection) : Option (Request svc) :=
  if c.stream.length < headerSize then none
  else match headerProcess (ofBytes c.stream c.stale) with
    | none => none
    | some header =>
      if recvBufferSize < header.dynLen ∧ c.calloc header.dynLen = false then none
      else
        let nbytes := recvCount c.stream header.dynLen
        if 0 < toInt32 (wrap32 nbytes) then
          processedRequest svc c.calloc header (ofBytes (c.stream.take nbytes) c.stale) nbytes
        else none

/-- The request is handled; without one nothing is invoked and nothing changes. -/
def Handles (s state : State svc) (events : List (Event Msg)) : Option (Request svc) → Prop
  | some r => state = (serverStep s (.receive r)).1 ∧ events = (serverStep s (.receive r)).2
  | none => state = s ∧ invocations events = []

theorem invocations_serverSend (s : State svc) (reply : Reply) :
    invocations (serverSend s reply) = [] := by
  unfold serverSend
  split
  · rfl
  · rfl

theorem messageProcessor_request (s : State svc) (calloc : Nat → Bool) (header : Header)
    (m : Memory) (bufferData : Nat) (request : TlvRequest) :
    let p := messageProcessor s calloc header m bufferData request
    Handles s p.state p.events (processorRequest svc calloc header m bufferData request) := by
  intro p
  by_cases htype : header.msgType = .methodReq
  · have hp : p = methodReqMessageProcessor s calloc m bufferData header.messageLength request := by
      unfold p messageProcessor
      rw [htype]
    rw [hp, processorRequest, if_pos htype]
    unfold methodReqMessageProcessor
    split
    · next hlt =>
      dsimp only
      cases (svc.methods.get ⟨_, hlt⟩).unpack (slice m bufferData header.messageLength) with
      | none => exact ⟨rfl, rfl⟩
      | some message => exact ⟨rfl, rfl⟩
    · exact ⟨rfl, rfl⟩
  · rw [processorRequest, if_neg htype]
    unfold p messageProcessor
    cases hother : header.msgType with
    | methodReq => exact absurd hother htype
    | echoReq => exact ⟨rfl, invocations_serverSend s echoReply⟩
    | connOpen | methodReply | echoReply => exact ⟨rfl, rfl⟩

theorem serverRecvProcess_request (s : State svc) (calloc : Nat → Bool) (header : Header)
    (m : Memory) (nbytes : Nat) :
    let p := serverRecvProcess s calloc header m nbytes
    Handles s p.state p.events (processedRequest svc calloc header m nbytes) := by
  intro p
  unfold p serverRecvProcess processedRequest
  dsimp only
  split
  · next hok =>
    split
    · next hlength =>
      rw [if_pos ⟨hok, hlength⟩]
      exact messageProcessor_request s calloc header m _ _
    · next hlength =>
      rw [if_neg fun h => hlength h.2]
      exact ⟨rfl, rfl⟩
  · next hret =>
    rw [if_neg (show ¬ (_ ∧ _) from fun h => hret h.1)]
    refine ⟨rfl, ?_⟩
    dsimp only
    split
    · exact invocations_serverSend s _
    · rfl

theorem serverReceive_request (s : State svc) (c : Connection) :
    let p := serverReceive s c
    Handles s p.state p.events (receivedRequest svc c) := by
  intro p
  unfold p serverReceive receivedRequest
  split
  · exact ⟨rfl, rfl⟩
  · cases headerProcess (ofBytes c.stream c.stale) with
    | none => exact ⟨rfl, rfl⟩
    | some header =>
      dsimp only
      split
      · exact ⟨rfl, rfl⟩
      · split
        · exact serverRecvProcess_request s c.calloc header _ _
        · exact ⟨rfl, rfl⟩

/-- A request comes from a header and a TLV header that names its method. -/
theorem receivedRequest_eq_some {c : Connection} {r : Request svc}
    (h : receivedRequest svc c = some r) :
    headerSize ≤ c.stream.length ∧ ∀ header, headerProcess (ofBytes c.stream c.stale) = some header →
      let nbytes := recvCount c.stream header.dynLen
      let m := ofBytes (c.stream.take nbytes) c.stale
      let tlv := tlvHeaderProcess svc.getMethodIndexByName m headerSize header.extraHeaderSize .init
      tlv.ret = .ok ∧ tlv.request.methodIndex = r.methodIndex ∧
        (header.messageLength = 0 ∨ toInt32 (wrap32 nbytes) = toInt32 header.dynLen) ∧
        (svc.methods.get r.methodIndex).unpack
          (slice m (headerSize + header.extraHeaderSize) header.messageLength) = some r.message := by
  unfold receivedRequest at h
  split at h
  · cases h
  · next hlong =>
    refine ⟨Nat.le_of_not_lt hlong, ?_⟩
    intro header hp
    rw [hp] at h
    dsimp only at h ⊢
    split at h
    · cases h
    · split at h
      · unfold processedRequest at h
        dsimp only at h
        split at h
        · next hok =>
          unfold processorRequest at h
          split at h
          · split at h
            · next hlt =>
              obtain ⟨message, hunpack, rfl⟩ := Option.map_eq_some_iff.mp h
              exact ⟨hok.1, rfl, hok.2, hunpack⟩
            · cases h
          · cases h
        · cases h
      · cases h

/-! ## Counting calls -/

/-- A message of method `i` reaches its implementation. -/
def callable (svc : Service Msg) (i : Fin svc.nMethods) (message : Msg) : Bool :=
  (svc.methods.get i).implFunc.isSome &&
    match (svc.methods.get i).validationFunc with
    | none => true
    | some validationFunc =>
      match validationFunc message with
      | .valid => true
      | .invalid _ => false

theorem invocations_serverInvokeImpl_eq (i : Fin svc.nMethods) (message : Msg)
    {closure : Option Response → List (Event Msg)} (hc : ∀ r, invocations (closure r) = []) :
    invocations (serverInvokeImpl svc i message closure) =
      if callable svc i message then [(i.val, message)] else [] := by
  have hinvoked : ∀ response, invocations (.invoked i.val message :: closure response) =
      (i.val, message) :: invocations (closure response) := fun _ => rfl
  have himpl : ∀ (implFunc : Option (Msg → Option Response)) (events : List (Event Msg)),
      (implFunc = none → events = []) →
      (∀ f, implFunc = some f → events = .invoked i.val message :: closure (f message)) →
      invocations events = if implFunc.isSome then [(i.val, message)] else [] := by
    intro implFunc events hnone hsome
    cases implFunc with
    | none =>
      rw [hnone rfl]
      rfl
    | some f =>
      rw [hsome f rfl, hinvoked, hc]
      rfl
  cases hv : (svc.methods.get i).validationFunc with
  | none =>
    simp only [serverInvokeImpl, callable, hv, Bool.and_true]
    exact himpl _ _ (fun h => by rw [h]) fun f h => by rw [h]
  | some validationFunc =>
    cases hvalid : validationFunc message with
    | valid =>
      simp only [serverInvokeImpl, callable, hv, hvalid, Bool.and_true]
      exact himpl _ _ (fun h => by rw [h]) fun f h => by rw [h]
    | invalid response =>
      simp only [serverInvokeImpl, callable, hv, hvalid, Bool.and_false, hc]
      rfl

section
variable (i : Fin svc.nMethods)

/-- The calls of the implementation of method `i`. -/
def callsOf (calls : List (Nat × Msg)) : Nat := calls.countP fun call => call.1 == i.val

/-- A call of method `i` that will reach its implementation. -/
def pendingCall (methodIndex : Fin svc.nMethods) (message : Msg) : Bool :=
  methodIndex == i && callable svc methodIndex message

/-- The calls of method `i` that wait in the queue. -/
def State.queuedOf (s : State svc) : Nat :=
  s.queue.countP fun e => pendingCall i e.methodIndex e.message

theorem callsOf_append (xs ys : List (Nat × Msg)) :
    callsOf i (xs ++ ys) = callsOf i xs + callsOf i ys := List.countP_append

theorem callsOf_serverInvokeImpl (j : Fin svc.nMethods) (message : Msg)
    {closure : Option Response → List (Event Msg)} (hc : ∀ r, invocations (closure r) = []) :
    callsOf i (invocations (serverInvokeImpl svc j message closure)) =
      if pendingCall i j message then 1 else 0 := by
  rw [invocations_serverInvokeImpl_eq j message hc, pendingCall]
  cases callable svc j message with
  | false =>
    rw [Bool.and_false]
    rfl
  | true =>
    rw [Bool.and_true, if_pos rfl, callsOf, List.countP_singleton]
    by_cases hj : j = i
    · simp [hj]
    · have hval : j.val ≠ i.val := fun h => hj (Fin.ext h)
      simp [hj, hval]

theorem callsOf_invokeEntries (queue : List (QueueEntry svc)) :
    callsOf i (invocations (invokeEntries queue)) =
      queue.countP fun e => pendingCall i e.methodIndex e.message := by
  induction queue with
  | nil => rfl
  | cons e queue ih =>
    rw [invokeEntries, List.flatMap_cons, invocations_append, callsOf_append,
      callsOf_serverInvokeImpl i e.methodIndex e.message fun _ => rfl, List.countP_cons, Nat.add_comm,
      ← ih]
    rfl

/-- A request calls the implementation of its method at most once, now or later. -/
theorem callsOf_receive (s : State svc) (r : Request svc) :
    callsOf i (invocations (serverStep s (.receive r)).2) +
      (serverStep s (.receive r)).1.queuedOf i ≤
        s.queuedOf i + if pendingCall i r.methodIndex r.message then 1 else 0 := by
  have hnothing : callsOf i [] = 0 := rfl
  rw [receive_state, receive_events]
  cases queueFilterLookup s.filters r.methodName with
  | error =>
    rw [if_neg (by simp)]
    show callsOf i [] + _ ≤ _
    omega
  | drop =>
    rw [if_neg (by simp), invocations_closure]
    omega
  | process =>
    rw [if_neg (by simp), callsOf_serverInvokeImpl i r.methodIndex r.message
      (invocations_closure s .okToInvoke r.methodNameRecvd r.calloc)]
    omega
  | queue =>
    rw [if_pos rfl, invocations_closure]
    unfold receiveQueuePush
    split
    · rw [State.queuedOf, List.countP_append, List.countP_singleton, ← State.queuedOf]
      exact Nat.le_of_eq (Nat.zero_add _)
    · omega

/-- A call of the application invokes what was queued. -/
theorem callsOf_call (s : State svc) {op : Op svc} (hop : ∀ r, op ≠ .receive r) :
    callsOf i (invocations (serverStep s op).2) + (serverStep s op).1.queuedOf i = s.queuedOf i := by
  obtain ⟨k, hqueue, hevents⟩ := serverStep_takes s op hop
  rw [State.queuedOf, State.queuedOf, hqueue, hevents, callsOf_invokeEntries, ← List.countP_append,
    List.take_append_drop]

/-- Whether a packet has a request that will reach the implementation of method `i`. -/
def Connection.requests (c : Connection) : Bool :=
  (receivedRequest svc c).any fun r => pendingCall i r.methodIndex r.message

theorem Connection.requests_iff {c : Connection} : c.requests i = true ↔
    ∃ r, receivedRequest svc c = some r ∧ r.methodIndex = i ∧
      callable svc r.methodIndex r.message = true := by
  unfold Connection.requests pendingCall
  cases receivedRequest svc c with
  | none => simp
  | some r => simp

/-- The packets with such requests, counted. -/
def requestsOf (inputs : List (Input svc)) : Nat :=
  inputs.countP fun
    | .packet _ c => c.requests i
    | .call _ => false

theorem callsOf_packet (s : State svc) (c : Connection) :
    callsOf i (invocations (serverReceive s c).events) + (serverReceive s c).state.queuedOf i ≤
      s.queuedOf i + if c.requests i then 1 else 0 := by
  have hr := serverReceive_request s c
  unfold Connection.requests
  cases hreq : receivedRequest svc c with
  | none =>
    rw [hreq] at hr
    rw [hr.1, hr.2]
    exact Nat.le_of_eq (Nat.zero_add _)
  | some r =>
    rw [hreq] at hr
    rw [hr.1, hr.2]
    exact callsOf_receive i s r

end

/-- **Calls are bounded by requests**, all along a run. -/
theorem callsOf_run (i : Fin svc.nMethods) {s t : State svc} {inputs : List (Input svc)}
    {outputs : List (Option Nat × Event Msg)} (he : exec socketStep s inputs = some (t, outputs)) :
    callsOf i (invocations (outputs.map (·.2))) + t.queuedOf i ≤
      s.queuedOf i + requestsOf i inputs := by
  have hnothing : callsOf i [] = 0 := rfl
  refine exec_track (R := fun t inputs outputs => callsOf i (invocations (outputs.map (·.2))) +
    t.queuedOf i ≤ s.queuedOf i + requestsOf i inputs) ?_ (Nat.le_of_eq (Nat.add_comm _ _)) he
  intro t inputs outputs input t' o hR hs
  have hrequests : requestsOf i (inputs ++ [input]) = requestsOf i inputs + requestsOf i [input] :=
    List.countP_append
  have hevents : ∀ (tag : Option Nat) (events : List (Event Msg)),
      (events.map fun event => (tag, event)).map (·.2) = events := by
    intro tag events
    rw [List.map_map]
    exact List.map_id events
  rw [List.map_append, invocations_append, callsOf_append, hrequests]
  cases input with
  | packet socket c =>
    obtain ⟨rfl, rfl⟩ := Prod.mk.inj (Option.some.inj hs)
    have hpacket := callsOf_packet i t c
    have hone : requestsOf i [.packet socket c] = if c.requests i then 1 else 0 :=
      List.countP_singleton
    rw [hevents, hone]
    omega
  | call op =>
    obtain ⟨hop, rfl, rfl⟩ := socketStep_call hs
    have hcall := callsOf_call i t hop
    rw [hevents]
    omega

end Cmsg.Server
