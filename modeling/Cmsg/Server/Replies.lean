import Cmsg.Server.ReceiveSafety

/-! # One reply for every request

Packets arrive on numbered sockets, between calls of the application. The poll
loop closes a socket when `cmsg_server_receive` returns a negative value; what
the message processor returns never gets that far. -/
namespace Cmsg.Server
open Cmsg.Base Cmsg.Base.Runs Cmsg.Wire

variable {Msg : Type} {svc : Service Msg}

/-! ## Packets and calls -/

inductive Input (svc : Service Msg)
  | packet (socket : Nat) (c : Connection)
  | call (op : Op svc)

/-- The server with its sockets. An output carries the socket of the packet that
it is due to; requests arrive in packets only. -/
def socketStep : Machine (State svc) (Input svc) (Option Nat × Event Msg)
  | s, .packet socket c =>
    let r := serverReceive s c
    some (r.state, r.events.map fun event => (some socket, event))
  | _, .call (.receive _) => none
  | s, .call op =>
    let r := serverStep s op
    some (r.1, r.2.map fun event => (none, event))

/-- A call is a step of the server, of which no output is due to a socket. -/
theorem socketStep_call {s s' : State svc} {op : Op svc} {o : List (Option Nat × Event Msg)}
    (h : socketStep s (.call op) = some (s', o)) :
    (∀ r, op ≠ .receive r) ∧ s' = (serverStep s op).1 ∧
      o = (serverStep s op).2.map fun event => (none, event) := by
  cases op with
  | receive r => cases h
  | _ =>
    obtain ⟨rfl, rfl⟩ := Prod.mk.inj (Option.some.inj h)
    exact ⟨fun _ hop => (by cases hop), rfl, rfl⟩

/-- The replies among some events. -/
def replies (events : List (Event Msg)) : List Reply :=
  events.filterMap fun
    | .sent reply => some reply
    | .invoked _ _ => none

/-- The replies that may go to a socket: those due to its packets, and any that a
call of the application sends. -/
def repliesOn (socket : Nat) (outputs : List (Option Nat × Event Msg)) : List Reply :=
  replies ((outputs.filter fun o => o.1 == some socket || o.1 == none).map (·.2))

/-- What `cmsg_server_receive` returned makes the poll loop close the socket. -/
def Reception.Closes (r : Reception svc) : Prop := r.ret.toInt < 0

/-- Exactly one reply, or at most one and the socket is closed. -/
def AnsweredOnce (socket : Nat) (r : Reception svc) (outputs : List (Option Nat × Event Msg)) :
    Prop :=
  ((repliesOn socket outputs).length = 1 ∨ r.Closes) ∧ (repliesOn socket outputs).length ≤ 1

@[simp] theorem replies_nil : replies ([] : List (Event Msg)) = [] := rfl

@[simp] theorem replies_append (a b : List (Event Msg)) :
    replies (a ++ b) = replies a ++ replies b := List.filterMap_append

theorem repliesOn_append (socket : Nat) (a b : List (Option Nat × Event Msg)) :
    repliesOn socket (a ++ b) = repliesOn socket a ++ repliesOn socket b := by
  rw [repliesOn, List.filter_append, List.map_append, replies_append]
  rfl

/-! ## What each part of the server sends -/

/-- A closure sends one reply, unless the request comes from the queue. -/
theorem replies_closure {s : State svc} (hs : s.rpc = true) {reason : ProcessingReason}
    (hr : reason ≠ .invokingFromQueue) (name : CString) (calloc : Nat → Bool)
    (message : Option Response) : (replies (closure s reason name calloc message)).length = 1 := by
  have hlen : (closureRpc reason name calloc message).length = 1 := by
    cases reason with
    | invokingFromQueue => exact absurd rfl hr
    | queued => rfl
    | dropped => rfl
    | okToInvoke =>
      cases message with
      | none => rfl
      | some response =>
        unfold closureRpc
        dsimp only
        split
        · rfl
        · split
          · rfl
          · split
            · rfl
            · rfl
  have hsent : ∀ l : List Reply, replies (l.map .sent : List (Event Msg)) = l := by
    intro l
    rw [replies, List.filterMap_map]
    exact List.filterMap_some
  rw [closure, if_pos hs, hsent, hlen]

/-- The implementation of a method can be called for a message, or the message
is answered by its validation. -/
def Implemented (svc : Service Msg) (i : Fin svc.nMethods) (message : Msg) : Prop :=
  (svc.methods.get i).implFunc.isSome ∨ ∃ validationFunc response,
    (svc.methods.get i).validationFunc = some validationFunc ∧
      validationFunc message = .invalid response

/-- A direct invocation sends one reply, or finds no implementation. -/
theorem replies_serverInvokeImpl (i : Fin svc.nMethods) (message : Msg)
    {closure : Option Response → List (Event Msg)} (hc : ∀ r, (replies (closure r)).length = 1) :
    (Implemented svc i message →
      (replies (serverInvokeImpl svc i message closure)).length = 1) ∧
    (¬ Implemented svc i message → replies (serverInvokeImpl svc i message closure) = []) := by
  have hinvoked : ∀ response, replies (.invoked i message :: closure response) =
      replies (closure response) := fun _ => rfl
  simp only [Implemented, serverInvokeImpl]
  cases (svc.methods.get i).implFunc with
  | some implFunc =>
    refine ⟨fun _ => ?_, fun hn => absurd (.inl rfl) hn⟩
    cases (svc.methods.get i).validationFunc with
    | none => exact hc _
    | some validationFunc =>
      dsimp only
      cases validationFunc message with
      | valid => exact hc _
      | invalid response => exact hc _
  | none =>
    cases (svc.methods.get i).validationFunc with
    | none => exact ⟨by simp, fun _ => rfl⟩
    | some validationFunc =>
      dsimp only
      cases hv : validationFunc message with
      | valid =>
        refine ⟨fun h => ?_, fun _ => rfl⟩
        obtain ⟨_, _, he, hi⟩ := h.resolve_left (by simp)
        rw [← Option.some.inj he, hv] at hi
        cases hi
      | invalid response =>
        exact ⟨fun _ => hc _, fun hn => absurd (.inr ⟨_, _, rfl, hv⟩) hn⟩

/-- The filter of a method lets a message be answered. -/
def Answerable (s : State svc) (i : Fin svc.nMethods) (message : Msg) : Prop :=
  match queueFilterLookup s.filters (svc.methods.get i).name with
  | .error => False
  | .drop | .queue => True
  | .process => Implemented svc i message

theorem replies_methodReqDispatch {s : State svc} (hs : s.rpc = true) (r : Request svc) :
    (Answerable s r.methodIndex r.message → (replies (methodReqDispatch s r).2.1).length = 1) ∧
      (¬ Answerable s r.methodIndex r.message → replies (methodReqDispatch s r).2.1 = []) := by
  simp only [Answerable, methodReqDispatch]
  cases queueFilterLookup s.filters (svc.methods.get r.methodIndex).name with
  | error => exact ⟨False.elim, fun _ => rfl⟩
  | drop => exact ⟨fun _ => replies_closure hs (by simp) _ _ _, fun hn => absurd trivial hn⟩
  | queue => exact ⟨fun _ => replies_closure hs (by simp) _ _ _, fun hn => absurd trivial hn⟩
  | process =>
    exact replies_serverInvokeImpl r.methodIndex r.message
      fun response => replies_closure hs (by simp) _ _ response

/-- Calls of the application send no replies: invoking from the queue is silent. -/
theorem replies_call (s : State svc) {op : Op svc} (hop : ∀ r, op ≠ .receive r) :
    replies (serverStep s op).2 = [] := by
  have hqueue : ∀ queue : List (QueueEntry svc), replies (invokeEntries queue) = [] := by
    intro queue
    induction queue with
    | nil => rfl
    | cons e queue ih =>
      have he : replies (serverInvokeImpl svc e.methodIndex e.message fun _ => []) = [] := by
        rcases serverInvokeImpl_cases svc e.methodIndex e.message fun _ => [] with
          ⟨_, he⟩ | he | ⟨_, he⟩
        · rw [he, replies_nil]
        · rw [he, replies_nil]
        · rw [he]
          rfl
      rw [invokeEntries, List.flatMap_cons, replies_append, he]
      exact ih
  obtain ⟨k, _, hevents⟩ := serverStep_takes s op hop
  rw [hevents, hqueue]

/-! ## What a packet is answered -/

/-- The bytes of a packet that arrives as a whole, in the receive buffer. -/
def Connection.buffer (c : Connection) : Memory :=
  ofBytes (c.stream.take (c.headerLength + c.messageLength)) c.stale

/-- What the TLV headers of a packet say. -/
def Connection.tlv (c : Connection) (svc : Service Msg) : TlvResult :=
  tlvHeaderProcess svc.getMethodIndexByName c.buffer headerSize (sub32 c.headerLength headerSize)
    .init

/-- A request that the server receives as a whole. -/
structure Connection.FullyReceived (c : Connection) : Prop where
  request : c.msgType = some .methodReq ∨ c.msgType = some .echoReq
  processed : ¬ c.NotProcessed
  headerLength : headerSize ≤ c.headerLength
  arrives : c.ArrivesWhole

/-- A method request whose TLV headers are accepted names a method, which takes
its message and for which there is an answer. -/
def AnswerablePacket (s : State svc) (c : Connection) : Prop :=
  c.msgType = some .methodReq → (c.tlv svc).ret = .ok →
    ∃ h : (c.tlv svc).request.methodIndex < svc.nMethods, ∃ message,
      (svc.methods.get ⟨_, h⟩).unpack (slice c.buffer c.headerLength c.messageLength) =
        some message ∧ Answerable s ⟨_, h⟩ message

/-- The message processor sends one reply for an answerable message, else none. -/
theorem replies_methodReqMessageProcessor {s : State svc} (hs : s.rpc = true)
    (calloc : Nat → Bool) (m : Memory) (pos len : Nat) (request : TlvRequest) :
    let answerable := ∃ h : request.methodIndex < svc.nMethods, ∃ message,
      (svc.methods.get ⟨_, h⟩).unpack (slice m pos len) = some message ∧
        Answerable s ⟨_, h⟩ message
    let r := methodReqMessageProcessor s calloc m pos len request
    (answerable → (replies r.events).length = 1) ∧ (¬ answerable → replies r.events = []) := by
  intro answerable r
  unfold r methodReqMessageProcessor
  split
  · next h =>
    dsimp only
    split
    · next hnone =>
      refine ⟨?_, fun _ => rfl⟩
      rintro ⟨_, message, hsome, _⟩
      rw [hnone] at hsome
      cases hsome
    · next message hsome =>
      obtain ⟨hone, hnone⟩ := replies_methodReqDispatch hs
        ⟨⟨_, h⟩, request.methodNameRecvd, message, calloc⟩
      refine ⟨?_, fun hn => hnone fun ha => hn ⟨h, message, hsome, ha⟩⟩
      rintro ⟨_, message', hsome', ha⟩
      rw [hsome] at hsome'
      obtain rfl := Option.some.inj hsome'
      exact hone ha
  · next h => exact ⟨fun ⟨h', _⟩ => absurd h' h, fun _ => rfl⟩

/-- A request is answered by one reply, is refused with at most one reply and the
socket is closed, or is left without a reply on an open socket. -/
theorem serverReceive_answers {s : State svc} (hs : s.rpc = true) {c : Connection}
    (hc : c.FullyReceived) :
    let r := serverReceive s c
    (AnswerablePacket s c →
      ((replies r.events).length = 1 ∨ r.Closes) ∧ (replies r.events).length ≤ 1) ∧
    (¬ AnswerablePacket s c → replies r.events = [] ∧ ¬ r.Closes) := by
  rcases serverReceive_cases s c with ⟨hnot, _⟩ | ⟨_, header, nbytes, hg, he⟩
  · exact absurd hnot hc.processed
  · intro r
    obtain ⟨hw, hsize⟩ := hg.whole hc.arrives
    have hbuffer : ofBytes (c.stream.take nbytes) c.stale = c.buffer := by
      rw [hsize, Connection.buffer, hg.headerLength, hg.messageLength]
    have htlv : tlvHeaderProcess svc.getMethodIndexByName c.buffer headerSize
        header.extraHeaderSize .init = c.tlv svc := by
      rw [Connection.tlv, hg.headerLength]
      rfl
    have hsent := (hg.arrives_iff hw).mpr hc.arrives
    have hpos : headerSize + header.extraHeaderSize = c.headerLength := by
      have hle := hc.headerLength
      rw [hg.headerLength] at hle ⊢
      rw [header.extraHeaderSize_eq hle]
      omega
    have hreply : ∀ reply, replies (serverSend s reply : List (Event Msg)) = [reply] := by
      intro reply
      rw [serverSend, if_pos hs]
      rfl
    obtain ⟨_, _, hret⟩ := tlvHeaderProcess_spec svc.getMethodIndexByName c.buffer headerSize .init
      (show sub32 c.headerLength headerSize < word32 from sub32_lt _ _)
    unfold r
    rw [he, hbuffer]
    unfold serverRecvProcess Reception.Closes AnswerablePacket
    rw [htlv]
    rcases hret with hok | herr | hunknown
    · have hok' : (c.tlv svc).ret = .ok := hok
      simp only [hok', if_pos (Or.inr hsent), hpos]
      rcases hc.request with hreq | hreq
      · have htype : header.msgType = .methodReq := Option.some.inj (hg.msgType.symm.trans hreq)
        obtain ⟨hone, hnone⟩ := replies_methodReqMessageProcessor hs c.calloc c.buffer
          c.headerLength c.messageLength (c.tlv svc).request
        simp only [messageProcessor, htype, ← hg.messageLength]
        refine ⟨fun ha => ?_, fun hn => ⟨hnone fun ha => hn fun _ _ => ha, by decide⟩⟩
        have hlen := hone (ha hreq trivial)
        exact ⟨.inl hlen, Nat.le_of_eq hlen⟩
      · have htype : header.msgType = .echoReq := Option.some.inj (hg.msgType.symm.trans hreq)
        simp only [messageProcessor, htype, hreply]
        refine ⟨fun _ => ⟨.inl rfl, Nat.le_refl _⟩, fun hn => absurd ?_ hn⟩
        intro hm
        rw [hreq] at hm
        cases hm
    · have herr' : (c.tlv svc).ret = .err := herr
      simp only [herr']
      exact ⟨fun _ => ⟨.inr (by decide), by simp⟩, fun hn => absurd (by simp) hn⟩
    · have hunknown' : (c.tlv svc).ret = .methodNotFound := hunknown
      simp only [hunknown', if_true, hreply]
      exact ⟨fun _ => ⟨.inl rfl, Nat.le_refl _⟩, fun hn => absurd (by simp) hn⟩

/-! ## Runs -/

/-- After its packet nothing more is sent on a socket until its next packet. -/
theorem repliesOn_run {socket : Nat} {s t : State svc} {inputs : List (Input svc)}
    {outputs : List (Option Nat × Event Msg)} (hi : ∀ c, .packet socket c ∉ inputs)
    (he : exec socketStep s inputs = some (t, outputs)) : repliesOn socket outputs = [] := by
  refine exec_track_guarded (C := fun _ i => ∀ c, i ≠ .packet socket c)
    (R := fun _ _ outputs => repliesOn socket outputs = []) ?_ rfl
    (guarded_of_forall fun i hmem _ c (hc : i = _) => hi c (by rw [← hc]; exact hmem)) he
  intro s _ outputs i s' o hR hC hs
  rw [repliesOn_append, hR, List.nil_append]
  cases i with
  | packet k c =>
    obtain ⟨_, rfl⟩ := Prod.mk.inj (Option.some.inj hs)
    have hk : (k == socket) = false := beq_eq_false_iff_ne.mpr fun h => hC c (h ▸ rfl)
    simp only [repliesOn, List.filter_map, Function.comp_def, Option.some_beq_some, hk]
    simp
  | call op =>
    obtain ⟨hop, _, rfl⟩ := socketStep_call hs
    have hnone := replies_call s hop
    simpa [repliesOn, List.filter_map, Function.comp_def] using hnone

/-- **One reply for every request.** A request that a two-way server receives as a
whole is answered once, whatever happens on the server afterwards, or its socket
is closed, exactly when its method takes its message and has an answer for it. -/
theorem answered_once_iff {s t : State svc} (hs : s.rpc = true) {c : Connection}
    (hc : c.FullyReceived) (socket : Nat) {later : List (Input svc)}
    {outputs : List (Option Nat × Event Msg)} (hlater : ∀ c', .packet socket c' ∉ later)
    (he : exec socketStep s (.packet socket c :: later) = some (t, outputs)) :
    AnsweredOnce socket (serverReceive s c) outputs ↔ AnswerablePacket s c := by
  obtain ⟨s₁, o₁, o₂, hstep, hrun, rfl⟩ := exec_cons.mp he
  obtain ⟨rfl, rfl⟩ := Prod.mk.inj (Option.some.inj hstep)
  have hreplies : repliesOn socket ((serverReceive s c).events.map (fun e => (some socket, e)) ++ o₂) =
      replies (serverReceive s c).events := by
    rw [repliesOn_append, repliesOn_run hlater hrun, List.append_nil]
    simp [repliesOn, List.filter_map, Function.comp_def]
  obtain ⟨hone, hnone⟩ := serverReceive_answers hs hc
  rw [AnsweredOnce, hreplies]
  refine ⟨fun h => ?_, hone⟩
  by_contra hn
  obtain ⟨hempty, hopen⟩ := hnone hn
  rcases h.1 with hlen | hclosed
  · rw [hempty] at hlen
    cases hlen
  · exact hopen hclosed

/-- A request that is queued and invoked later: its packet, with one TLV header. -/
def samplePacket (message : List UInt8) : Connection where
  stream := toBe32 0 ++ toBe32 29 ++ toBe32 message.length ++ toBe32 0 ++
    (toBe32 tlvMethodType ++ toBe32 5 ++ sampleName ++ [0]) ++ message
  stale _ := 0
  calloc _ := true

theorem answered_once_queued :
    ∃ t outputs, exec socketStep (queueEnable (serverCreate sampleService true))
        [.packet 3 (samplePacket [1]), .call .queueDisable, .call .queueProcess] =
          some (t, outputs) ∧
      AnsweredOnce 3 (serverReceive (queueEnable (serverCreate sampleService true))
        (samplePacket [1])) outputs := by
  have hc : (samplePacket [1]).FullyReceived :=
    ⟨.inl (by decide), by unfold Connection.NotProcessed; decide, by decide,
      by unfold Connection.ArrivesWhole; decide⟩
  have hlater : ∀ c', Input.packet 3 c' ∉
      ([.call .queueDisable, .call .queueProcess] : List (Input sampleService)) := by simp
  refine ⟨_, _, rfl, (answered_once_iff rfl hc 3 hlater rfl).mpr fun _ _ => ?_⟩
  exact ⟨by decide, [1], by decide, trivial⟩

/-- A message that the method does not take: no reply, and the socket stays open. -/
theorem unpack_failure_unanswered :
    let r := serverReceive (serverCreate sampleService true) (samplePacket [0xff])
    (samplePacket [0xff]).FullyReceived ∧ replies r.events = [] ∧ ¬ r.Closes ∧
      ¬ AnsweredOnce 3 r (r.events.map fun event => (some 3, event)) := by
  intro r
  have hevents : r.events = [] := rfl
  have hopen : ¬ r.Closes := by
    show ¬ RetCode.ok.toInt < 0
    decide
  refine ⟨⟨.inl (by decide), by unfold Connection.NotProcessed; decide, by decide,
    by unfold Connection.ArrivesWhole; decide⟩, by rw [hevents, replies_nil], hopen, fun h => ?_⟩
  rcases h.1 with hlen | hclosed
  · rw [hevents] at hlen
    cases hlen
  · exact hopen hclosed

end Cmsg.Server
