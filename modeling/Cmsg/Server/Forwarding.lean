import Cmsg.Server.Replies
import Cmsg.Server.TlvParser

/-! # The forwarding server

`cmsg_forwarding_server_process` hands a message to `cmsg_server_receive` through a
transport that has four functions only. The closure of a forwarding server sends
nothing, whatever the filters say, but an echo request and a method that is not known
are answered without the closure. -/
namespace Cmsg.Server
open Cmsg.Base Cmsg.Wire

variable {Msg : Type} {svc : Service Msg}

/-! ## The functions of a transport -/

/-- `cmsg_tport_functions` -/
inductive TportFunction
  | recvWrapper
  | connect
  | listen
  | serverAccept
  | serverRecv
  | clientRecv
  | clientSend
  | serverSend
  | socketClose
  | getSocket
  | applySendTimeout
  | applyRecvTimeout
  | destroy
deriving DecidableEq, Repr

/-- The functions that `cmsg_transport_forwarding_init` sets; the others stay `NULL`, as
`cmsg_transport_new` has cleared them. -/
def transportForwardingInit : List TportFunction :=
  [.clientSend, .destroy, .serverRecv, .recvWrapper]

/-- `cmsg_forwarding_server_data` -/
structure ForwardingServerData where
  msg : List UInt8
  pos : Nat

/-- `cmsg_transport_forwarding_recv_wrapper`, on an `int` that is added to a `size_t`;
`none` stands for -1. -/
def forwardingRecvWrapper (data : ForwardingServerData) (len : Nat) (peek : Bool) :
    Option (List UInt8) × ForwardingServerData :=
  if data.msg.length ≤ data.pos then (none, data)
  else
    let len := if data.msg.length < (data.pos + toSize len) % 2 ^ 64
      then data.msg.length - data.pos else toSize len
    (some ((data.msg.drop data.pos).take len),
      if peek then data else { data with pos := data.pos + len })

/-! ## The calls of a server -/

/-- The calls of `server_send` for what was sent. -/
def sendCalls (events : List (Event Msg)) : List TportFunction :=
  (replies events).map fun _ => .serverSend

/-- The transport functions that `cmsg_server_message_processor` calls. A method request
is answered by the closure, an echo request whatever the closure is. -/
def messageProcessorCalls (s : State svc) (calloc : Nat → Bool) (header : Header) (m : Memory)
    (bufferData : Nat) (request : TlvRequest) : List TportFunction :=
  match header.msgType with
  | .methodReq =>
    sendCalls (methodReqMessageProcessor s calloc m bufferData header.messageLength request).events
  | .echoReq => [.serverSend]
  | .connOpen | .methodReply | .echoReply => []

/-- The transport functions that `cmsg_server_recv_process` calls. -/
def recvProcessCalls (s : State svc) (calloc : Nat → Bool) (header : Header) (m : Memory)
    (nbytes : Nat) : List TportFunction :=
  let tlv := tlvHeaderProcess svc.getMethodIndexByName m headerSize header.extraHeaderSize .init
  match tlv.ret with
  | .ok =>
    if header.messageLength = 0 ∨ toInt32 (wrap32 nbytes) = toInt32 header.dynLen then
      messageProcessorCalls s calloc header m (headerSize + header.extraHeaderSize) tlv.request
    else []
  | ret => if ret = .methodNotFound then [.serverSend] else []

/-- A forwarding server: `cmsg_server_get_closure_func` picks the closure of a one-way
server for it. Without a connection it has no SA, so encryption is left out. -/
structure ForwardingServer (svc : Service Msg) where
  state : State svc
  oneway : state.rpc = false

/-- A call of `cmsg_forwarding_server_process`: what `cmsg_server_receive` does, and the
transport functions it calls. -/
structure Forwarded (svc : Service Msg) where
  reception : Reception svc
  calls : List TportFunction

/-- What surrounds a call: how often the peek for a header is repeated before the time is
out, the receive buffer, and which allocations succeed. -/
structure ForwardingEnv where
  retries : Nat
  stale : Memory
  calloc : Nat → Bool

/-- `cmsg_forwarding_server_process` -/
def forwardingServerProcess (server : ForwardingServer svc) (e : ForwardingEnv)
    (msg : List UInt8) : Forwarded svc :=
  let s := server.state
  let (peeked, data) := forwardingRecvWrapper ⟨msg, 0⟩ headerSize true
  match peeked.filter fun bytes => bytes.length = headerSize with
  | none => ⟨.nothing s .err 0, .serverRecv :: List.replicate (e.retries + 1) .recvWrapper⟩
  | some bytes =>
    match headerProcess (ofBytes bytes e.stale) with
    | none => ⟨.nothing s .err 0, [.serverRecv, .recvWrapper]⟩
    | some header =>
      if recvBufferSize < header.dynLen ∧ e.calloc header.dynLen = false then
        ⟨.nothing s .err 0, [.serverRecv, .recvWrapper]⟩
      else
        let received := ((forwardingRecvWrapper data header.dynLen false).1).getD []
        let nbytes := received.length
        let m := ofBytes received e.stale
        if 0 < toInt32 (wrap32 nbytes) then
          ⟨serverRecvProcess s e.calloc header m nbytes,
            [.serverRecv, .recvWrapper, .recvWrapper] ++
              recvProcessCalls s e.calloc header m nbytes⟩
        else ⟨.nothing s .ok nbytes, [.serverRecv, .recvWrapper, .recvWrapper]⟩

/-! ## What the calls belong to -/

theorem sendCalls_serverSend {s : State svc} (hs : s.rpc = true) (reply : Reply) :
    sendCalls (serverSend s reply) = [.serverSend] := by
  rw [serverSend, if_pos hs]
  rfl

theorem messageProcessorCalls_rpc {s : State svc} (hs : s.rpc = true) (calloc : Nat → Bool)
    (header : Header) (m : Memory) (bufferData : Nat) (request : TlvRequest) :
    messageProcessorCalls s calloc header m bufferData request =
      sendCalls (messageProcessor s calloc header m bufferData request).events := by
  unfold messageProcessorCalls messageProcessor
  cases header.msgType with
  | methodReq => rfl
  | echoReq => exact (sendCalls_serverSend hs echoReply).symm
  | connOpen | methodReply | echoReply => rfl

/-- A two-way server calls `server_send` once for every reply. -/
theorem recvProcessCalls_rpc {s : State svc} (hs : s.rpc = true) (calloc : Nat → Bool)
    (header : Header) (m : Memory) (nbytes : Nat) :
    recvProcessCalls s calloc header m nbytes =
      sendCalls (serverRecvProcess s calloc header m nbytes).events := by
  unfold recvProcessCalls serverRecvProcess
  dsimp only
  cases (tlvHeaderProcess svc.getMethodIndexByName m headerSize header.extraHeaderSize .init).ret with
  | ok =>
    dsimp only
    split
    · exact messageProcessorCalls_rpc hs calloc header m _ _
    · rfl
  | methodNotFound => exact (sendCalls_serverSend hs _).symm
  | queued | dropped | err | closed => rfl

/-- The closure of a one-way server sends nothing, however a request is handled. -/
theorem methodReqMessageProcessor_oneway {s : State svc} (hs : s.rpc = false)
    (calloc : Nat → Bool) (m : Memory) (bufferData messageLength : Nat) (request : TlvRequest) :
    replies (methodReqMessageProcessor s calloc m bufferData messageLength request).events = [] := by
  have hclosure : ∀ reason name calloc message,
      (closure s reason name calloc message : List (Event Msg)) = [] := by
    intro reason name calloc message
    rw [closure, if_neg (by rw [hs]; exact Bool.false_ne_true)]
  have himpl : ∀ (i : Fin svc.nMethods) (input : Msg) reason name,
      replies (serverInvokeImpl svc i input (closure s reason name calloc)) = [] := by
    intro i input reason name
    unfold serverInvokeImpl
    simp only [hclosure]
    cases (svc.methods.get i).implFunc with
    | none =>
      cases (svc.methods.get i).validationFunc with
      | none => rfl
      | some validationFunc =>
        dsimp only
        cases validationFunc input with
        | valid => rfl
        | invalid _ => rfl
    | some implFunc =>
      cases (svc.methods.get i).validationFunc with
      | none => rfl
      | some validationFunc =>
        dsimp only
        cases validationFunc input with
        | valid => rfl
        | invalid _ => rfl
  unfold methodReqMessageProcessor
  split
  · dsimp only
    split
    · rfl
    · next message _ =>
      unfold methodReqDispatch
      dsimp only
      cases queueFilterLookup s.filters _ with
      | error => rfl
      | drop => exact congrArg replies (hclosure .dropped _ _ _)
      | queue => exact congrArg replies (hclosure .queued _ _ _)
      | process => exact himpl _ message .okToInvoke _
  · rfl

/-- The peek sees the header of the message, if it has one. -/
theorem forwardingRecvWrapper_peek (msg : List UInt8) :
    (forwardingRecvWrapper ⟨msg, 0⟩ headerSize true).2 = ⟨msg, 0⟩ ∧
      (forwardingRecvWrapper ⟨msg, 0⟩ headerSize true).1.filter (fun bytes =>
          bytes.length = headerSize) =
        if msg.length < headerSize then none else some (msg.take headerSize) := by
  have hsize : toSize headerSize % 2 ^ 64 = headerSize := rfl
  unfold forwardingRecvWrapper
  dsimp only
  split
  · next hnil =>
    have hlt : msg.length < headerSize := by
      unfold headerSize
      omega
    rw [if_pos hlt]
    exact ⟨rfl, rfl⟩
  · next hpos =>
    refine ⟨rfl, ?_⟩
    rw [Nat.zero_add, hsize, List.drop_zero]
    by_cases hlt : msg.length < headerSize
    · rw [if_pos hlt, if_pos hlt, Nat.sub_zero, List.take_length]
      simp [Nat.ne_of_lt hlt]
    · rw [if_neg hlt, if_neg hlt]
      have hlen : (msg.take headerSize).length = headerSize := by
        rw [List.length_take, Nat.min_eq_left (Nat.le_of_not_lt hlt)]
      rw [show toSize headerSize = headerSize from rfl]
      simp [hlen]

/-- The receive gets what a socket would get of the same bytes. -/
theorem forwardingRecvWrapper_recv {msg : List UInt8} (hpos : 0 < msg.length) {len : Nat}
    (hlen : len < word32) :
    (forwardingRecvWrapper ⟨msg, 0⟩ len false).1 = some (msg.take (recvCount msg len)) := by
  have hsize : toSize len % 2 ^ 64 = toSize len := by
    refine Nat.mod_eq_of_lt ?_
    unfold toSize
    unfold word32 at *
    split
    · omega
    · omega
  unfold forwardingRecvWrapper
  dsimp only
  rw [if_neg (Nat.not_le.mpr hpos), Nat.zero_add, hsize, List.drop_zero, recvCount]
  split
  · next hlt => rw [Nat.min_eq_left (Nat.le_of_lt hlt), Nat.sub_zero]
  · next hge => rw [Nat.min_eq_right (Nat.le_of_not_lt hge)]

/-- The transport functions that are called for the bytes of a connection. -/
def forwardingCalls (s : State svc) (c : Connection) (retries : Nat) : List TportFunction :=
  if c.stream.length < headerSize then
    .serverRecv :: List.replicate (retries + 1) .recvWrapper
  else match headerProcess (ofBytes c.stream c.stale) with
    | none => [.serverRecv, .recvWrapper]
    | some header =>
      if recvBufferSize < header.dynLen ∧ c.calloc header.dynLen = false then
        [.serverRecv, .recvWrapper]
      else
        let nbytes := recvCount c.stream header.dynLen
        if 0 < toInt32 (wrap32 nbytes) then
          [.serverRecv, .recvWrapper, .recvWrapper] ++
            recvProcessCalls s c.calloc header (ofBytes (c.stream.take nbytes) c.stale) nbytes
        else [.serverRecv, .recvWrapper, .recvWrapper]

/-- What a forwarding server makes of a message is what any server makes of it that gets
the same bytes. -/
theorem forwardingServerProcess_eq (server : ForwardingServer svc) (e : ForwardingEnv)
    (msg : List UInt8) :
    forwardingServerProcess server e msg =
      ⟨serverReceive server.state ⟨msg, e.stale, e.calloc⟩,
        forwardingCalls server.state ⟨msg, e.stale, e.calloc⟩ e.retries⟩ := by
  obtain ⟨hdata, hpeeked⟩ := forwardingRecvWrapper_peek msg
  unfold forwardingServerProcess serverReceive forwardingCalls
  dsimp only
  rw [hdata, hpeeked]
  by_cases hshort : msg.length < headerSize
  · rw [if_pos hshort, if_pos hshort, if_pos hshort]
  · rw [if_neg hshort, if_neg hshort, if_neg hshort]
    have hlong := Nat.le_of_not_lt hshort
    have hpos : 0 < msg.length := Nat.lt_of_lt_of_le (Nat.zero_lt_succ 15) hlong
    have hheader : headerProcess (ofBytes (msg.take headerSize) e.stale) =
        headerProcess (ofBytes msg e.stale) := by
      refine headerProcess_congr fun p hp => ?_
      have hlt : p < msg.length := Nat.lt_of_lt_of_le hp hlong
      simp [ofBytes, hp, hlt]
    dsimp only
    rw [hheader]
    cases headerProcess (ofBytes msg e.stale) with
    | none => rfl
    | some header =>
      have hdyn : header.dynLen < word32 := wrap32_lt _
      dsimp only
      rw [forwardingRecvWrapper_recv hpos hdyn, Option.getD_some, List.length_take,
        Nat.min_eq_left (recvCount_le_length msg header.dynLen)]
      split
      · rfl
      · split
        · rfl
        · rfl

/-! ## Which messages are answered -/

/-- The number of bytes received of a packet. -/
def Connection.received (c : Connection) : Nat :=
  recvCount c.stream (wrap32 (c.messageLength + c.headerLength))

/-- What the receive buffer holds for the headers that follow the fixed one. -/
def Connection.extraHeaders (c : Connection) : List UInt8 :=
  slice (ofBytes (c.stream.take c.received) c.stale) headerSize (sub32 c.headerLength headerSize)

/-- The whole packet is received, or it has no message. -/
def Connection.Delivered (c : Connection) : Prop :=
  c.messageLength = 0 ∨
    toInt32 (wrap32 c.received) = toInt32 (wrap32 (c.messageLength + c.headerLength))

/-- A message that a server answers without its closure: its headers reach one that names
an unknown method, or it is an echo request. -/
def Connection.Answered (svc : Service Msg) (c : Connection) : Prop :=
  ¬ c.NotProcessed ∧
    (ReachesUnknown svc.getMethodIndexByName c.extraHeaders ∨
      (c.msgType = some .echoReq ∧ c.Delivered ∧
        ∃ values, c.extraHeaders = methodHeaders values ∧
          ∀ value ∈ values, Names svc.getMethodIndexByName value))

/-- Beside what the processing calls, two functions are called that are set. -/
theorem forwardingCalls_cases (s : State svc) (c : Connection) (retries : Nat) :
    ∃ front, (∀ f ∈ front, f ∈ transportForwardingInit) ∧
      ((c.NotProcessed ∧ forwardingCalls s c retries = front) ∨
        (¬ c.NotProcessed ∧ ∃ header, c.Gets header c.received ∧
          forwardingCalls s c retries = front ++ recvProcessCalls s c.calloc header
            (ofBytes (c.stream.take c.received) c.stale) c.received)) := by
  have hset : ∀ n, ∀ f ∈ TportFunction.serverRecv :: List.replicate n TportFunction.recvWrapper,
      f ∈ transportForwardingInit := by
    intro n f hf
    rcases List.mem_cons.mp hf with rfl | hf
    · simp [transportForwardingInit]
    · rw [List.eq_of_mem_replicate hf]
      simp [transportForwardingInit]
  unfold forwardingCalls
  split
  · next hshort => exact ⟨_, hset (retries + 1), .inl ⟨.inl hshort, rfl⟩⟩
  · next hlong =>
    cases hp : headerProcess (ofBytes c.stream c.stale) with
    | none => exact ⟨_, hset 1, .inl ⟨.inr (.inl (Option.map_eq_none_iff.mp hp)), rfl⟩⟩
    | some header =>
      have hiff := notProcessed_iff hlong hp
      have hreceived : c.received = recvCount c.stream header.dynLen := by
        rw [Connection.received, announced_eq hp]
      dsimp only
      rw [hreceived]
      split
      · next hcalloc => exact ⟨_, hset 1, .inl ⟨hiff.mpr (.inl hcalloc), rfl⟩⟩
      · next hcalloc =>
        split
        · next hsome =>
          refine ⟨_, hset 2, .inr ⟨fun hnot => ?_, header, gets_of_header hlong hp hsome, rfl⟩⟩
          exact (hiff.mp hnot).elim hcalloc (Int.not_le.mpr hsome)
        · next hnone => exact ⟨_, hset 2, .inl ⟨hiff.mpr (.inr (Int.not_lt.mp hnone)), rfl⟩⟩

/-- The processing calls no function but `server_send`, and that one for messages that are
answered. -/
theorem recvProcessCalls_cases {s : State svc} (hs : s.rpc = false) {c : Connection}
    (hprocessed : ¬ c.NotProcessed) {header : Header} (hgets : c.Gets header c.received) :
    let calls := recvProcessCalls s c.calloc header (ofBytes (c.stream.take c.received) c.stale)
      c.received
    (c.Answered svc ∧ calls = [.serverSend]) ∨ (¬ c.Answered svc ∧ calls = []) := by
  intro calls
  have hsize : header.extraHeaderSize = sub32 c.headerLength headerSize := by
    rw [hgets.headerLength]
    rfl
  have hdyn : header.dynLen = wrap32 (c.messageLength + c.headerLength) := by
    rw [hgets.headerLength, hgets.messageLength]
    rfl
  have hok := @tlvHeaderProcess_ok_iff svc.getMethodIndexByName
    (ofBytes (c.stream.take c.received) c.stale) headerSize c.extraHeaders .init
    (holds_slice _ _ _)
  have hunknown := @tlvHeaderProcess_methodNotFound_iff svc.getMethodIndexByName
    (ofBytes (c.stream.take c.received) c.stale) headerSize (sub32 c.headerLength headerSize) .init
  have hreaches : c.extraHeaders = slice (ofBytes (c.stream.take c.received) c.stale) headerSize
      (sub32 c.headerLength headerSize) := rfl
  rw [hreaches, length_slice, ← hreaches] at hok
  rw [← hreaches] at hunknown
  have hcalls : calls = recvProcessCalls s c.calloc header
    (ofBytes (c.stream.take c.received) c.stale) c.received := rfl
  unfold recvProcessCalls at hcalls
  dsimp only at hcalls
  rw [hsize, hdyn, ← hgets.messageLength] at hcalls
  cases hret : (tlvHeaderProcess svc.getMethodIndexByName
      (ofBytes (c.stream.take c.received) c.stale) headerSize (sub32 c.headerLength headerSize)
      .init).ret with
  | ok =>
    rw [hret] at hcalls hok hunknown
    have hnames := hok.mp rfl
    have hfound : ¬ ReachesUnknown svc.getMethodIndexByName c.extraHeaders :=
      fun h => (by cases hunknown.mpr h)
    dsimp only at hcalls
    by_cases hdelivered : c.Delivered
    · rw [if_pos (show _ ∨ _ from hdelivered)] at hcalls
      unfold messageProcessorCalls at hcalls
      by_cases hecho : header.msgType = .echoReq
      · rw [hecho] at hcalls
        exact .inl ⟨⟨hprocessed, .inr ⟨hecho ▸ hgets.msgType, hdelivered, hnames⟩⟩, hcalls⟩
      · refine .inr ⟨fun ⟨_, h⟩ => ?_, ?_⟩
        · rcases h with h | ⟨htype, _⟩
          · exact hfound h
          · exact hecho (Option.some.inj (hgets.msgType.symm.trans htype))
        · rw [hcalls]
          cases hother : header.msgType with
          | methodReq =>
            dsimp only
            rw [sendCalls, methodReqMessageProcessor_oneway hs]
            rfl
          | echoReq => exact absurd hother hecho
          | connOpen | methodReply | echoReply => rfl
    · rw [if_neg (show ¬ (_ ∨ _) from hdelivered)] at hcalls
      refine .inr ⟨fun ⟨_, h⟩ => ?_, hcalls⟩
      rcases h with h | ⟨_, h, _⟩
      · exact hfound h
      · exact hdelivered h
  | methodNotFound =>
    rw [hret] at hcalls hunknown
    exact .inl ⟨⟨hprocessed, .inl (hunknown.mp rfl)⟩, hcalls⟩
  | queued | dropped | err | closed =>
    rw [hret] at hcalls hok hunknown
    refine .inr ⟨fun ⟨_, h⟩ => ?_, hcalls⟩
    rcases h with hreach | ⟨_, _, hnames⟩
    · cases hunknown.mpr hreach
    · cases hok.mpr hnames

/-- **The missing function**: only functions that the forwarding transport sets are called,
exactly when the message is not answered. -/
theorem forwardingServerProcess_safe_iff (server : ForwardingServer svc) (e : ForwardingEnv)
    (msg : List UInt8) :
    (∀ f ∈ (forwardingServerProcess server e msg).calls, f ∈ transportForwardingInit) ↔
      ¬ Connection.Answered svc ⟨msg, e.stale, e.calloc⟩ := by
  rw [forwardingServerProcess_eq]
  obtain ⟨front, hfront, ⟨hnot, hcalls⟩ | ⟨hprocessed, header, hgets, hcalls⟩⟩ :=
    forwardingCalls_cases server.state ⟨msg, e.stale, e.calloc⟩ e.retries
  · dsimp only
    rw [hcalls]
    exact ⟨fun _ h => h.1 hnot, fun _ => hfront⟩
  · dsimp only
    rw [hcalls]
    rcases recvProcessCalls_cases server.oneway hprocessed hgets with ⟨ha, heq⟩ | ⟨hna, heq⟩
    · rw [heq]
      refine ⟨fun h => absurd (h .serverSend ?_) (by simp [transportForwardingInit]),
        fun h => absurd ha h⟩
      exact List.mem_append_right _ List.mem_cons_self
    · rw [heq, List.append_nil]
      exact ⟨fun _ => hna, fun _ => hfront⟩

/-! ## An echo request -/

/-- The sixteen bytes of an echo request. -/
def echoRequest : List UInt8 :=
  toBe32 2 ++ (toBe32 headerSize ++ (toBe32 0 ++ toBe32 0))

theorem echo_calls_missing :
    ¬ ∀ (server : ForwardingServer sampleService) (e : ForwardingEnv) (msg : List UInt8),
      ∀ f ∈ (forwardingServerProcess server e msg).calls, f ∈ transportForwardingInit := by
  intro h
  have hcalls : (forwardingServerProcess ⟨serverCreate sampleService false, rfl⟩
      ⟨0, fun _ => 0, fun _ => true⟩ echoRequest).calls =
      [.serverRecv, .recvWrapper, .recvWrapper, .serverSend] := rfl
  have hset := h _ _ _ .serverSend (by rw [hcalls]; simp)
  simp [transportForwardingInit] at hset

end Cmsg.Server
