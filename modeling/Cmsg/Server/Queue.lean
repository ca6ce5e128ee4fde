import Cmsg.Base.Runs
import Cmsg.Server.Filter

/-! # Invoking, queueing and dropping requests

`cmsg_server_invoke` decides between the implementation, the receive queue and
a bare reply; `cmsg_server_queue_process` and its relatives drain the queue and
move `queueing_state`. `step` is the machine of all of them: one input is one
call of the application or one request that reaches the message processor. -/
namespace Cmsg.Server
open Cmsg.Base Cmsg.Base.Runs Cmsg.Wire

variable {Msg : Type}

def Service.names (svc : Service Msg) : List CString := svc.methods.map (·.name)

/-- A reply packet: the fields of its header, the method name of its TLV if it
has one, and its message. -/
structure Reply where
  msgType : MsgType
  statusCode : StatusCode
  methodName : Option CString
  message : List UInt8
deriving DecidableEq, Repr

/-- What can be seen of a server from outside: its implementations being
called and its replies being sent. -/
inductive Event (Msg : Type)
  | invoked (methodIndex : Nat) (message : Msg)
  | sent (reply : Reply)
deriving DecidableEq, Repr

/-- `cmsg_method_processing_reason` -/
inductive ProcessingReason
  | okToInvoke
  | queued
  | dropped
  | invokingFromQueue
deriving DecidableEq, Repr

/-- `cmsg_server_request` with the unpacked message. `calloc` says which
allocations succeed while the request is handled. -/
structure Request (svc : Service Msg) where
  methodIndex : Fin svc.nMethods
  methodNameRecvd : CString
  message : Msg
  calloc : Nat → Bool

/-- `cmsg_receive_queue_entry` -/
structure QueueEntry (svc : Service Msg) where
  methodIndex : Fin svc.nMethods
  message : Msg

/-- The part of `cmsg_server` that decides what happens to requests. The queue
is listed from its oldest entry, the tail of the `GQueue`; `rpc` says that the
closure is `cmsg_server_closure_rpc` and not `cmsg_server_closure_oneway`. -/
structure State (svc : Service Msg) where
  rpc : Bool
  filters : FilterTable svc.names
  queueingState : QueueState
  queueingStateLast : QueueState
  queueInProcess : Bool
  queueProcessNumber : Int
  queue : List (QueueEntry svc)

variable {svc : Service Msg}

/-- `cmsg_server_create`, as far as requests are concerned. -/
def serverCreate (svc : Service Msg) (rpc : Bool) : State svc where
  rpc
  filters := queueFilterInit svc.names
  queueingState := .disabled
  queueingStateLast := .disabled
  queueInProcess := false
  queueProcessNumber := 0
  queue := []

/-! ## Replies -/

/-- `cmsg_server_empty_method_reply_send` -/
def emptyMethodReply (status : StatusCode) : Reply := ⟨.methodReply, status, none, []⟩

/-- `cmsg_server_closure_rpc`: the reply it sends, if any. -/
def closureRpc (reason : ProcessingReason) (name : CString) (calloc : Nat → Bool)
    (message : Option Response) : List Reply :=
  match reason, message with
  | .invokingFromQueue, _ => []
  | .queued, _ => [emptyMethodReply .serviceQueued]
  | .dropped, _ => [emptyMethodReply .serviceDropped]
  | .okToInvoke, none => [emptyMethodReply .serviceFailed]
  | .okToInvoke, some response =>
    let totalHeaderSize := headerSize + tlvSize (name.length + 1)
    if !calloc (wrap32 (totalHeaderSize + response.packedSize)) then
      [emptyMethodReply .serviceFailed]
    else if response.packed.length < response.packedSize then
      [emptyMethodReply .serviceFailed]
    else if response.packed.length > response.packedSize then
      [emptyMethodReply .serviceFailed]
    else [⟨.methodReply, .success, some name, response.packed⟩]

/-- The closure of the server. -/
def closure (s : State svc) (reason : ProcessingReason) (name : CString) (calloc : Nat → Bool)
    (message : Option Response) : List (Event Msg) :=
  if s.rpc then (closureRpc reason name calloc message).map .sent else []

/-! ## Invoking -/

/-- `cmsg_server_invoke_impl` -/
def serverInvokeImpl (svc : Service Msg) (methodIndex : Fin svc.nMethods) (input : Msg)
    (closure : Option Response → List (Event Msg)) : List (Event Msg) :=
  let m := svc.methods.get methodIndex
  let impl := match m.implFunc with
    | none => []
    | some implFunc => .invoked methodIndex input :: closure (implFunc input)
  match m.validationFunc with
  | none => impl
  | some validationFunc =>
    match validationFunc input with
    | .valid => impl
    | .invalid response => closure response

/-- The size of a `cmsg_receive_queue_entry`. -/
def queueEntrySize : Nat := 24

/-- `cmsg_receive_queue_push` -/
def receiveQueuePush (s : State svc) (r : Request svc) : State svc :=
  if r.calloc queueEntrySize then { s with queue := s.queue ++ [⟨r.methodIndex, r.message⟩] }
  else s

/-- `cmsg_server_invoke` -/
def serverInvoke (s : State svc) (r : Request svc) (reason : ProcessingReason) :
    State svc × List (Event Msg) :=
  let closure := closure s reason r.methodNameRecvd r.calloc
  match reason with
  | .okToInvoke | .invokingFromQueue =>
    (s, serverInvokeImpl svc r.methodIndex r.message closure)
  | .queued => (receiveQueuePush s r, closure none)
  | .dropped => (s, closure none)

/-- `_cmsg_server_method_req_message_processor` once the message is unpacked;
`false` stands for `CMSG_RET_ERR`. -/
def methodReqDispatch (s : State svc) (r : Request svc) :
    State svc × List (Event Msg) × Bool :=
  let methodName := (svc.methods.get r.methodIndex).name
  let invoke reason := let (s, events) := serverInvoke s r reason; (s, events, true)
  match queueFilterLookup s.filters methodName with
  | .error => (s, [], false)
  | .drop => invoke .dropped
  | .queue => invoke .queued
  | .process => invoke .okToInvoke

/-! ## Draining the queue -/

/-- `cmsg_server_invoke` for an entry of the queue. -/
def invokeEntry (s : State svc) (e : QueueEntry svc) : List (Event Msg) :=
  (serverInvoke s ⟨e.methodIndex, [], e.message, fun _ => true⟩ .invokingFromQueue).2

/-- `cmsg_receive_queue_process_some`: the number of entries processed, the
queue that is left and the events. -/
def receiveQueueProcessSome (s : State svc) :
    List (QueueEntry svc) → Nat → Nat × List (QueueEntry svc) × List (Event Msg)
  | [], _ => (0, [], [])
  | e :: queue, numToProcess =>
    if numToProcess = 0 then (0, e :: queue, [])
    else
      let (processed, left, events) := receiveQueueProcessSome s queue (numToProcess - 1)
      (processed + 1, left, invokeEntry s e ++ events)

/-- The loop of `cmsg_receive_queue_process_all`. -/
def receiveQueueProcessAllLoop (s : State svc) :
    Nat → List (QueueEntry svc) → Nat × List (QueueEntry svc) × List (Event Msg)
  | 0, queue => (0, queue, [])
  | fuel + 1, queue =>
    let (processed, left, events) := receiveQueueProcessSome s queue 50
    if processed = 0 then (0, left, events)
    else
      let (total, left', events') := receiveQueueProcessAllLoop s fuel left
      (processed + total, left', events ++ events')

/-- `cmsg_receive_queue_process_all`: every round but the last takes an entry. -/
def receiveQueueProcessAll (s : State svc) (queue : List (QueueEntry svc)) :
    Nat × List (QueueEntry svc) × List (Event Msg) :=
  receiveQueueProcessAllLoop s (queue.length + 1) queue

/-- The part common to the `TO_DISABLED` and `ENABLED` branches of
`cmsg_server_queue_process`: process as many entries as were asked for. -/
def processRequested (s : State svc) : State svc × List (Event Msg) :=
  if s.queueProcessNumber ≥ 0 then
    let (_, left, events) := receiveQueueProcessSome s s.queue s.queueProcessNumber.toNat
    ({ s with queue := left }, events)
  else if s.queueProcessNumber = -1 then
    let (_, left, events) := receiveQueueProcessAll s s.queue
    ({ s with queue := left }, events)
  else (s, [])

/-- Entering the drain: the first time round, every filter is set to queue. -/
def beginDrain (s : State svc) : State svc :=
  if s.queueInProcess then s
  else { s with queueInProcess := true, filters := queueFilterSetAll s.filters .queue }

/-- Leaving the drain once the queue is empty. -/
def endDrain (s : State svc) : State svc :=
  if s.queue.length = 0 then
    { s with
      queueProcessNumber := 0
      queueInProcess := false
      filters := queueFilterClearAll s.filters
      queueingState := .disabled }
  else s

/-- `cmsg_server_queue_process` -/
def queueProcess (s : State svc) : State svc × List (Event Msg) :=
  let (s, events) := match s.queueingState with
    | .toDisabled => let (s, events) := processRequested (beginDrain s); (endDrain s, events)
    | .enabled => processRequested s
    | .disabled => (s, [])
  ({ s with queueingStateLast := s.queueingState }, events)

/-- `cmsg_server_queue_process_some` -/
def queueProcessSome (s : State svc) (numberToProcess : Int) : State svc × List (Event Msg) :=
  queueProcess { s with queueProcessNumber := numberToProcess }

/-- `cmsg_server_queue_process_all` -/
def queueProcessAll (s : State svc) : State svc × List (Event Msg) :=
  let (_, left, events) := receiveQueueProcessAll s s.queue
  ({ s with queue := left }, events)

/-! ## Filters and queueing state -/

/-- `cmsg_server_queue_filter_set_all` -/
def serverQueueFilterSetAll (s : State svc) (t : QueueFilterType) : State svc :=
  { s with
    queueingState := match t with
      | .process | .drop => .toDisabled
      | .queue => .enabled
      | .error => s.queueingState
    filters := queueFilterSetAll s.filters t }

/-- `cmsg_server_queue_filter_clear_all` -/
def serverQueueFilterClearAll (s : State svc) : State svc :=
  { s with queueingState := .toDisabled, filters := queueFilterClearAll s.filters }

/-- `cmsg_server_queue_filter_set` -/
def serverQueueFilterSet (s : State svc) (method : CString) (t : QueueFilterType) : State svc :=
  let filters := (queueFilterSet s.filters method t).1
  { s with filters, queueingState := queueFilterGetType filters }

/-- `cmsg_server_queue_filter_clear` -/
def serverQueueFilterClear (s : State svc) (method : CString) : State svc :=
  let filters := (queueFilterClear s.filters method).1
  { s with filters, queueingState := queueFilterGetType filters }

/-- `cmsg_server_drop_all` -/
def dropAll (s : State svc) : State svc := serverQueueFilterSetAll s .drop

/-- `cmsg_server_queue_enable` -/
def queueEnable (s : State svc) : State svc := serverQueueFilterSetAll s .queue

/-- `cmsg_server_queue_request_process_all`. It then waits for
`queue_in_process` to be false, which changes nothing. -/
def queueRequestProcessAll (s : State svc) : State svc := { s with queueProcessNumber := -1 }

/-- `cmsg_server_queue_disable` -/
def queueDisable (s : State svc) : State svc :=
  queueRequestProcessAll (serverQueueFilterSetAll s .process)

/-! ## The machine -/

inductive Op (svc : Service Msg)
  | receive (r : Request svc)
  | queueFilterSet (method : CString) (t : QueueFilterType)
  | queueFilterClear (method : CString)
  | queueFilterSetAll (t : QueueFilterType)
  | queueFilterClearAll
  | queueEnable
  | queueDisable
  | dropAll
  | queueProcess
  | queueProcessSome (numberToProcess : Int)
  | queueProcessAll

/-- What one input does to the server. -/
def serverStep (s : State svc) : Op svc → State svc × List (Event Msg)
  | .receive r => let (s, events, _) := methodReqDispatch s r; (s, events)
  | .queueFilterSet method t => (serverQueueFilterSet s method t, [])
  | .queueFilterClear method => (serverQueueFilterClear s method, [])
  | .queueFilterSetAll t => (serverQueueFilterSetAll s t, [])
  | .queueFilterClearAll => (serverQueueFilterClearAll s, [])
  | .queueEnable => (queueEnable s, [])
  | .queueDisable => (queueDisable s, [])
  | .dropAll => (dropAll s, [])
  | .queueProcess => queueProcess s
  | .queueProcessSome n => queueProcessSome s n
  | .queueProcessAll => queueProcessAll s

/-- The server as a machine; every step is defined. -/
def step : Machine (State svc) (Op svc) (Event Msg) := fun s op => some (serverStep s op)

/-! A service with one method, for tests. -/

def sampleName : CString := [0x70, 0x69, 0x6e, 0x67]

-- one message is refused
def sampleUnpack (bytes : List UInt8) : Option (List UInt8) :=
  if bytes = [0xff] then none else some bytes

def sampleService : Service (List UInt8) where
  methods := [⟨sampleName, sampleUnpack, none, some fun _ => some ⟨0, []⟩⟩]
  methodIndicesByName := [0]
  indices_length := rfl
  indices_lt := by decide
  methods_lt := by decide
  name_ne_zero := by simp [sampleName]

def sampleRequest : Request sampleService := ⟨⟨0, by decide⟩, sampleName, [], fun _ => true⟩

theorem step_eq_some {s s' : State svc} {op : Op svc} {events : List (Event Msg)} :
    step s op = some (s', events) ↔ serverStep s op = (s', events) := by
  simp [step]

/-! ## What a received request does -/

/-- `cmsg_server_invoke_impl` finds the input invalid, finds no implementation,
or calls the implementation. -/
theorem serverInvokeImpl_cases (svc : Service Msg) (i : Fin svc.nMethods) (input : Msg)
    (closure : Option Response → List (Event Msg)) :
    (∃ response, serverInvokeImpl svc i input closure = closure response) ∨
      serverInvokeImpl svc i input closure = [] ∨
      ∃ response, serverInvokeImpl svc i input closure = .invoked i input :: closure response := by
  simp only [serverInvokeImpl]
  cases (svc.methods.get i).validationFunc with
  | none =>
    cases (svc.methods.get i).implFunc with
    | none => exact .inr (.inl rfl)
    | some implFunc => exact .inr (.inr ⟨implFunc input, rfl⟩)
  | some validationFunc =>
    dsimp only
    cases validationFunc input with
    | valid =>
      cases (svc.methods.get i).implFunc with
      | none => exact .inr (.inl rfl)
      | some implFunc => exact .inr (.inr ⟨implFunc input, rfl⟩)
    | invalid response => exact .inl ⟨response, rfl⟩

/-- The name under which the filters know the method of a request. -/
def Request.methodName (r : Request svc) : CString := (svc.methods.get r.methodIndex).name

theorem Request.methodName_mem (r : Request svc) : r.methodName ∈ svc.names :=
  List.mem_map.mpr ⟨_, List.getElem_mem _, rfl⟩

/-- Only a queued request changes the server. -/
theorem receive_state (s : State svc) (r : Request svc) :
    (serverStep s (.receive r)).1 =
      if queueFilterLookup s.filters r.methodName = .queue then receiveQueuePush s r else s := by
  simp only [serverStep, methodReqDispatch, Request.methodName]
  split <;> simp_all [serverInvoke]

theorem receive_events (s : State svc) (r : Request svc) :
    (serverStep s (.receive r)).2 =
      match queueFilterLookup s.filters r.methodName with
      | .error => []
      | .drop => closure s .dropped r.methodNameRecvd r.calloc none
      | .queue => closure s .queued r.methodNameRecvd r.calloc none
      | .process => serverInvokeImpl svc r.methodIndex r.message
          (closure s .okToInvoke r.methodNameRecvd r.calloc) := by
  simp only [serverStep, methodReqDispatch, Request.methodName]
  split <;> simp_all [serverInvoke]

/-! ## What the drain does -/

/-- Invoking from the queue sends no reply. -/
theorem closure_invokingFromQueue (s : State svc) (name : CString) (calloc : Nat → Bool)
    (message : Option Response) : closure s .invokingFromQueue name calloc message = [] := by
  unfold closure
  split <;> rfl

theorem invokeEntry_eq (s : State svc) (e : QueueEntry svc) :
    invokeEntry s e = serverInvokeImpl svc e.methodIndex e.message fun _ => [] := by
  have hc : (closure s .invokingFromQueue [] fun _ => true) = fun _ => [] :=
    funext fun message => closure_invokingFromQueue s [] _ message
  simp only [invokeEntry, serverInvoke, hc]

/-- The events of a list of entries invoked one after the other. -/
def invokeEntries (queue : List (QueueEntry svc)) : List (Event Msg) :=
  queue.flatMap fun e => serverInvokeImpl svc e.methodIndex e.message fun _ => []

theorem receiveQueueProcessSome_eq (s : State svc) (queue : List (QueueEntry svc)) :
    ∀ n, receiveQueueProcessSome s queue n =
      ((queue.take n).length, queue.drop n, invokeEntries (queue.take n)) := by
  induction queue with
  | nil =>
    intro n
    simp [receiveQueueProcessSome, invokeEntries]
  | cons e queue ih =>
    intro n
    cases n with
    | zero => simp [receiveQueueProcessSome, invokeEntries]
    | succ n => simp [receiveQueueProcessSome, ih, invokeEntry_eq, invokeEntries]

theorem receiveQueueProcessAllLoop_eq (s : State svc) (fuel : Nat) :
    ∀ queue, queue.length < fuel →
      receiveQueueProcessAllLoop s fuel queue = (queue.length, [], invokeEntries queue) := by
  induction fuel with
  | zero =>
    intro queue h
    omega
  | succ fuel ih =>
    intro queue h
    simp only [receiveQueueProcessAllLoop, receiveQueueProcessSome_eq]
    split
    · next h0 =>
      have hnil : queue = [] := by
        rw [List.length_take] at h0
        exact List.length_eq_zero_iff.mp (by omega)
      subst hnil
      rfl
    · next h0 =>
      have hlen : (queue.drop 50).length < fuel := by
        rw [List.length_take] at h0
        rw [List.length_drop]
        omega
      have hsplit : queue.take 50 ++ queue.drop 50 = queue := List.take_append_drop 50 queue
      rw [ih _ hlen]
      refine Prod.ext ?_ (Prod.ext rfl ?_)
      · rw [← List.length_append, hsplit]
      · rw [invokeEntries, invokeEntries, ← List.flatMap_append, hsplit, invokeEntries]

/-- Processing everything empties the queue, oldest entry first. -/
theorem receiveQueueProcessAll_eq (s : State svc) (queue : List (QueueEntry svc)) :
    receiveQueueProcessAll s queue = (queue.length, [], invokeEntries queue) :=
  receiveQueueProcessAllLoop_eq s _ queue (Nat.lt_succ_self _)

/-- How many entries `queue_process_number` asks for. -/
def requested (s : State svc) : Nat :=
  if s.queueProcessNumber ≥ 0 then s.queueProcessNumber.toNat
  else if s.queueProcessNumber = -1 then s.queue.length else 0

theorem processRequested_eq (s : State svc) :
    processRequested s =
      ({ s with queue := s.queue.drop (requested s) }, invokeEntries (s.queue.take (requested s))) := by
  unfold processRequested requested
  split
  · rw [receiveQueueProcessSome_eq]
  · split
    · rw [receiveQueueProcessAll_eq]
      simp
    · simp [invokeEntries]

theorem queueProcessAll_eq (s : State svc) :
    queueProcessAll s = ({ s with queue := [] }, invokeEntries s.queue) := by
  rw [queueProcessAll, receiveQueueProcessAll_eq]

/-- **What `cmsg_server_queue_process` does.** It is idle in `DISABLED`; else it
takes the entries asked for, and in `TO_DISABLED` an empty queue ends the drain. -/
theorem queueProcess_cases (s : State svc) :
    (s.queueingState = .disabled ∧
      queueProcess s = ({ s with queueingStateLast := .disabled }, [])) ∨
    (s.queueingState = .enabled ∧ queueProcess s =
      ({ s with queue := s.queue.drop (requested s), queueingStateLast := .enabled },
        invokeEntries (s.queue.take (requested s)))) ∨
    (s.queueingState = .toDisabled ∧ s.queue.drop (requested s) = [] ∧ queueProcess s =
      ({ s with
          queue := []
          queueProcessNumber := 0
          queueInProcess := false
          filters := queueFilterClearAll (beginDrain s).filters
          queueingState := .disabled
          queueingStateLast := .disabled }, invokeEntries s.queue)) ∨
    (s.queueingState = .toDisabled ∧ s.queue.drop (requested s) ≠ [] ∧ queueProcess s =
      ({ beginDrain s with
          queue := s.queue.drop (requested s)
          queueingStateLast := .toDisabled }, invokeEntries (s.queue.take (requested s)))) := by
  cases hs : s.queueingState with
  | disabled => exact .inl ⟨rfl, by simp [queueProcess, hs]⟩
  | enabled => exact .inr (.inl ⟨rfl, by simp [queueProcess, hs, processRequested_eq]⟩)
  | toDisabled =>
    have hr : requested (beginDrain s) = requested s := by
      unfold beginDrain requested
      split <;> rfl
    have hq : (beginDrain s).queue = s.queue := by
      unfold beginDrain
      split <;> rfl
    have hst : (beginDrain s).queueingState = .toDisabled := by
      unfold beginDrain
      split <;> exact hs
    by_cases hd : s.queue.drop (requested s) = []
    · have htake : s.queue.take (requested s) = s.queue :=
        List.take_of_length_le (List.drop_eq_nil_iff.mp hd)
      refine .inr (.inr (.inl ⟨rfl, hd, ?_⟩))
      simp only [queueProcess, hs, processRequested_eq, hr, hq, hd, htake, endDrain, List.length_nil,
        if_true]
      unfold beginDrain
      split <;> rfl
    · refine .inr (.inr (.inr ⟨rfl, hd, ?_⟩))
      have hlen : ¬ (s.queue.drop (requested s)).length = 0 := fun h =>
        hd (List.length_eq_zero_iff.mp h)
      simp only [queueProcess, hs, processRequested_eq, hr, hq, endDrain, if_neg hlen, hst]

/-- Every call of the application takes some entries from the front of the queue
and invokes them. -/
theorem serverStep_takes (s : State svc) (op : Op svc) (h : ∀ r, op ≠ .receive r) :
    ∃ k, (serverStep s op).1.queue = s.queue.drop k ∧
      (serverStep s op).2 = invokeEntries (s.queue.take k) := by
  have hq : ∀ s : State svc, ∃ k, (queueProcess s).1.queue = s.queue.drop k ∧
      (queueProcess s).2 = invokeEntries (s.queue.take k) := by
    intro s
    rcases queueProcess_cases s with ⟨_, he⟩ | ⟨_, he⟩ | ⟨_, _, he⟩ | ⟨_, _, he⟩
    · exact ⟨0, by rw [he]; rfl, by rw [he]; rfl⟩
    · exact ⟨requested s, by rw [he], by rw [he]⟩
    · exact ⟨s.queue.length, by rw [he, List.drop_length], by rw [he, List.take_length]⟩
    · exact ⟨requested s, by rw [he], by rw [he]⟩
  cases op with
  | receive r => exact absurd rfl (h r)
  | queueProcess => exact hq s
  | queueProcessSome n => exact hq { s with queueProcessNumber := n }
  | queueProcessAll =>
    refine ⟨s.queue.length, ?_, ?_⟩
    · rw [serverStep, queueProcessAll_eq, List.drop_length]
    · rw [serverStep, queueProcessAll_eq, List.take_length]
  | _ => exact ⟨0, rfl, rfl⟩

end Cmsg.Server
