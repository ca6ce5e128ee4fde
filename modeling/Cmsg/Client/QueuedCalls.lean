import Cmsg.Client.SendQueue
import Cmsg.Server.Filter
import Mathlib.Data.List.Perm.Basic

/-! # Calls on a client that queues

A call on a one-way client is refused, dropped, queued or sent by its own thread, as
the filter function of the application says or else the filter table. `callStep` takes
the sections of any number of calling threads, of a thread that changes the filters and
of the one that empties the queue one at a time, in any order. Every message that was
accepted is accounted for at every point of a run. -/
namespace Cmsg.Client
open Cmsg.Base Cmsg.Base.Runs Cmsg.Wire
open Cmsg.Server (QueueFilterType FilterTable queueFilterInit queueFilterSet queueFilterSetAll
  queueFilterLookup)

/-- A method with the message it is called with. -/
structure Call where
  methodName : CString
  input : Input
deriving DecidableEq, Repr

/-- What the filter function of the application does for a call: whether it returns
`CMSG_RET_OK`, and the action it leaves. `none` where no function is set. -/
abbrev FilterAnswer := Option (Bool × QueueFilterType)

/-- Where the thread of a call is: about to push its packet, to count it and to call
back, or waiting for `invoke_mutex` and holding it. -/
inductive CallStage
  | queueing (call : Call)
  | pushed (call : Call)
  | counted (call : Call)
  | locking (call : Call)
  | sending (call : Call)
deriving DecidableEq

/-- A client with the calls in flight on it, in no order. -/
structure QueuedClient (names : List CString) where
  filters : FilterTable names
  queue : SendQueueState
  calls : List CallStage
  invokeLocked : Bool

inductive CallAction
  | invoke (call : Call) (answer : FilterAnswer)
  /-- The `i`-th call makes its packet and pushes it; `entry` says that the allocations in
  the push succeed. -/
  | push (i : Nat) (calloc : Nat → Bool) (entry : Bool)
  | count (i : Nat)
  | callback (i : Nat) (configured : Bool)
  | lock (i : Nat)
  /-- The `i`-th call makes its packet and sends it, on the connection as it is then. -/
  | send (i : Nat) (calloc : Nat → Bool) (state : ClientState) (first second : Attempt)
  | setFilter (methodName : CString) (type : QueueFilterType)
  | processAll
  | process (sends : Bool)

inductive CallEvent
  | looked (call : Call) (action : QueueFilterType)
  | queue (event : SendQueueEvent)
  /-- The push failed, which the call does not report. -/
  | unqueued (entry : SendQueueEntry)
  /-- The thread of the call sent the packet. -/
  | direct (entry : SendQueueEntry)
  | failed (call : Call)
  /-- The packet was taken out of the queue and freed. -/
  | discarded (entry : SendQueueEntry)
  | callback (methodName : CString)
  | returned (call : Call) (ret : RetCode)

variable {names : List CString}

/-- A client as `cmsg_client_init` makes it. -/
def queuedClientInit (names : List CString) : QueuedClient names :=
  ⟨queueFilterInit names, sendQueueInit, [], false⟩

/-- The action that `_cmsg_client_should_queue` finds for a method. -/
def queueAction (filters : FilterTable names) (methodName : CString) :
    FilterAnswer → QueueFilterType
  | some (true, action) => action
  | some (false, _) | none => queueFilterLookup filters methodName

/-- `_cmsg_client_should_queue`, what it returns and `do_queue`. -/
def shouldQueue : QueueFilterType → RetCode × Bool
  | .error => (.err, false)
  | .drop => (.dropped, false)
  | .queue => (.ok, true)
  | .process => (.ok, false)

def takeCall (calls : List CallStage) (i : Nat) : Option (CallStage × List CallStage) :=
  calls[i]?.map fun c => (c, calls.eraseIdx i)

/-- What a section of `cmsg_client_queue_process_all` takes out of the queue without
having sent it. -/
def discards (client : SendClient) (s : SendQueueState) (sends : Bool) : List SendQueueEntry :=
  match s.stage with
  | .sending entry c => if sends then [] else if c < clientSendTries then [] else [entry]
  | .freeAll => s.queue.filter fun _ => client.comparable
  | _ => []

/-- One section of `cmsg_client_invoke`, of a change of the filters, or of
`cmsg_client_queue_process_all`. -/
def callStep (client : SendClient) : Machine (QueuedClient names) CallAction CallEvent
  | s, .invoke call answer =>
    let action := queueAction s.filters call.methodName answer
    match shouldQueue action with
    | (.ok, true) => some ({ s with calls := .queueing call :: s.calls }, [.looked call action])
    | (.ok, false) => some ({ s with calls := .locking call :: s.calls }, [.looked call action])
    | (ret, _) => some (s, [.looked call action, .returned call ret])
  | s, .push i calloc entry =>
    match takeCall s.calls i with
    | some (.queueing call, calls) =>
      match createPacket calloc call.methodName call.input with
      | none => some ({ s with calls }, [.failed call, .returned call .err])
      | some packet =>
        (sendStep client s.queue (.push ⟨packet, call.methodName⟩ entry)).map fun r =>
          ({ s with queue := r.1, calls := .pushed call :: calls },
            r.2.map .queue ++ if entry then [] else [.unqueued ⟨packet, call.methodName⟩])
    | _ => none
  | s, .count i =>
    match takeCall s.calls i with
    | some (.pushed call, calls) =>
      (sendStep client s.queue .count).map fun r =>
        ({ s with queue := r.1, calls := .counted call :: calls }, r.2.map .queue)
    | _ => none
  | s, .callback i configured =>
    match takeCall s.calls i with
    | some (.counted call, calls) =>
      some ({ s with calls }, (if configured then [.callback call.methodName] else []) ++
        [.returned call .queued])
    | _ => none
  | s, .lock i =>
    match takeCall s.calls i, s.invokeLocked with
    | some (.locking call, calls), false =>
      some ({ s with calls := .sending call :: calls, invokeLocked := true }, [])
    | _, _ => none
  | s, .send i calloc state first second =>
    match takeCall s.calls i with
    | some (.sending call, calls) =>
      match createPacket calloc call.methodName call.input with
      | none => some ({ s with calls, invokeLocked := false }, [.failed call, .returned call .err])
      | some packet =>
        let ret := (bufferSendRetryOnce state first second packet).1
        some ({ s with calls, invokeLocked := false },
          [if ret = .ok then .direct ⟨packet, call.methodName⟩ else .failed call,
            .returned call ret])
    | _ => none
  | s, .setFilter methodName type =>
    some ({ s with filters := (queueFilterSet s.filters methodName type).1 }, [])
  | s, .processAll =>
    (sendStep client s.queue .processAll).map fun r => ({ s with queue := r.1 }, r.2.map .queue)
  | s, .process sends =>
    (sendStep client s.queue (.process sends)).map fun r =>
      ({ s with queue := r.1 },
        r.2.map .queue ++ (discards client s.queue sends).map .discarded)

/-! ## The messages of a run -/

/-- The message of a call as it is queued and sent, if it can be packed. -/
def Call.entry (call : Call) : Option SendQueueEntry :=
  (createPacket (fun _ => true) call.methodName call.input).map (⟨·, call.methodName⟩)

/-- The messages of the calls that were let through. -/
def CallEvent.accepted : CallEvent → List SendQueueEntry
  | .looked call action => if (shouldQueue action).1 = .ok then call.entry.toList else []
  | _ => []

def CallEvent.sent : CallEvent → List SendQueueEntry
  | .queue (.sent entry) | .direct entry => [entry]
  | _ => []

def CallEvent.lost : CallEvent → List SendQueueEntry
  | .unqueued entry | .discarded entry => [entry]
  | .failed call => call.entry.toList
  | _ => []

/-- The messages that are yet to be pushed or sent. -/
def CallStage.entries : CallStage → List SendQueueEntry
  | .queueing call | .locking call | .sending call => call.entry.toList
  | .pushed _ | .counted _ => []

def CallStage.isPushed : CallStage → Bool
  | .pushed _ => true
  | _ => false

def CallStage.isSending : CallStage → Bool
  | .sending _ => true
  | _ => false

def acceptedEntries (events : List CallEvent) : List SendQueueEntry :=
  events.flatMap CallEvent.accepted

def allSent (events : List CallEvent) : List SendQueueEntry := events.flatMap CallEvent.sent

def lostEntries (events : List CallEvent) : List SendQueueEntry := events.flatMap CallEvent.lost

/-- The messages of the calls that returned `CMSG_RET_QUEUED`. -/
def CallEvent.reported : CallEvent → List SendQueueEntry
  | .returned call .queued => call.entry.toList
  | _ => []

def CallEvent.unqueuedEntry : CallEvent → List SendQueueEntry
  | .unqueued entry => [entry]
  | _ => []

/-- The messages of the calls that are going to return `CMSG_RET_QUEUED`. -/
def CallStage.reporting : CallStage → List SendQueueEntry
  | .pushed call | .counted call => call.entry.toList
  | _ => []

def reportedEntries (events : List CallEvent) : List SendQueueEntry :=
  events.flatMap CallEvent.reported

def unqueuedEntries (events : List CallEvent) : List SendQueueEntry :=
  events.flatMap CallEvent.unqueuedEntry

/-- What happened to the queue. -/
def queueEvents (events : List CallEvent) : List SendQueueEvent :=
  events.filterMap fun
    | .queue event => some event
    | _ => none

/-- The messages that the client holds: in the hand of its thread, queued, and of the
calls in flight. -/
def QueuedClient.held (s : QueuedClient names) : List SendQueueEntry :=
  s.queue.stage.current ++ s.queue.queue ++ s.calls.flatMap CallStage.entries

@[simp] theorem acceptedEntries_cons (event : CallEvent) (events : List CallEvent) :
    acceptedEntries (event :: events) = event.accepted ++ acceptedEntries events :=
  List.flatMap_cons ..

@[simp] theorem allSent_cons (event : CallEvent) (events : List CallEvent) :
    allSent (event :: events) = event.sent ++ allSent events :=
  List.flatMap_cons ..

@[simp] theorem lostEntries_cons (event : CallEvent) (events : List CallEvent) :
    lostEntries (event :: events) = event.lost ++ lostEntries events :=
  List.flatMap_cons ..

@[simp] theorem acceptedEntries_nil : acceptedEntries [] = [] := rfl

@[simp] theorem allSent_nil : allSent [] = [] := rfl

@[simp] theorem lostEntries_nil : lostEntries [] = [] := rfl

theorem acceptedEntries_append (xs ys : List CallEvent) :
    acceptedEntries (xs ++ ys) = acceptedEntries xs ++ acceptedEntries ys :=
  List.flatMap_append

theorem allSent_append (xs ys : List CallEvent) : allSent (xs ++ ys) = allSent xs ++ allSent ys :=
  List.flatMap_append

theorem lostEntries_append (xs ys : List CallEvent) :
    lostEntries (xs ++ ys) = lostEntries xs ++ lostEntries ys :=
  List.flatMap_append

theorem queueEvents_append (xs ys : List CallEvent) :
    queueEvents (xs ++ ys) = queueEvents xs ++ queueEvents ys :=
  List.filterMap_append

theorem reportedEntries_append (xs ys : List CallEvent) :
    reportedEntries (xs ++ ys) = reportedEntries xs ++ reportedEntries ys :=
  List.flatMap_append

theorem unqueuedEntries_append (xs ys : List CallEvent) :
    unqueuedEntries (xs ++ ys) = unqueuedEntries xs ++ unqueuedEntries ys :=
  List.flatMap_append

@[simp] theorem acceptedEntries_map_queue (o : List SendQueueEvent) :
    acceptedEntries (o.map .queue) = [] := by
  simp [acceptedEntries, List.flatMap_map, CallEvent.accepted]

@[simp] theorem allSent_map_queue (o : List SendQueueEvent) :
    allSent (o.map .queue) = sentEntries o := by
  induction o with
  | nil => rfl
  | cons event o ih =>
    cases event with
    | pushed entry => exact ih
    | sent entry => exact congrArg (entry :: ·) ih

@[simp] theorem lostEntries_map_queue (o : List SendQueueEvent) :
    lostEntries (o.map .queue) = [] := by
  simp [lostEntries, List.flatMap_map, CallEvent.lost]

@[simp] theorem queueEvents_map_queue (o : List SendQueueEvent) :
    queueEvents (o.map .queue) = o := by
  simp [queueEvents, List.filterMap_map]

@[simp] theorem reportedEntries_map_queue (o : List SendQueueEvent) :
    reportedEntries (o.map .queue) = [] := by
  simp [reportedEntries, List.flatMap_map, CallEvent.reported]

@[simp] theorem unqueuedEntries_map_queue (o : List SendQueueEvent) :
    unqueuedEntries (o.map .queue) = [] := by
  simp [unqueuedEntries, List.flatMap_map, CallEvent.unqueuedEntry]

@[simp] theorem acceptedEntries_map_discarded (entries : List SendQueueEntry) :
    acceptedEntries (entries.map .discarded) = [] := by
  simp [acceptedEntries, List.flatMap_map, CallEvent.accepted]

@[simp] theorem allSent_map_discarded (entries : List SendQueueEntry) :
    allSent (entries.map .discarded) = [] := by
  simp [allSent, List.flatMap_map, CallEvent.sent]

@[simp] theorem lostEntries_map_discarded (entries : List SendQueueEntry) :
    lostEntries (entries.map .discarded) = entries := by
  simp [lostEntries, List.flatMap_map, CallEvent.lost]

@[simp] theorem reportedEntries_map_discarded (entries : List SendQueueEntry) :
    reportedEntries (entries.map .discarded) = [] := by
  simp [reportedEntries, List.flatMap_map, CallEvent.reported]

@[simp] theorem unqueuedEntries_map_discarded (entries : List SendQueueEntry) :
    unqueuedEntries (entries.map .discarded) = [] := by
  simp [unqueuedEntries, List.flatMap_map, CallEvent.unqueuedEntry]

@[simp] theorem queueEvents_map_discarded (entries : List SendQueueEntry) :
    queueEvents (entries.map .discarded) = [] := by
  simp [queueEvents, List.filterMap_map]

/-- The packet does not depend on which allocations would have failed. -/
theorem Call.entry_of_createPacket {call : Call} {calloc : Nat → Bool} {packet : List UInt8}
    (h : createPacket calloc call.methodName call.input = some packet) :
    call.entry = some ⟨packet, call.methodName⟩ := by
  have hpacket : createPacket (fun _ => true) call.methodName call.input = some packet := by
    unfold createPacket at h ⊢
    dsimp only at h ⊢
    split at h
    · cases h
    · exact h
  rw [Call.entry, hpacket]
  rfl

theorem takeCall_perm {calls rest : List CallStage} {i : Nat} {c : CallStage}
    (h : takeCall calls i = some (c, rest)) : calls.Perm (c :: rest) := by
  obtain ⟨d, hd, he⟩ := Option.map_eq_some_iff.mp h
  obtain ⟨rfl, rfl⟩ := Prod.mk.inj he
  obtain ⟨hi, rfl⟩ := List.getElem?_eq_some_iff.mp hd
  exact (List.getElem_cons_eraseIdx_perm hi).symm

/-! ## What a section does -/

/-- What one section does. -/
inductive CallSection (client : SendClient) (s : QueuedClient names) :
    CallAction → QueuedClient names → List CallEvent → Prop
  | refused (call : Call) (answer : FilterAnswer) {action : QueueFilterType}
      (ha : queueAction s.filters call.methodName answer = action)
      (h : (shouldQueue action).1 ≠ .ok) :
      CallSection client s (.invoke call answer) s
        [.looked call action, .returned call (shouldQueue action).1]
  | accepted (call : Call) (answer : FilterAnswer) {action : QueueFilterType} {stage : CallStage}
      (ha : queueAction s.filters call.methodName answer = action)
      (h : (action = .queue ∧ stage = .queueing call) ∨
        (action = .process ∧ stage = .locking call)) :
      CallSection client s (.invoke call answer) { s with calls := stage :: s.calls }
        [.looked call action]
  | unpacked {i : Nat} (calloc : Nat → Bool) (entry : Bool) {call : Call} {calls : List CallStage}
      (ht : takeCall s.calls i = some (.queueing call, calls)) :
      CallSection client s (.push i calloc entry) { s with calls }
        [.failed call, .returned call .err]
  | pushed {i : Nat} (calloc : Nat → Bool) (entry : Bool) {call : Call} {calls : List CallStage}
      {packet : SendQueueEntry} {queue : SendQueueState} {o : List SendQueueEvent}
      (ht : takeCall s.calls i = some (.queueing call, calls)) (hp : call.entry = some packet)
      (hq : sendStep client s.queue (.push packet entry) = some (queue, o)) :
      CallSection client s (.push i calloc entry) { s with queue, calls := .pushed call :: calls }
        (o.map .queue ++ if entry then [] else [.unqueued packet])
  | counted {i : Nat} {call : Call} {calls : List CallStage} {queue : SendQueueState}
      {o : List SendQueueEvent} (ht : takeCall s.calls i = some (.pushed call, calls))
      (hq : sendStep client s.queue .count = some (queue, o)) :
      CallSection client s (.count i) { s with queue, calls := .counted call :: calls }
        (o.map .queue)
  | calledBack {i : Nat} (configured : Bool) {call : Call} {calls : List CallStage}
      (ht : takeCall s.calls i = some (.counted call, calls)) :
      CallSection client s (.callback i configured) { s with calls }
        ((if configured then [.callback call.methodName] else []) ++ [.returned call .queued])
  | locked {i : Nat} {call : Call} {calls : List CallStage}
      (ht : takeCall s.calls i = some (.locking call, calls)) (hl : s.invokeLocked = false) :
      CallSection client s (.lock i)
        { s with calls := .sending call :: calls, invokeLocked := true } []
  | unsent {i : Nat} (calloc : Nat → Bool) (state : ClientState) (first second : Attempt)
      {call : Call} {calls : List CallStage} {ret : RetCode}
      (ht : takeCall s.calls i = some (.sending call, calls)) (hret : ret ≠ .queued) :
      CallSection client s (.send i calloc state first second)
        { s with calls, invokeLocked := false } [.failed call, .returned call ret]
  | sent {i : Nat} (calloc : Nat → Bool) (state : ClientState) (first second : Attempt)
      {call : Call} {calls : List CallStage} {packet : SendQueueEntry}
      (ht : takeCall s.calls i = some (.sending call, calls)) (hp : call.entry = some packet) :
      CallSection client s (.send i calloc state first second)
        { s with calls, invokeLocked := false } [.direct packet, .returned call .ok]
  | setFilter (methodName : CString) (type : QueueFilterType) :
      CallSection client s (.setFilter methodName type)
        { s with filters := (queueFilterSet s.filters methodName type).1 } []
  | processAll {queue : SendQueueState} {o : List SendQueueEvent}
      (hq : sendStep client s.queue .processAll = some (queue, o)) :
      CallSection client s .processAll { s with queue } (o.map .queue)
  | process (sends : Bool) {queue : SendQueueState} {o : List SendQueueEvent}
      (hq : sendStep client s.queue (.process sends) = some (queue, o)) :
      CallSection client s (.process sends) { s with queue }
        (o.map .queue ++ (discards client s.queue sends).map .discarded)

section
variable {client : SendClient} {s s' : QueuedClient names} {action : CallAction}
  {o : List CallEvent}

/-- The calling thread looks its method up. -/
theorem callStep_invoke {call : Call} {answer : FilterAnswer}
    (h : callStep client s (.invoke call answer) = some (s', o)) :
    CallSection client s (.invoke call answer) s' o := by
  simp only [callStep] at h
  cases ha : queueAction s.filters call.methodName answer with
  | error | drop =>
    rw [ha] at h
    cases h
    exact .refused call answer ha (by simp [shouldQueue])
  | queue =>
    rw [ha] at h
    cases h
    exact .accepted call answer ha (.inl ⟨rfl, rfl⟩)
  | process =>
    rw [ha] at h
    cases h
    exact .accepted call answer ha (.inr ⟨rfl, rfl⟩)

/-- A call is pushed, if its packet can be made. -/
theorem callStep_push {i : Nat} {calloc : Nat → Bool} {entry : Bool}
    (h : callStep client s (.push i calloc entry) = some (s', o)) :
    CallSection client s (.push i calloc entry) s' o := by
  simp only [callStep] at h
  split at h
  · next call calls ht =>
    cases hp : createPacket calloc call.methodName call.input with
    | none =>
      rw [hp] at h
      cases h
      exact .unpacked calloc entry ht
    | some packet =>
      rw [hp] at h
      obtain ⟨⟨queue, o₁⟩, hq, he⟩ := Option.map_eq_some_iff.mp h
      cases he
      exact .pushed calloc entry ht (Call.entry_of_createPacket hp) hq
  · cases h

theorem bufferSendRetryOnce_ne_queued (state : ClientState) (first second : Attempt)
    (buffer : List UInt8) : (bufferSendRetryOnce state first second buffer).1 ≠ .queued := by
  unfold bufferSendRetryOnce
  dsimp only
  repeat' split
  all_goals simp

/-- A call is sent by its own thread, if its packet can be made. -/
theorem callStep_send {i : Nat} {calloc : Nat → Bool} {state : ClientState}
    {first second : Attempt}
    (h : callStep client s (.send i calloc state first second) = some (s', o)) :
    CallSection client s (.send i calloc state first second) s' o := by
  simp only [callStep] at h
  split at h
  · next call calls ht =>
    cases hp : createPacket calloc call.methodName call.input with
    | none =>
      rw [hp] at h
      cases h
      exact .unsent calloc state first second ht (by simp)
    | some packet =>
      rw [hp] at h
      by_cases hret : (bufferSendRetryOnce state first second packet).1 = .ok
      · simp only [hret, if_true] at h
        cases h
        exact .sent calloc state first second ht (Call.entry_of_createPacket hp)
      · simp only [hret, if_false] at h
        cases h
        exact .unsent calloc state first second ht
          (bufferSendRetryOnce_ne_queued state first second packet)
  · cases h

theorem callStep_cases (h : callStep client s action = some (s', o)) :
    CallSection client s action s' o := by
  cases action with
  | invoke call answer => exact callStep_invoke h
  | push i calloc entry => exact callStep_push h
  | send i calloc state first second => exact callStep_send h
  | count i =>
    simp only [callStep] at h
    split at h
    · next call calls ht =>
      obtain ⟨⟨queue, o₁⟩, hq, he⟩ := Option.map_eq_some_iff.mp h
      cases he
      exact .counted ht hq
    · cases h
  | callback i configured =>
    simp only [callStep] at h
    split at h
    · next call calls ht =>
      cases h
      exact .calledBack configured ht
    · cases h
  | lock i =>
    simp only [callStep] at h
    split at h
    · next call calls ht hl =>
      cases h
      exact .locked ht hl
    · cases h
  | setFilter methodName type =>
    cases h
    exact .setFilter methodName type
  | processAll =>
    obtain ⟨⟨queue, o₁⟩, hq, he⟩ := Option.map_eq_some_iff.mp h
    cases he
    exact .processAll hq
  | process sends =>
    obtain ⟨⟨queue, o₁⟩, hq, he⟩ := Option.map_eq_some_iff.mp h
    cases he
    exact .process sends hq

end

/-! ## The accounts -/

section
variable {client : SendClient}

theorem sendQueueFreeAllByTransport_eq (client : SendClient) (queue : List SendQueueEntry) :
    sendQueueFreeAllByTransport client queue = queue.filter fun _ => !client.comparable := by
  have h := sendQueueFreeLoop_append (fun _ => client.comparable) queue []
  rwa [List.append_nil, List.nil_append] at h

/-- What one section of `cmsg_client_queue_process_all` does. -/
inductive ProcessSection (client : SendClient) (q : SendQueueState) :
    Bool → SendQueueState → List SendQueueEvent → Prop
  | waited {sends : Bool} (hst : q.stage = .waiting) : ProcessSection client q sends q []
  | woken {sends : Bool} (hst : q.stage = .waiting) :
      ProcessSection client q sends { q with stage := .popFirst } []
  | emptied {sends : Bool} (hst : q.stage = .popFirst ∨ q.stage = .popNext) (hq : q.queue = []) :
      ProcessSection client q sends { q with stage := afterDirect client } []
  | popped {sends : Bool} {entry : SendQueueEntry} {queue : List SendQueueEntry}
      (hst : q.stage = .popFirst ∨ q.stage = .popNext) (hq : q.queue = entry :: queue) :
      ProcessSection client q sends { q with queue, stage := .sending entry 0 } []
  | sent {entry : SendQueueEntry} {c : Nat} (hst : q.stage = .sending entry c) :
      ProcessSection client q true { q with stage := .popNext } [.sent entry]
  | retried {entry : SendQueueEntry} {c : Nat} (hst : q.stage = .sending entry c)
      (hc : c < clientSendTries) :
      ProcessSection client q false { q with stage := .sending entry (c + 1) } []
  | givenUp {entry : SendQueueEntry} {c : Nat} (hst : q.stage = .sending entry c)
      (hc : ¬ c < clientSendTries) : ProcessSection client q false { q with stage := .freeAll } []
  | freed {sends : Bool} (hst : q.stage = .freeAll) :
      ProcessSection client q sends
        { q with
          queue := q.queue.filter fun _ => !client.comparable, stage := afterDirect client } []
  | countedDown {sends : Bool} (hst : q.stage = .countDown) :
      ProcessSection client q sends
        { q with queueProcessCount := sub32 q.queueProcessCount 1, stage := .idle } []

theorem sendStep_process_cases {q q' : SendQueueState} {sends : Bool} {o : List SendQueueEvent}
    (h : sendStep client q (.process sends) = some (q', o)) :
    ProcessSection client q sends q' o := by
  obtain ⟨queue, c, pushed, stage⟩ := q
  simp only [sendStep, processSection] at h
  cases stage with
  | idle => cases h
  | waiting =>
    cases h
    split
    · exact .waited rfl
    · exact .woken rfl
  | popFirst =>
    cases queue with
    | nil =>
      cases h
      exact .emptied (.inl rfl) rfl
    | cons entry queue =>
      cases h
      exact .popped (.inl rfl) rfl
  | popNext =>
    cases queue with
    | nil =>
      cases h
      exact .emptied (.inr rfl) rfl
    | cons entry queue =>
      cases h
      exact .popped (.inr rfl) rfl
  | sending entry c =>
    cases sends with
    | true =>
      cases h
      exact .sent rfl
    | false =>
      dsimp only at h
      rw [if_neg Bool.false_ne_true] at h
      split at h
      · next hc =>
        cases h
        exact .retried rfl hc
      · next hc =>
        cases h
        exact .givenUp rfl hc
  | freeAll =>
    cases h
    rw [sendQueueFreeAllByTransport_eq]
    exact .freed rfl
  | countDown =>
    cases h
    exact .countedDown rfl

/-- The thread that empties the queue sends what it took out of it, or frees it. -/
theorem sendStep_process_perm {q q' : SendQueueState} {sends : Bool} {o : List SendQueueEvent}
    (h : sendStep client q (.process sends) = some (q', o)) :
    (q.stage.current ++ q.queue).Perm
      (sentEntries o ++ discards client q sends ++ (q'.stage.current ++ q'.queue)) := by
  cases sendStep_process_cases h with
  | waited hst | woken hst | countedDown hst =>
    simp [hst, ProcessStage.current, sentEntries, discards]
  | emptied hst hq =>
    dsimp only
    rw [afterDirect_current]
    obtain hst | hst := hst
    · simp [hst, hq, ProcessStage.current, sentEntries, discards]
    · simp [hst, hq, ProcessStage.current, sentEntries, discards]
  | popped hst hq =>
    obtain hst | hst := hst
    · simp [hst, hq, ProcessStage.current, sentEntries, discards]
    · simp [hst, hq, ProcessStage.current, sentEntries, discards]
  | sent hst => simp [hst, ProcessStage.current, sentEntries, discards]
  | retried hst hc | givenUp hst hc =>
    simp [hst, hc, ProcessStage.current, sentEntries, discards]
  | freed hst =>
    dsimp only
    rw [afterDirect_current]
    simp only [hst, ProcessStage.current, discards]
    exact (List.filter_append_perm (fun _ => client.comparable) q.queue).symm

variable {s s' : QueuedClient names} {action : CallAction} {o : List CallEvent}

/-- A call that leaves the client takes its message along. -/
theorem held_takeCall {i : Nat} {stage : CallStage} {calls : List CallStage}
    (ht : takeCall s.calls i = some (stage, calls)) :
    s.held.Perm (stage.entries ++ { s with calls }.held) := by
  have hcalls := ((takeCall_perm ht).flatMap_right CallStage.entries).append_left
    (s.queue.stage.current ++ s.queue.queue)
  refine hcalls.trans ?_
  rw [List.flatMap_cons]
  exact List.perm_append_comm_assoc _ _ _

/-- A call comes with its message. -/
theorem held_cons (stage : CallStage) (calls : List CallStage) :
    { s with calls := stage :: calls }.held.Perm (stage.entries ++ { s with calls }.held) := by
  unfold QueuedClient.held
  rw [List.flatMap_cons]
  exact List.perm_append_comm_assoc _ _ _

/-- A section of the queue alone. -/
theorem held_queue {q : SendQueueState} {l : List SendQueueEntry}
    (h : (s.queue.stage.current ++ s.queue.queue).Perm (l ++ (q.stage.current ++ q.queue))) :
    s.held.Perm (l ++ { s with queue := q }.held) := by
  have hcalls := h.append_right (s.calls.flatMap CallStage.entries)
  rwa [List.append_assoc l] at hcalls

theorem sendStep_push {q q' : SendQueueState} {entry : SendQueueEntry} {calloc : Bool}
    {o : List SendQueueEvent} (h : sendStep client q (.push entry calloc) = some (q', o)) :
    q'.stage = q.stage ∧ q'.queue = q.queue ++ (if calloc then [entry] else []) ∧
      q'.pushed = q.pushed + 1 ∧ sentEntries o = [] := by
  cases h
  cases calloc with
  | true => exact ⟨rfl, rfl, rfl, rfl⟩
  | false => exact ⟨rfl, (List.append_nil _).symm, rfl, rfl⟩

theorem sendStep_count {q q' : SendQueueState} {o : List SendQueueEvent}
    (h : sendStep client q .count = some (q', o)) :
    q'.stage = q.stage ∧ q'.queue = q.queue ∧ q'.pushed = q.pushed - 1 ∧ o = [] := by
  simp only [sendStep, Option.ite_none_left_eq_some, Option.some.injEq, Prod.mk.injEq] at h
  obtain ⟨-, rfl, rfl⟩ := h
  exact ⟨rfl, rfl, rfl, rfl⟩

theorem sendStep_processAll {q q' : SendQueueState} {o : List SendQueueEvent}
    (h : sendStep client q .processAll = some (q', o)) :
    q.stage = .idle ∧ q' = { q with stage := if client.ownThread then .popFirst else .waiting } ∧
      o = [] := by
  simp only [sendStep] at h
  split at h
  · next hst =>
    cases h
    exact ⟨hst, rfl, rfl⟩
  · cases h

/-- Each section accounts for the messages that it moves. -/
theorem callSection_perm (h : CallSection client s action s' o) :
    (acceptedEntries o ++ s.held).Perm (allSent o ++ lostEntries o ++ s'.held) := by
  cases h with
  | refused call answer ha hr => simp [CallEvent.accepted, CallEvent.sent, CallEvent.lost, hr]
  | accepted call answer ha hr =>
    obtain ⟨rfl, rfl⟩ | ⟨rfl, rfl⟩ := hr
    · simpa [CallEvent.accepted, CallEvent.sent, CallEvent.lost, shouldQueue, CallStage.entries]
        using (held_cons (s := s) (.queueing call) s.calls).symm
    · simpa [CallEvent.accepted, CallEvent.sent, CallEvent.lost, shouldQueue, CallStage.entries]
        using (held_cons (s := s) (.locking call) s.calls).symm
  | unpacked calloc entry ht =>
    simpa [CallEvent.accepted, CallEvent.sent, CallEvent.lost, CallStage.entries]
      using held_takeCall ht
  | pushed calloc entry ht hp hq =>
    obtain ⟨hstage, hqueue, -, hsent⟩ := sendStep_push hq
    refine List.perm_iff_count.mpr fun e => ?_
    have hcount := (held_takeCall ht).count_eq e
    cases entry with
    | true =>
      simp [QueuedClient.held, CallStage.entries, hp, hstage, hqueue, hsent,
        List.count_cons] at hcount ⊢
      omega
    | false =>
      simp [QueuedClient.held, CallStage.entries, hp, hstage, hqueue, acceptedEntries_append,
        allSent_append, lostEntries_append, hsent, CallEvent.accepted, CallEvent.sent,
        CallEvent.lost, List.count_cons] at hcount ⊢
      omega
  | counted ht hq =>
    obtain ⟨hstage, hqueue, -, rfl⟩ := sendStep_count hq
    refine (held_takeCall ht).trans ?_
    unfold QueuedClient.held
    rw [hstage, hqueue]
    exact List.Perm.refl _
  | calledBack configured ht =>
    cases configured with
    | true => exact held_takeCall ht
    | false => exact held_takeCall ht
  | locked ht hl => exact (held_takeCall ht).trans (held_cons _ _).symm
  | @unsent i calloc state first second call calls ret ht hret =>
    have hheld : s.held.Perm (call.entry.toList ++
        { s with calls, invokeLocked := false }.held) := held_takeCall ht
    simpa [CallEvent.accepted, CallEvent.sent, CallEvent.lost] using hheld
  | sent calloc state first second ht hp =>
    have hheld := held_takeCall ht
    simp only [CallStage.entries, hp] at hheld
    exact hheld
  | setFilter methodName type => exact List.Perm.refl _
  | processAll hq =>
    obtain ⟨hst, rfl, rfl⟩ := sendStep_processAll hq
    refine held_queue (l := []) ?_
    rw [hst]
    split
    · exact List.Perm.refl _
    · exact List.Perm.refl _
  | process sends hq =>
    have hheld := held_queue (sendStep_process_perm hq)
    simpa [acceptedEntries_append, allSent_append, lostEntries_append] using hheld

/-! ## Every section -/

/-- The count is not at its largest value when it is counted up. -/
def CallFits (s : QueuedClient names) : CallAction → Prop
  | .count _ => s.queue.queueProcessCount + 1 < word32
  | _ => True

/-- A section leaves the queue alone, or is one of the queue's own. -/
theorem callSection_queue (h : CallSection client s action s' o) :
    (s'.queue = s.queue ∧ queueEvents o = []) ∨
      ∃ a, sendStep client s.queue a = some (s'.queue, queueEvents o) ∧
        (CallFits s action → CountFits s.queue a) := by
  cases h with
  | refused | accepted | unpacked | locked | unsent | sent | setFilter => exact .inl ⟨rfl, rfl⟩
  | calledBack configured =>
    cases configured with
    | true | false => exact .inl ⟨rfl, rfl⟩
  | @pushed _ _ entry _ _ packet _ _ _ _ hq =>
    refine .inr ⟨.push packet entry, ?_, fun _ => trivial⟩
    cases entry with
    | true => simpa [queueEvents_append] using hq
    | false => simpa [queueEvents_append, queueEvents] using hq
  | counted _ hq => exact .inr ⟨.count, by simpa using hq, fun hfits => hfits⟩
  | processAll hq => exact .inr ⟨.processAll, by simpa using hq, fun _ => trivial⟩
  | process sends hq =>
    exact .inr ⟨.process sends, by simpa [queueEvents_append] using hq, fun _ => trivial⟩

theorem sendStep_process_pushed {q q' : SendQueueState} {sends : Bool} {o : List SendQueueEvent}
    (h : sendStep client q (.process sends) = some (q', o)) :
    q'.pushed = q.pushed ∧ pushedEntries o = [] := by
  cases sendStep_process_cases h with
  | waited | woken | emptied | popped | sent | retried | givenUp | freed | countedDown =>
    exact ⟨rfl, rfl⟩

theorem sendStep_push_pushed {q q' : SendQueueState} {entry : SendQueueEntry} {calloc : Bool}
    {o : List SendQueueEvent} (h : sendStep client q (.push entry calloc) = some (q', o)) :
    pushedEntries o = if calloc then [entry] else [] := by
  cases h
  cases calloc with
  | true | false => rfl

theorem reporting_takeCall {i : Nat} {stage : CallStage} {calls : List CallStage}
    (ht : takeCall s.calls i = some (stage, calls)) :
    (stage.reporting ++ calls.flatMap CallStage.reporting).Perm
      (s.calls.flatMap CallStage.reporting) :=
  ((takeCall_perm ht).flatMap_right CallStage.reporting).symm

/-- What is reported as queued was pushed, or its push could not allocate. -/
theorem callSection_reported (h : CallSection client s action s' o) :
    (reportedEntries o ++ s'.calls.flatMap CallStage.reporting).Perm
      (pushedEntries (queueEvents o) ++ unqueuedEntries o ++
        s.calls.flatMap CallStage.reporting) := by
  cases h with
  | @refused call answer found ha hr =>
    cases found with
    | error | drop => exact List.Perm.refl _
    | queue | process => exact absurd rfl hr
  | accepted call answer ha hr =>
    obtain ⟨-, rfl⟩ | ⟨-, rfl⟩ := hr
    · exact List.Perm.refl _
    · exact List.Perm.refl _
  | unpacked _ _ ht | locked ht | sent _ _ _ _ ht =>
    have hcalls := reporting_takeCall ht
    exact hcalls
  | @unsent _ _ _ _ _ call _ ret ht hret =>
    have hnone : reportedEntries [.failed call, .returned call ret] = [] := by
      cases ret with
      | queued => exact absurd rfl hret
      | ok | dropped | err | methodNotFound | closed => rfl
    have hcalls := reporting_takeCall ht
    rw [hnone]
    exact hcalls
  | @calledBack i configured call calls ht =>
    have hcalls := reporting_takeCall ht
    have hone : reportedEntries [.returned call .queued] = call.entry.toList := List.append_nil _
    rw [reportedEntries_append, hone]
    cases configured with
    | true | false => exact hcalls
  | pushed _ entry ht hp hq =>
    have hpush := sendStep_push_pushed hq
    have hcalls := reporting_takeCall ht
    rw [queueEvents_append, reportedEntries_append, unqueuedEntries_append, queueEvents_map_queue,
      reportedEntries_map_queue, unqueuedEntries_map_queue, pushedEntries_append, hpush]
    simp only [List.flatMap_cons, CallStage.reporting, hp] at hcalls ⊢
    cases entry with
    | true | false => exact hcalls.cons _
  | counted ht hq =>
    obtain ⟨-, -, -, rfl⟩ := sendStep_count hq
    have hcalls := reporting_takeCall ht
    exact hcalls
  | setFilter methodName type => exact List.Perm.refl _
  | processAll hq =>
    obtain ⟨-, rfl, rfl⟩ := sendStep_processAll hq
    exact List.Perm.refl _
  | process sends hq =>
    have hnone := (sendStep_process_pushed hq).2
    simp [queueEvents_append, reportedEntries_append, unqueuedEntries_append, hnone]

theorem countP_takeCall {i : Nat} {stage : CallStage} {calls : List CallStage}
    (ht : takeCall s.calls i = some (stage, calls)) (p : CallStage → Bool) :
    s.calls.countP p = calls.countP p + if p stage then 1 else 0 := by
  rw [(takeCall_perm ht).countP_eq p, List.countP_cons]

/-- The calls between their push and their count are those that the queue waits for, and
`invoke_mutex` is held by the one call that sends. -/
structure CallsCounted (s : QueuedClient names) : Prop where
  pushed : s.queue.pushed = s.calls.countP CallStage.isPushed
  sending : s.calls.countP CallStage.isSending = if s.invokeLocked then 1 else 0

theorem callSection_counted (hc : CallsCounted s) (h : CallSection client s action s' o) :
    CallsCounted s' := by
  obtain ⟨hpushed, hsending⟩ := hc
  cases h with
  | refused | setFilter => exact ⟨hpushed, hsending⟩
  | accepted call answer ha hr =>
    obtain ⟨-, rfl⟩ | ⟨-, rfl⟩ := hr
    · exact ⟨hpushed, hsending⟩
    · exact ⟨hpushed, hsending⟩
  | unpacked _ _ ht | calledBack _ ht =>
    rw [countP_takeCall ht] at hpushed hsending
    exact ⟨hpushed, hsending⟩
  | locked ht hl =>
    rw [countP_takeCall ht] at hpushed hsending
    rw [hl] at hsending
    refine ⟨hpushed, ?_⟩
    rw [List.countP_cons_of_pos rfl]
    exact congrArg (· + 1) hsending
  | unsent _ _ _ _ ht | sent _ _ _ _ ht =>
    rw [countP_takeCall ht] at hpushed hsending
    refine ⟨hpushed, ?_⟩
    simp only [CallStage.isSending, if_true] at hsending
    split at hsending
    · exact Nat.succ.inj hsending
    · cases hsending
  | pushed _ _ ht _ hq =>
    obtain ⟨-, -, hcount, -⟩ := sendStep_push hq
    rw [countP_takeCall ht] at hpushed hsending
    refine ⟨?_, hsending⟩
    rw [List.countP_cons_of_pos rfl]
    exact hcount.trans (congrArg (· + 1) hpushed)
  | counted ht hq =>
    obtain ⟨-, -, hcount, -⟩ := sendStep_count hq
    rw [countP_takeCall ht] at hpushed hsending
    exact ⟨hcount.trans (Nat.sub_eq_of_eq_add hpushed), hsending⟩
  | processAll hq =>
    obtain ⟨-, rfl, -⟩ := sendStep_processAll hq
    exact ⟨hpushed, hsending⟩
  | process sends hq => exact ⟨(sendStep_process_pushed hq).1.trans hpushed, hsending⟩

end

/-! ## Whole runs -/

/-- What holds of a client at every point of a run. -/
structure CallsInv (client : SendClient) (s : QueuedClient names) (events : List CallEvent) :
    Prop where
  reported : (reportedEntries events ++ s.calls.flatMap CallStage.reporting).Perm
    (pushedEntries (queueEvents events) ++ unqueuedEntries events)
  queue : SendQueueInv client s.queue (queueEvents events)
  counted : CallsCounted s

theorem callsInv_init (client : SendClient) : CallsInv client (queuedClientInit names) [] where
  reported := List.Perm.refl _
  queue := sendQueueInv_init client
  counted := ⟨rfl, rfl⟩

theorem accounts_step {client : SendClient} {s s' : QueuedClient names}
    {events o : List CallEvent} {action : CallAction}
    (ha : (acceptedEntries events).Perm (allSent events ++ lostEntries events ++ s.held))
    (h : callStep client s action = some (s', o)) :
    (acceptedEntries (events ++ o)).Perm
      (allSent (events ++ o) ++ lostEntries (events ++ o) ++ s'.held) := by
  refine List.perm_iff_count.mpr fun e => ?_
  have hbefore := ha.count_eq e
  have hmoved := (callSection_perm (callStep_cases h)).count_eq e
  simp only [acceptedEntries_append, allSent_append, lostEntries_append, List.count_append]
    at hbefore hmoved ⊢
  omega

/-- The messages of any run are accounted for. -/
theorem accounts_run {client : SendClient} {actions : List CallAction} {s : QueuedClient names}
    {events : List CallEvent}
    (he : exec (callStep client) (queuedClientInit names) actions = some (s, events)) :
    (acceptedEntries events).Perm (allSent events ++ lostEntries events ++ s.held) :=
  exec_track (R := fun s _ events =>
      (acceptedEntries events).Perm (allSent events ++ lostEntries events ++ s.held))
    (fun _ _ _ _ _ _ ha h => accounts_step ha h) (List.Perm.refl _) he

theorem callsInv_step {client : SendClient} {s s' : QueuedClient names} {events o : List CallEvent}
    {action : CallAction} (hi : CallsInv client s events) (hfits : CallFits s action)
    (h : callStep client s action = some (s', o)) : CallsInv client s' (events ++ o) := by
  have hsection := callStep_cases h
  refine ⟨?_, ?_, callSection_counted hi.counted hsection⟩
  · refine List.perm_iff_count.mpr fun e => ?_
    have hbefore := hi.reported.count_eq e
    have hmoved := (callSection_reported hsection).count_eq e
    simp only [reportedEntries_append, queueEvents_append, pushedEntries_append,
      unqueuedEntries_append, List.count_append] at hbefore hmoved ⊢
    omega
  · rw [queueEvents_append]
    obtain ⟨hsame, hnone⟩ | ⟨a, hq, hcount⟩ := callSection_queue hsection
    · rw [hsame, hnone, List.append_nil]
      exact hi.queue
    · exact sendQueueInv_step hi.queue (hcount hfits) hq

theorem callsInv_run {client : SendClient} {actions : List CallAction} {s : QueuedClient names}
    {events : List CallEvent}
    (hg : Guarded (callStep client) CallFits (queuedClientInit names) actions)
    (he : exec (callStep client) (queuedClientInit names) actions = some (s, events)) :
    CallsInv client s events :=
  exec_track_guarded (R := fun s _ events => CallsInv client s events)
    (fun _ _ _ _ _ _ hi hfits h => callsInv_step hi hfits h) (callsInv_init client) hg he

/-- **Calls on a client that queues**, in every run whose count does not wrap. Every
message of a call that was let through was sent once, by the thread of the call or out of
the queue, or is held, or is lost to a failure that the events name. What was reported as
queued was pushed, unless its push could not allocate, and is sent in the order of the
pushes. No message waits without a count, and one call at a time sends. -/
theorem queued_calls_run {client : SendClient} {actions : List CallAction}
    {s : QueuedClient names} {events : List CallEvent}
    (hg : Guarded (callStep client) CallFits (queuedClientInit names) actions)
    (he : exec (callStep client) (queuedClientInit names) actions = some (s, events)) :
    (acceptedEntries events).Perm (allSent events ++ lostEntries events ++ s.held) ∧
      (reportedEntries events).Subperm
        (pushedEntries (queueEvents events) ++ unqueuedEntries events) ∧
      (sentEntries (queueEvents events)).Sublist (pushedEntries (queueEvents events)) ∧
      (s.queue.queueProcessCount = 0 → (∀ call, .pushed call ∉ s.calls) → s.queue.queue = []) ∧
      s.calls.countP CallStage.isSending ≤ 1 := by
  have hi := callsInv_run hg he
  have hok := hi.queue.ok
  refine ⟨accounts_run he, ?_, hok.order, fun hcount hnone => ?_, ?_⟩
  · exact (List.sublist_append_left _ _).subperm.trans hi.reported.subperm
  · refine hok.noLostWakeup hcount ?_
    rw [hi.counted.pushed, List.countP_eq_zero]
    intro stage hmem
    cases stage with
    | pushed call => exact absurd hmem (hnone call)
    | queueing | counted | locking | sending => simp [CallStage.isPushed]
  · rw [hi.counted.sending]
    split
    · exact Nat.le_refl 1
    · exact Nat.zero_le 1

def sampleCall (name : UInt8) : Call := ⟨[name], ⟨0, []⟩⟩

/-- One call is queued while another one sends, and the queue is emptied after them. -/
def sampleCalls : List CallAction :=
  [.invoke (sampleCall 0x6d) (some (true, .queue)),
    .invoke (sampleCall 0x6e) (some (true, .process)), .push 1 (fun _ => true) true, .lock 1,
    .count 1, .send 1 (fun _ => true) .connected ⟨true, none⟩ ⟨true, none⟩, .callback 0 true,
    .processAll, .process true, .process true, .process true]

theorem queued_calls_run_two : ∃ s events,
    exec (callStep ⟨true, true⟩) (queuedClientInit [[0x6d], [0x6e]]) sampleCalls =
      some (s, events) ∧
    (acceptedEntries events).Perm (allSent events ++ lostEntries events ++ s.held) ∧
    lostEntries events = [] ∧ s.held = [] := by
  refine ⟨_, _, rfl, (@queued_calls_run _ ⟨true, true⟩ sampleCalls _ _ ?_ rfl).1, rfl, rfl⟩
  exact ⟨trivial, trivial, trivial, trivial, by unfold CallFits; decide, trivial, trivial, trivial,
    trivial, trivial, trivial, trivial⟩

end Cmsg.Client
