import Cmsg.Server.Queue

/-! # The receive queue between threads

A call that processes the queue holds `queueing_state_mutex` throughout, so that
calls on filters and other such calls wait for it; `queue_mutex` it only holds to
look at the length and to take one entry, and requests keep arriving in between.
`drainStep` takes these sections one at a time. Alone, a call does what the
functions of the atomic machine do. -/
namespace Cmsg.Server
open Cmsg.Base Cmsg.Base.Runs

variable {Msg : Type} {svc : Service Msg}

/-- Where the loops of `cmsg_receive_queue_process_some` and `_process_all` are. -/
inductive DrainStage
  | length
  | pop (processed : Nat)

/-- A call of `cmsg_receive_queue_process_some` with `num_to_process`, on its own or
as one round of `cmsg_receive_queue_process_all`. -/
structure DrainLoop where
  all : Bool
  numToProcess : Nat
  totalProcessed : Nat
  stage : DrainStage

/-- `cmsg_receive_queue_process_some` as it is called. -/
def processSomeBegin (numToProcess : Nat) : DrainLoop := ⟨false, numToProcess, 0, .length⟩

/-- `cmsg_receive_queue_process_all` in its first round. -/
def processAllBegin : DrainLoop := ⟨true, 50, 0, .length⟩

inductive CallStage
  | drain (loop : DrainLoop)
  | testLength (processed : Nat)
  | clear (processed : Nat)

/-- The call that holds `queueing_state_mutex`: `cmsg_server_queue_process` in
`TO_DISABLED` or in `ENABLED`, or `cmsg_server_queue_process_all`. -/
inductive CallKind
  | toDisabled | enabled | processAll
  deriving DecidableEq

structure ProcessCall where
  kind : CallKind
  stage : CallStage

/-- The server, the call that processes its queue, and the requests whose filter
was looked up and that are yet to be pushed. -/
structure DrainState (svc : Service Msg) where
  server : State svc
  call : Option ProcessCall
  pending : List (Request svc)

/-- A request is queued, something can be seen of one that arrives or of one from the
queue, and a call that processes the queue returns. -/
inductive DrainEvent (svc : Service Msg)
  | queued (e : QueueEntry svc)
  | onReceive (event : Event Msg)
  | fromQueue (event : Event Msg)
  | returned (processed : Nat)

inductive DrainAction (svc : Service Msg)
  | receive (r : Request svc)
  | push (index : Nat)
  | queueFilterSet (method : CString) (t : QueueFilterType)
  | queueFilterClear (method : CString)
  | queueFilterSetAll (t : QueueFilterType)
  | queueFilterClearAll
  | setProcessNumber (number : Int)
  | queueProcess
  | queueProcessAll
  | processStep

def drainInit (svc : Service Msg) (rpc : Bool) : DrainState svc := ⟨serverCreate svc rpc, none, []⟩

/-! ## The loops -/

/-- `cmsg_receive_queue_process_some` returns: the next round, or the number of
entries of all rounds. -/
def DrainLoop.return (l : DrainLoop) (processed : Nat) : DrainLoop ⊕ Nat :=
  if l.all && processed != 0 then
    .inl { l with totalProcessed := l.totalProcessed + processed, stage := .length }
  else .inr (l.totalProcessed + processed)

/-- One section of the loops: the entry that is taken, the queue that is left, and what
comes next. -/
def drainLoopStep (l : DrainLoop) (queue : List (QueueEntry svc)) :
    Option (QueueEntry svc) × List (QueueEntry svc) × (DrainLoop ⊕ Nat) :=
  match l.stage with
  | .length =>
    if l.numToProcess = 0 ∨ queue.length = 0 then (none, queue, l.return 0)
    else (none, queue, .inl { l with stage := .pop 0 })
  | .pop processed =>
    if processed < l.numToProcess then
      match queue with
      | [] => (none, [], l.return processed)
      | e :: queue => (some e, queue, .inl { l with stage := .pop (processed + 1) })
    else (none, queue, l.return processed)

/-! ## The calls -/

/-- Another section of the loops, or the rest of the call. -/
def CallStage.after : DrainLoop ⊕ Nat → CallStage
  | .inl l => .drain l
  | .inr processed => .testLength processed

/-- The number of entries that `queue_process_number` stands for. -/
def requestedLoop (s : State svc) : CallStage :=
  if s.queueProcessNumber ≥ 0 then .drain (processSomeBegin s.queueProcessNumber.toNat)
  else if s.queueProcessNumber = -1 then .drain processAllBegin
  else .testLength 0

/-- The end of `cmsg_server_queue_process` and of `cmsg_server_queue_process_all`. -/
def finishCall (d : DrainState svc) (kind : CallKind) (processed : Nat) :
    DrainState svc × List (DrainEvent svc) :=
  match kind with
  | .processAll => ({ d with call := none }, [.returned processed])
  | _ =>
    ({ d with server := { d.server with queueingStateLast := d.server.queueingState }, call := none },
      [.returned processed])

/-- `cmsg_server_queue_process` up to its loop. -/
def beginProcess (d : DrainState svc) : DrainState svc × List (DrainEvent svc) :=
  match d.server.queueingState with
  | .toDisabled =>
    ({ d with
        server := beginDrain d.server
        call := some ⟨.toDisabled, requestedLoop d.server⟩ }, [])
  | .enabled => ({ d with call := some ⟨.enabled, requestedLoop d.server⟩ }, [])
  | .disabled => finishCall d .enabled 0

/-- One section of the call that holds `queueing_state_mutex`. What is taken goes to
`cmsg_server_invoke`. -/
def processStep (d : DrainState svc) (c : ProcessCall) : DrainState svc × List (DrainEvent svc) :=
  match c.stage with
  | .drain l =>
    let (taken, queue, next) := drainLoopStep l d.server.queue
    ({ d with server := { d.server with queue }, call := some { c with stage := .after next } },
      taken.toList.flatMap fun e => (invokeEntry d.server e).map .fromQueue)
  | .testLength processed =>
    if c.kind = .toDisabled ∧ d.server.queue.length = 0 then
      ({ d with call := some { c with stage := .clear processed } }, [])
    else finishCall d c.kind processed
  | .clear processed =>
    finishCall { d with server :=
      { d.server with
        queueProcessNumber := 0
        queueInProcess := false
        filters := queueFilterClearAll d.server.filters
        queueingState := .disabled } } c.kind processed

/-! ## The machine -/

/-- A request that finds a `QUEUE` filter is pushed in a section of its own; any
other is dropped or invoked at once. -/
def receiveRequest (d : DrainState svc) (r : Request svc) :
    DrainState svc × List (DrainEvent svc) :=
  if queueFilterLookup d.server.filters r.methodName = .queue then
    ({ d with pending := d.pending ++ [r] }, [])
  else
    let (server, events, _) := methodReqDispatch d.server r
    ({ d with server }, events.map .onReceive)

/-- `cmsg_server_invoke` of a request that is queued. -/
def pushRequest (d : DrainState svc) (r : Request svc) (index : Nat) :
    DrainState svc × List (DrainEvent svc) :=
  let (server, events) := serverInvoke d.server r .queued
  ({ d with server, pending := d.pending.eraseIdx index },
    .queued ⟨r.methodIndex, r.message⟩ :: events.map .onReceive)

def withMutex (d : DrainState svc) (f : State svc → State svc) :
    Option (DrainState svc × List (DrainEvent svc)) :=
  if d.call.isSome then none else some ({ d with server := f d.server }, [])

def drainStep : Machine (DrainState svc) (DrainAction svc) (DrainEvent svc)
  | d, .receive r => some (receiveRequest d r)
  | d, .push index => d.pending[index]?.map fun r => pushRequest d r index
  | d, .queueFilterSet method t => withMutex d fun s => serverQueueFilterSet s method t
  | d, .queueFilterClear method => withMutex d fun s => serverQueueFilterClear s method
  | d, .queueFilterSetAll t => withMutex d fun s => serverQueueFilterSetAll s t
  | d, .queueFilterClearAll => withMutex d serverQueueFilterClearAll
  | d, .setProcessNumber number => withMutex d fun s => { s with queueProcessNumber := number }
  | d, .queueProcess => if d.call.isSome then none else some (beginProcess d)
  | d, .queueProcessAll =>
    if d.call.isSome then none
    else some ({ d with call := some ⟨.processAll, .drain processAllBegin⟩ }, [])
  | d, .processStep => d.call.map (processStep d)

/-- The entries that were ever queued, in order. -/
def queuedEntries (events : List (DrainEvent svc)) : List (QueueEntry svc) :=
  events.filterMap fun
    | .queued e => some e
    | _ => none

/-- What can be seen of the requests from the queue. -/
def eventsFromQueue (events : List (DrainEvent svc)) : List (Event Msg) :=
  events.filterMap fun
    | .fromQueue event => some event
    | _ => none

theorem queuedEntries_append (xs ys : List (DrainEvent svc)) :
    queuedEntries (xs ++ ys) = queuedEntries xs ++ queuedEntries ys :=
  List.filterMap_append

theorem eventsFromQueue_append (xs ys : List (DrainEvent svc)) :
    eventsFromQueue (xs ++ ys) = eventsFromQueue xs ++ eventsFromQueue ys :=
  List.filterMap_append

/-! ## What an entry does -/

/-- The method has an implementation, and the input is valid. -/
def Method.calls (m : Method Msg) (input : Msg) : Bool :=
  m.implFunc.isSome &&
    match m.validationFunc with
    | none => true
    | some validationFunc =>
      match validationFunc input with
      | .valid => true
      | .invalid _ => false

/-- The implementation of its method is called with its message, unless there is none or
the message is not valid. -/
def QueueEntry.called (e : QueueEntry svc) : List (Event Msg) :=
  if (svc.methods.get e.methodIndex).calls e.message then [.invoked e.methodIndex e.message]
  else []

/-- `cmsg_server_invoke_impl` with a closure that sends nothing. -/
theorem serverInvokeImpl_silent (i : Fin svc.nMethods) (input : Msg) :
    serverInvokeImpl svc i input (fun _ => []) =
      if (svc.methods.get i).calls input then [.invoked i input] else [] := by
  unfold serverInvokeImpl Method.calls
  generalize svc.methods.get i = m
  obtain ⟨name, unpack, validationFunc, implFunc⟩ := m
  cases validationFunc with
  | none => cases implFunc <;> rfl
  | some validationFunc =>
    have hcases : validationFunc input = .valid ∨
        ∃ response, validationFunc input = .invalid response := by
      cases validationFunc input with
      | valid => exact .inl rfl
      | invalid response => exact .inr ⟨response, rfl⟩
    obtain hvalid | ⟨response, hinvalid⟩ := hcases
    · cases implFunc with
      | none => simp [hvalid]
      | some implFunc => simp [hvalid]
    · simp [hinvalid]

/-- An entry of the queue is invoked as the method and with the message that it was queued
with, and nothing is sent. -/
theorem invokeEntry_called (s : State svc) (e : QueueEntry svc) : invokeEntry s e = e.called := by
  rw [invokeEntry_eq, serverInvokeImpl_silent, QueueEntry.called]

/-- What can be seen of entries that are invoked one after the other. -/
def drained (entries : List (QueueEntry svc)) : List (DrainEvent svc) :=
  (entries.flatMap QueueEntry.called).map .fromQueue

theorem drained_append (xs ys : List (QueueEntry svc)) :
    drained (xs ++ ys) = drained xs ++ drained ys := by
  rw [drained, List.flatMap_append, List.map_append]
  rfl

theorem invokeEntries_called (queue : List (QueueEntry svc)) :
    (invokeEntries queue).map DrainEvent.fromQueue = drained queue := by
  rw [invokeEntries, drained]
  congr 2
  funext e
  rw [← invokeEntry_called (serverCreate svc true) e, invokeEntry_eq]

theorem processStep_drained (s : State svc) (taken : Option (QueueEntry svc)) :
    (taken.toList.flatMap fun e => (invokeEntry s e).map DrainEvent.fromQueue) =
      drained taken.toList := by
  cases taken with
  | none => rfl
  | some e => simp [drained, invokeEntry_called]

theorem queuedEntries_drained (entries : List (QueueEntry svc)) :
    queuedEntries (drained entries) = [] := by
  rw [queuedEntries, drained, List.filterMap_map]
  exact List.filterMap_eq_nil_iff.mpr fun _ _ => rfl

theorem eventsFromQueue_drained (entries : List (QueueEntry svc)) :
    eventsFromQueue (drained entries) = entries.flatMap QueueEntry.called := by
  rw [eventsFromQueue, drained, List.filterMap_map]
  exact List.filterMap_some

theorem queuedEntries_onReceive (events : List (Event Msg)) :
    queuedEntries (events.map .onReceive : List (DrainEvent svc)) = [] := by
  rw [queuedEntries, List.filterMap_map]
  exact List.filterMap_eq_nil_iff.mpr fun _ _ => rfl

theorem eventsFromQueue_onReceive (events : List (Event Msg)) :
    eventsFromQueue (events.map .onReceive : List (DrainEvent svc)) = [] := by
  rw [eventsFromQueue, List.filterMap_map]
  exact List.filterMap_eq_nil_iff.mpr fun _ _ => rfl

/-! ## A call alone -/

/-- The sections of the call take the one state to the other while nothing else
happens. -/
def Alone (d d' : DrainState svc) (events : List (DrainEvent svc)) : Prop :=
  ∃ k, exec drainStep d (List.replicate k .processStep) = some (d', events)

theorem Alone.refl (d : DrainState svc) : Alone d d [] := ⟨0, rfl⟩

theorem Alone.trans {d₁ d₂ d₃ : DrainState svc} {xs ys : List (DrainEvent svc)}
    (h₁ : Alone d₁ d₂ xs) (h₂ : Alone d₂ d₃ ys) : Alone d₁ d₃ (xs ++ ys) := by
  obtain ⟨k₁, he₁⟩ := h₁
  obtain ⟨k₂, he₂⟩ := h₂
  refine ⟨k₁ + k₂, ?_⟩
  rw [← List.replicate_append_replicate]
  exact exec_append.mpr ⟨d₂, xs, ys, he₁, he₂, rfl⟩

theorem Alone.step {d : DrainState svc} {c : ProcessCall} (h : d.call = some c) :
    Alone d (processStep d c).1 (processStep d c).2 := by
  refine ⟨1, exec_cons.mpr ⟨_, _, [], ?_, rfl, (List.append_nil _).symm⟩⟩
  simp [drainStep, h]

section
variable {d : DrainState svc} {kind : CallKind} {l : DrainLoop}

/-- The call in its loops. -/
abbrev DrainState.inLoop (d : DrainState svc) (kind : CallKind) (next : DrainLoop ⊕ Nat)
    (queue : List (QueueEntry svc)) : DrainState svc :=
  { d with server := { d.server with queue }, call := some ⟨kind, .after next⟩ }

theorem loopStep_alone (l : DrainLoop) (queue : List (QueueEntry svc)) :
    Alone (d.inLoop kind (.inl l) queue)
      (d.inLoop kind (drainLoopStep l queue).2.2 (drainLoopStep l queue).2.1)
      (drained (drainLoopStep l queue).1.toList) := by
  have h := @Alone.step _ _ (d.inLoop kind (.inl l) queue) _ rfl
  simp only [processStep, CallStage.after, processStep_drained] at h
  exact h

/-- The loop that takes entries stops at the number asked for or at the end of the queue. -/
theorem pops_alone (queue : List (QueueEntry svc)) : ∀ processed, processed ≤ l.numToProcess →
    Alone (d.inLoop kind (.inl { l with stage := .pop processed }) queue)
      (d.inLoop kind
        (l.return (processed + min (l.numToProcess - processed) queue.length))
        (queue.drop (l.numToProcess - processed)))
      (drained (queue.take (l.numToProcess - processed))) := by
  induction queue with
  | nil =>
    intro processed hle
    have h := @loopStep_alone _ _ d kind { l with stage := .pop processed } []
    by_cases hlt : processed < l.numToProcess
    · simpa [drainLoopStep, hlt, DrainLoop.return] using h
    · simpa [drainLoopStep, hlt, DrainLoop.return] using h
  | cons e queue ih =>
    intro processed hle
    have h := @loopStep_alone _ _ d kind { l with stage := .pop processed } (e :: queue)
    by_cases hlt : processed < l.numToProcess
    · have hsub : l.numToProcess - processed = l.numToProcess - (processed + 1) + 1 := by omega
      have hmin : processed + min (l.numToProcess - processed) (queue.length + 1) =
          processed + 1 + min (l.numToProcess - (processed + 1)) queue.length := by omega
      simp only [drainLoopStep, hlt, if_true] at h
      rw [hsub, List.drop_succ_cons, List.take_succ_cons, ← hsub, List.length_cons, hmin]
      have hrest := h.trans (ih (processed + 1) hlt)
      rw [← drained_append] at hrest
      exact hrest
    · have hz : l.numToProcess - processed = 0 := by omega
      simpa [drainLoopStep, hlt, hz, DrainLoop.return] using h

/-- One call of `cmsg_receive_queue_process_some`. -/
theorem round_alone (hl : l.stage = .length) (queue : List (QueueEntry svc)) :
    Alone (d.inLoop kind (.inl l) queue)
      (d.inLoop kind (l.return (min l.numToProcess queue.length)) (queue.drop l.numToProcess))
      (drained (queue.take l.numToProcess)) := by
  have h := @loopStep_alone _ _ d kind l queue
  by_cases hz : l.numToProcess = 0 ∨ queue.length = 0
  · have hmin : min l.numToProcess queue.length = 0 := by omega
    simp only [drainLoopStep, hl, hz, if_true] at h
    rw [hmin]
    rcases hz with hz | hz
    · simpa [hz] using h
    · obtain rfl := List.length_eq_zero_iff.mp hz
      simpa using h
  · simp only [drainLoopStep, hl, hz, if_false] at h
    have hp := @pops_alone _ _ d kind l queue 0 (Nat.zero_le _)
    simp only [Nat.sub_zero, Nat.zero_add] at hp
    exact h.trans hp

theorem processSome_alone (n : Nat) (queue : List (QueueEntry svc)) :
    Alone (d.inLoop kind (.inl (processSomeBegin n)) queue)
      (d.inLoop kind (.inr (min n queue.length)) (queue.drop n))
      (drained (queue.take n)) := by
  have h := @round_alone _ _ d kind (processSomeBegin n) rfl queue
  simpa [processSomeBegin, DrainLoop.return] using h

/-- The rounds of fifty go on until one takes nothing. -/
theorem rounds_alone (fuel : Nat) : ∀ (total : Nat) (queue : List (QueueEntry svc)),
    queue.length < fuel →
    Alone (d.inLoop kind (.inl ⟨true, 50, total, .length⟩) queue)
      (d.inLoop kind (.inr (total + queue.length)) []) (drained queue) := by
  induction fuel with
  | zero => exact fun _ _ h => absurd h (Nat.not_lt_zero _)
  | succ fuel ih =>
    intro total queue hlen
    have h := @round_alone _ _ d kind ⟨true, 50, total, .length⟩ rfl queue
    by_cases hz : queue = []
    · subst hz
      simpa [DrainLoop.return] using h
    · have hpos : 0 < queue.length := List.length_pos_iff.mpr hz
      have hne : (min 50 queue.length != 0) = true := by simp; omega
      simp only [DrainLoop.return, Bool.true_and, hne, if_true] at h
      have hdrop : (queue.drop 50).length < fuel := by
        rw [List.length_drop]
        omega
      have hrest := ih (total + min 50 queue.length) (queue.drop 50) hdrop
      have hsum : total + min 50 queue.length + (queue.drop 50).length = total + queue.length := by
        rw [List.length_drop]
        omega
      rw [hsum] at hrest
      have hboth := h.trans hrest
      rwa [← drained_append, List.take_append_drop] at hboth

theorem processAll_alone (queue : List (QueueEntry svc)) :
    Alone (d.inLoop kind (.inl processAllBegin) queue)
      (d.inLoop kind (.inr queue.length) []) (drained queue) := by
  have h := @rounds_alone _ _ d kind (queue.length + 1) 0 queue (Nat.lt_succ_self _)
  rwa [Nat.zero_add] at h

theorem requestedLoop_alone {s : State svc} (hq : d.server.queue = s.queue) :
    Alone { d with call := some ⟨kind, requestedLoop s⟩ }
      (d.inLoop kind (.inr (min (requested s) s.queue.length)) (s.queue.drop (requested s)))
      (drained (s.queue.take (requested s))) := by
  have hd : ∀ next, { d with call := some ⟨kind, .after next⟩ } = d.inLoop kind next s.queue := by
    intro next
    rw [← hq]
  unfold requestedLoop requested
  split
  · have h := @processSome_alone _ _ d kind s.queueProcessNumber.toNat s.queue
    rw [← hd] at h
    exact h
  · split
    · have h := @processAll_alone _ _ d kind s.queue
      rw [← hd] at h
      rw [List.drop_length, List.take_length, Nat.min_self]
      exact h
    · have h := hd (.inr 0)
      simp only [List.drop_zero, List.take_zero, Nat.zero_min]
      rw [← h]
      exact Alone.refl _

/-- The entries that a call of `cmsg_server_queue_process` takes. -/
def processed (s : State svc) : Nat :=
  if s.queueingState = .disabled then 0 else min (requested s) s.queue.length

theorem beginDrain_queue (s : State svc) : (beginDrain s).queue = s.queue := by
  unfold beginDrain
  split
  · rfl
  · rfl

theorem exec_alone {d₁ d₂ : DrainState svc} {action : DrainAction svc} {o es : List (DrainEvent svc)}
    (hs : drainStep d action = some (d₁, o)) (ha : Alone d₁ d₂ es) :
    ∃ k, exec drainStep d (action :: List.replicate k .processStep) = some (d₂, o ++ es) := by
  obtain ⟨k, he⟩ := ha
  exact ⟨k, exec_cons.mpr ⟨d₁, o, es, hs, he, rfl⟩⟩

/-- While nothing else happens, `cmsg_server_queue_process` does what it does at once. -/
theorem queueProcess_alone (h : d.call = none) :
    ∃ k, exec drainStep d (.queueProcess :: List.replicate k .processStep) =
      some ({ d with server := (queueProcess d.server).1 },
        (queueProcess d.server).2.map .fromQueue ++ [.returned (processed d.server)]) := by
  have hb : drainStep d .queueProcess = some (beginProcess d) := by simp [drainStep, h]
  rcases queueProcess_cases d.server with ⟨hs, he⟩ | ⟨hs, he⟩ | ⟨hs, hleft, he⟩ | ⟨hs, hleft, he⟩
  · have hbegin : beginProcess d = finishCall d .enabled 0 := by simp [beginProcess, hs]
    obtain ⟨k, hk⟩ := exec_alone hb (Alone.refl _)
    refine ⟨k, hk.trans ?_⟩
    simp [finishCall, he, processed, hs, ← h]
  · have hbegin : beginProcess d = ({ d with call := some ⟨.enabled, requestedLoop d.server⟩ }, []) := by
      simp [beginProcess, hs]
    rw [hbegin] at hb
    have hloop := @requestedLoop_alone _ _ d .enabled d.server rfl
    obtain ⟨k, hk⟩ := exec_alone hb (hloop.trans (Alone.step rfl))
    refine ⟨k, hk.trans ?_⟩
    simp [processStep, CallStage.after, finishCall, he, processed, hs, ← h, invokeEntries_called]
  · have hbegin : beginProcess d = ({ d with
        server := beginDrain d.server, call := some ⟨.toDisabled, requestedLoop d.server⟩ }, []) := by
      simp [beginProcess, hs]
    rw [hbegin] at hb
    have hloop := @requestedLoop_alone _ _ { d with server := beginDrain d.server } .toDisabled
      d.server (beginDrain_queue d.server)
    rw [hleft] at hloop
    have htest := hloop.trans (Alone.step rfl)
    simp only [processStep, CallStage.after, List.length_nil, and_self, if_true] at htest
    have hall : d.server.queue.take (requested d.server) = d.server.queue :=
      List.take_of_length_le (List.drop_eq_nil_iff.mp hleft)
    obtain ⟨k, hk⟩ := exec_alone hb (htest.trans (Alone.step rfl))
    refine ⟨k, hk.trans ?_⟩
    simp [processStep, finishCall, he, processed, hs, ← h, invokeEntries_called, hall]
    unfold beginDrain
    split
    · rfl
    · rfl
  · have hbegin : beginProcess d = ({ d with
        server := beginDrain d.server, call := some ⟨.toDisabled, requestedLoop d.server⟩ }, []) := by
      simp [beginProcess, hs]
    rw [hbegin] at hb
    have hloop := @requestedLoop_alone _ _ { d with server := beginDrain d.server } .toDisabled
      d.server (beginDrain_queue d.server)
    have hlen : ¬ (d.server.queue.drop (requested d.server)).length = 0 :=
      fun hz => hleft (List.length_eq_zero_iff.mp hz)
    obtain ⟨k, hk⟩ := exec_alone hb (hloop.trans (Alone.step rfl))
    refine ⟨k, hk.trans ?_⟩
    simp only [processStep, CallStage.after, hlen, and_false, if_false, finishCall]
    simp [he, processed, hs, ← h, invokeEntries_called]
    unfold beginDrain
    split
    · exact hs
    · exact hs

/-- So does `cmsg_server_queue_process_all`. -/
theorem queueProcessAll_alone (h : d.call = none) :
    ∃ k, exec drainStep d (.queueProcessAll :: List.replicate k .processStep) =
      some ({ d with server := (queueProcessAll d.server).1 },
        (queueProcessAll d.server).2.map .fromQueue ++ [.returned d.server.queue.length]) := by
  have hb : drainStep d .queueProcessAll =
      some ({ d with call := some ⟨.processAll, .drain processAllBegin⟩ }, []) := by
    simp [drainStep, h]
  have hloop := @processAll_alone _ _ d .processAll d.server.queue
  obtain ⟨k, hk⟩ := exec_alone hb (hloop.trans (Alone.step rfl))
  refine ⟨k, hk.trans ?_⟩
  simp [processStep, CallStage.after, finishCall, queueProcessAll_eq, invokeEntries_called, ← h]

end

/-! ## Whole runs -/

/-- The entries that are pushed can be allocated. -/
def Allocates (d : DrainState svc) : DrainAction svc → Prop
  | .push index => ∀ r, d.pending[index]? = some r → r.calloc queueEntrySize = true
  | _ => True

/-- What was queued is what was taken from the queue, then what is still in it, in order;
and each of what was taken was invoked. -/
def Conserved (d : DrainState svc) (events : List (DrainEvent svc)) : Prop :=
  ∃ taken, queuedEntries events = taken ++ d.server.queue ∧
    eventsFromQueue events = taken.flatMap QueueEntry.called

theorem conserved_quiet {d d' : DrainState svc} {events o : List (DrainEvent svc)}
    (h : Conserved d events) (hq : d'.server.queue = d.server.queue) (ho : queuedEntries o = [])
    (hi : eventsFromQueue o = []) : Conserved d' (events ++ o) := by
  obtain ⟨taken, hqueued, hcalled⟩ := h
  refine ⟨taken, ?_, ?_⟩
  · rw [queuedEntries_append, ho, hq, List.append_nil, hqueued]
  · rw [eventsFromQueue_append, hi, List.append_nil, hcalled]

theorem conserved_finishCall {d d' : DrainState svc} {events : List (DrainEvent svc)}
    (h : Conserved d events) (hq : d'.server.queue = d.server.queue) (kind : CallKind)
    (processed : Nat) :
    Conserved (finishCall d' kind processed).1 (events ++ (finishCall d' kind processed).2) := by
  cases kind with
  | processAll => exact conserved_quiet h hq rfl rfl
  | toDisabled => exact conserved_quiet h hq rfl rfl
  | enabled => exact conserved_quiet h hq rfl rfl

/-- A section of the loops takes the oldest entry or none. -/
theorem drainLoopStep_takes (l : DrainLoop) (queue : List (QueueEntry svc)) :
    queue = (drainLoopStep l queue).1.toList ++ (drainLoopStep l queue).2.1 := by
  unfold drainLoopStep
  split
  · split
    · rfl
    · rfl
  · split
    · cases queue with
      | nil => rfl
      | cons e queue => rfl
    · rfl

theorem conserved_processStep {d : DrainState svc} {events : List (DrainEvent svc)}
    (h : Conserved d events) (c : ProcessCall) :
    Conserved (processStep d c).1 (events ++ (processStep d c).2) := by
  unfold processStep
  split
  · next l _ =>
    have htakes := drainLoopStep_takes l d.server.queue
    obtain ⟨taken, hqueued, hcalled⟩ := h
    dsimp only
    rw [processStep_drained]
    refine ⟨taken ++ (drainLoopStep l d.server.queue).1.toList, ?_, ?_⟩
    · rw [queuedEntries_append, queuedEntries_drained, List.append_nil, List.append_assoc, ← htakes,
        hqueued]
    · rw [eventsFromQueue_append, eventsFromQueue_drained, hcalled, List.flatMap_append]
  · split
    · exact conserved_quiet h rfl rfl rfl
    · exact conserved_finishCall h rfl _ _
  · refine conserved_finishCall h ?_ _ _
    rfl

/-- A request that is not queued leaves the queue. -/
theorem conserved_receive {d : DrainState svc} {events : List (DrainEvent svc)}
    (h : Conserved d events) (r : Request svc) :
    Conserved (receiveRequest d r).1 (events ++ (receiveRequest d r).2) := by
  unfold receiveRequest
  split
  · exact conserved_quiet h rfl rfl rfl
  · next hother =>
    have hstate := receive_state d.server r
    rw [if_neg hother] at hstate
    refine conserved_quiet h ?_ (queuedEntries_onReceive _) (eventsFromQueue_onReceive _)
    exact congrArg State.queue hstate

theorem conserved_push {d : DrainState svc} {events : List (DrainEvent svc)}
    (h : Conserved d events) {r : Request svc} (hcalloc : r.calloc queueEntrySize = true)
    (index : Nat) :
    Conserved (pushRequest d r index).1 (events ++ (pushRequest d r index).2) := by
  obtain ⟨taken, hqueued, hcalled⟩ := h
  have hpushed : (pushRequest d r index).1.server.queue =
      d.server.queue ++ [⟨r.methodIndex, r.message⟩] := by
    show (receiveQueuePush d.server r).queue = _
    rw [receiveQueuePush, if_pos hcalloc]
  have hevents : (pushRequest d r index).2 =
      [.queued ⟨r.methodIndex, r.message⟩] ++
        (serverInvoke d.server r .queued).2.map .onReceive := rfl
  refine ⟨taken, ?_, ?_⟩
  · rw [queuedEntries_append, hevents, queuedEntries_append, queuedEntries_onReceive, hpushed,
      hqueued, List.append_nil, List.append_assoc]
    rfl
  · rw [eventsFromQueue_append, hevents, eventsFromQueue_append, eventsFromQueue_onReceive, hcalled,
      List.append_nil]
    exact List.append_nil _

theorem conserved_step {d d' : DrainState svc} {events o : List (DrainEvent svc)}
    {action : DrainAction svc} (h : Conserved d events) (ha : Allocates d action)
    (hs : drainStep d action = some (d', o)) : Conserved d' (events ++ o) := by
  have hm : ∀ f : State svc → State svc, (f d.server).queue = d.server.queue →
      withMutex d f = some (d', o) → Conserved d' (events ++ o) := by
    intro f hf hs
    simp only [withMutex, Option.ite_none_left_eq_some, Option.some.injEq, Prod.mk.injEq] at hs
    obtain ⟨_, rfl, rfl⟩ := hs
    exact conserved_quiet h hf rfl rfl
  cases action with
  | receive r =>
    have hr := conserved_receive h r
    rwa [Option.some.inj hs] at hr
  | push index =>
    obtain ⟨r, hr, he⟩ := Option.map_eq_some_iff.mp hs
    have hp := conserved_push h (ha r hr) index
    rwa [he] at hp
  | queueFilterSet method t => exact hm (fun s => serverQueueFilterSet s method t) rfl hs
  | queueFilterClear method => exact hm (fun s => serverQueueFilterClear s method) rfl hs
  | queueFilterSetAll t => exact hm (fun s => serverQueueFilterSetAll s t) rfl hs
  | queueFilterClearAll => exact hm serverQueueFilterClearAll rfl hs
  | setProcessNumber number => exact hm (fun s => { s with queueProcessNumber := number }) rfl hs
  | queueProcess =>
    simp only [drainStep, Option.ite_none_left_eq_some, Option.some.injEq] at hs
    have hb := hs.2
    unfold beginProcess at hb
    split at hb
    · obtain ⟨rfl, rfl⟩ := Prod.mk.inj hb
      exact conserved_quiet h (beginDrain_queue d.server) rfl rfl
    · obtain ⟨rfl, rfl⟩ := Prod.mk.inj hb
      exact conserved_quiet h rfl rfl rfl
    · have hf := conserved_finishCall h rfl .enabled 0
      rwa [hb] at hf
  | queueProcessAll =>
    simp only [drainStep, Option.ite_none_left_eq_some, Option.some.injEq, Prod.mk.injEq] at hs
    obtain ⟨_, rfl, rfl⟩ := hs
    exact conserved_quiet h rfl rfl rfl
  | processStep =>
    obtain ⟨c, _, he⟩ := Option.map_eq_some_iff.mp hs
    have hc := conserved_processStep h c
    rwa [he] at hc

/-- **Nothing is lost or invoked twice.** In every run whose pushes can be allocated, the
requests ever queued are those taken from the queue and those still in it, in order, and
what was taken was invoked, each once, as the method and with the message that it was
queued with, and was not replied to. From there, while nothing is queued, processing some
of them takes as many as it is asked for, and processing all takes and counts them all. -/
theorem queue_conserved (rpc : Bool) (actions : List (DrainAction svc)) {d : DrainState svc}
    {events : List (DrainEvent svc)} (hg : Guarded drainStep Allocates (drainInit svc rpc) actions)
    (he : exec drainStep (drainInit svc rpc) actions = some (d, events)) :
    (∃ taken, queuedEntries events = taken ++ d.server.queue ∧
      eventsFromQueue events = taken.flatMap QueueEntry.called) ∧
      (∀ kind n, Alone { d with call := some ⟨kind, .drain (processSomeBegin n)⟩ }
        (d.inLoop kind (.inr (min n d.server.queue.length)) (d.server.queue.drop n))
        (drained (d.server.queue.take n))) ∧
      (d.call = none →
        (∃ k, exec drainStep d (.queueProcessAll :: List.replicate k .processStep) =
          some ({ d with server := { d.server with queue := [] } },
            drained d.server.queue ++ [.returned d.server.queue.length])) ∧
        ∃ k, exec drainStep d (.queueProcess :: List.replicate k .processStep) =
          some ({ d with server := (queueProcess d.server).1 },
            (queueProcess d.server).2.map .fromQueue ++ [.returned (processed d.server)])) := by
  refine ⟨?_, fun kind n => ?_, fun hc => ⟨?_, queueProcess_alone hc⟩⟩
  · have h₀ : Conserved (drainInit svc rpc) [] := ⟨[], rfl, rfl⟩
    exact @exec_track_guarded _ _ _ drainStep Allocates (fun d _ events => Conserved d events)
      (fun _ _ _ _ _ _ h ha hs => conserved_step h ha hs) _ _ _ _ h₀ hg he
  · exact @processSome_alone _ _ d kind n d.server.queue
  · have h := queueProcessAll_alone hc
    rwa [queueProcessAll_eq, invokeEntries_called] at h

/-- Two requests are queued, the second one while the first is taken. -/
def drainSample : List (DrainAction sampleService) :=
  [.queueFilterSetAll .queue, .receive sampleRequest, .push 0, .queueProcessAll, .processStep,
    .receive sampleRequest, .processStep, .push 0, .processStep, .processStep, .processStep,
    .processStep]

/-- What can be seen of two calls of the only method. -/
theorem queue_conserved_sample : ∃ d events taken,
    exec drainStep (drainInit sampleService true) drainSample = some (d, events) ∧
      queuedEntries events = taken ++ d.server.queue ∧
      eventsFromQueue events = taken.flatMap QueueEntry.called ∧
      (queuedEntries events).length = 2 ∧ eventsFromQueue events = [.invoked 0 [], .invoked 0 []] := by
  have hg : Guarded drainStep Allocates (drainInit sampleService true) drainSample := by
    refine ⟨trivial, trivial, fun r hr => ?_, trivial, trivial, trivial, trivial,
      fun r hr => ?_, trivial, trivial, trivial, trivial, trivial⟩
    · cases hr
      rfl
    · cases hr
      rfl
  obtain ⟨taken, hqueued, hcalled⟩ := (queue_conserved true drainSample hg rfl).1
  exact ⟨_, _, taken, rfl, hqueued, hcalled, rfl, rfl⟩

end Cmsg.Server
