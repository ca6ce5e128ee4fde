import Cmsg.Base.Runs
import Cmsg.Client.Send

/-! # The send queue of a one-way client

API threads push messages under `queue_mutex` and then count them under
`queue_process_mutex`; one thread waits for the count, drains the queue and takes
one from the count. `sendStep` takes these sections one at a time. The count never
falls behind the queue, until it wraps. -/
namespace Cmsg.Client
open Cmsg.Base Cmsg.Base.Runs

/-- `cmsg_send_queue_entry`, in the queue of its own client. -/
structure SendQueueEntry where
  queueBuffer : List UInt8
  methodName : CString
  deriving DecidableEq

/-- `ownThread` says that `cmsg_client_queue_process_all` is called in the thread that
made the client, and `comparable` that `cmsg_transport_compare` knows its transport,
which is so for TCP and Unix sockets. -/
structure SendClient where
  ownThread : Bool
  comparable : Bool

/-- `CMSG_TRANSPORT_CLIENT_SEND_TRIES` -/
def clientSendTries : Nat := 10

/-- Where the thread that processes the queue is. -/
inductive ProcessStage
  | idle
  | waiting
  | popFirst
  | sending (entry : SendQueueEntry) (c : Nat)
  | popNext
  | freeAll
  | countDown

structure SendQueueState where
  queue : List SendQueueEntry
  queueProcessCount : Nat
  /-- The API threads that pushed and are yet to count. -/
  pushed : Nat
  stage : ProcessStage

inductive SendQueueAction
  /-- An API thread pushes, where both allocations succeed. -/
  | push (entry : SendQueueEntry) (calloc : Bool)
  | count
  | processAll
  /-- The next section of the processing thread, and whether the send in it succeeds. -/
  | process (sends : Bool)

inductive SendQueueEvent
  | pushed (entry : SendQueueEntry)
  | sent (entry : SendQueueEntry)

def sendQueueInit : SendQueueState := ⟨[], 0, 0, .idle⟩

/-- `cmsg_send_queue_push` -/
def sendQueuePush (queue : List SendQueueEntry) (entry : SendQueueEntry) (calloc : Bool) :
    List SendQueueEntry × List SendQueueEvent :=
  if calloc then (queue ++ [entry], [.pushed entry]) else (queue, [])

/-- The loop of `_cmsg_send_queue_free_all_by_transport_method`, for as many entries as
the queue holds. -/
def sendQueueFreeLoop (found : SendQueueEntry → Bool) :
    Nat → List SendQueueEntry → List SendQueueEntry
  | 0, queue => queue
  | n + 1, [] => sendQueueFreeLoop found n []
  | n + 1, entry :: queue =>
    sendQueueFreeLoop found n (if found entry then queue else queue ++ [entry])

/-- `cmsg_send_queue_free_all_by_transport` with the transport of the client, which is
that of every entry. -/
def sendQueueFreeAllByTransport (client : SendClient) (queue : List SendQueueEntry) :
    List SendQueueEntry :=
  sendQueueFreeLoop (fun _ => client.comparable) queue.length queue

/-- The end of `_cmsg_client_queue_process_all_direct`. -/
def afterDirect (client : SendClient) : ProcessStage :=
  if client.ownThread then .idle else .countDown

/-- One section of `cmsg_client_queue_process_all`. -/
def processSection (client : SendClient) (s : SendQueueState) (sends : Bool) :
    Option (SendQueueState × List SendQueueEvent) :=
  match s.stage with
  | .idle => none
  | .waiting =>
    some (if s.queueProcessCount = 0 then s else { s with stage := .popFirst }, [])
  | .popFirst | .popNext =>
    match s.queue with
    | [] => some ({ s with stage := afterDirect client }, [])
    | entry :: queue => some ({ s with queue, stage := .sending entry 0 }, [])
  | .sending entry c =>
    if sends then some ({ s with stage := .popNext }, [.sent entry])
    else if c < clientSendTries then some ({ s with stage := .sending entry (c + 1) }, [])
    else some ({ s with stage := .freeAll }, [])
  | .freeAll =>
    some ({ s with
      queue := sendQueueFreeAllByTransport client s.queue, stage := afterDirect client }, [])
  | .countDown =>
    some ({ s with
      queueProcessCount := sub32 s.queueProcessCount 1, stage := .idle }, [])

/-- One step of the API threads and of the thread that processes the queue. -/
def sendStep (client : SendClient) : Machine SendQueueState SendQueueAction SendQueueEvent
  | s, .push entry calloc =>
    let (queue, events) := sendQueuePush s.queue entry calloc
    some ({ s with queue, pushed := s.pushed + 1 }, events)
  | s, .count =>
    if s.pushed = 0 then none
    else some ({ s with
      queueProcessCount := wrap32 (s.queueProcessCount + 1), pushed := s.pushed - 1 }, [])
  | s, .processAll =>
    match s.stage with
    | .idle => some ({ s with stage := if client.ownThread then .popFirst else .waiting }, [])
    | _ => none
  | s, .process sends => processSection client s sends

/-! ## What holds of the queue -/

def pushedEntries (events : List SendQueueEvent) : List SendQueueEntry :=
  events.filterMap fun
    | .pushed entry => some entry
    | _ => none

def sentEntries (events : List SendQueueEvent) : List SendQueueEntry :=
  events.filterMap fun
    | .sent entry => some entry
    | _ => none

theorem pushedEntries_append (xs ys : List SendQueueEvent) :
    pushedEntries (xs ++ ys) = pushedEntries xs ++ pushedEntries ys :=
  List.filterMap_append

theorem sentEntries_append (xs ys : List SendQueueEvent) :
    sentEntries (xs ++ ys) = sentEntries xs ++ sentEntries ys :=
  List.filterMap_append

/-- The message that is being sent. -/
def ProcessStage.current : ProcessStage → List SendQueueEntry
  | .sending entry _ => [entry]
  | _ => []

/-- The thread passed its wait and is yet to take its one from the count. -/
def ProcessStage.owes : ProcessStage → Bool
  | .popFirst | .sending _ _ | .popNext | .freeAll | .countDown => true
  | _ => false

/-- The thread looked at the queue since it passed its wait. -/
def ProcessStage.looked : ProcessStage → Bool
  | .sending _ _ | .popNext | .freeAll | .countDown => true
  | _ => false

/-- The count covers the queue: what the thread will take from it included, once it
looked at the queue. -/
structure SendQueueInv (client : SendClient) (s : SendQueueState) (events : List SendQueueEvent) :
    Prop where
  fits : s.queueProcessCount < word32
  covered : s.queue.length ≤ s.queueProcessCount + s.pushed
  owed : client.ownThread = false → s.stage.owes = true → 0 < s.queueProcessCount
  paid : client.ownThread = false → s.stage.looked = true →
    s.queue.length + 1 ≤ s.queueProcessCount + s.pushed
  own : s.stage = .countDown → client.ownThread = false
  order : (sentEntries events ++ s.stage.current ++ s.queue).Sublist (pushedEntries events)

/-- What is asked of a run at every point of it: no message waits without a count, the
count does not underflow, and messages are sent in the order of their pushes, each at
most once. -/
structure SendQueueOk (s : SendQueueState) (events : List SendQueueEvent) : Prop where
  noLostWakeup : s.queueProcessCount = 0 → s.pushed = 0 → s.queue = []
  noUnderflow : s.stage = .countDown → 0 < s.queueProcessCount
  order : (sentEntries events).Sublist (pushedEntries events)

theorem SendQueueInv.ok {client : SendClient} {s : SendQueueState} {events : List SendQueueEvent}
    (h : SendQueueInv client s events) : SendQueueOk s events := by
  refine ⟨fun hc hp => ?_, fun hs => ?_, ?_⟩
  · have hcov := h.covered
    exact List.length_eq_zero_iff.mp (by omega)
  · exact h.owed (h.own hs) (by rw [hs]; rfl)
  · refine List.Sublist.trans ?_ h.order
    rw [List.append_assoc]
    exact List.sublist_append_left _ _

/-- The loop goes round the queue once: what was not freed is in the order it was in. -/
theorem sendQueueFreeLoop_append (found : SendQueueEntry → Bool) (xs : List SendQueueEntry) :
    ∀ ys, sendQueueFreeLoop found xs.length (xs ++ ys) = ys ++ xs.filter fun e => !found e := by
  induction xs with
  | nil => simp [sendQueueFreeLoop]
  | cons x xs ih =>
    intro ys
    rw [List.length_cons, List.cons_append]
    unfold sendQueueFreeLoop
    cases hx : found x with
    | true => simp [ih, hx]
    | false => simp [ih, hx, List.append_assoc]

theorem sendQueueFreeAllByTransport_sublist (client : SendClient) (queue : List SendQueueEntry) :
    (sendQueueFreeAllByTransport client queue).Sublist queue := by
  have h := sendQueueFreeLoop_append (fun _ => client.comparable) queue []
  rw [List.append_nil, List.nil_append] at h
  unfold sendQueueFreeAllByTransport
  rw [h]
  exact List.filter_sublist

/-- The count is not at its largest value when it is counted up. -/
def CountFits (s : SendQueueState) : SendQueueAction → Prop
  | .count => s.queueProcessCount + 1 < word32
  | _ => True

theorem sendQueueInv_init (client : SendClient) : SendQueueInv client sendQueueInit [] :=
  { fits := by decide
    covered := Nat.zero_le _
    owed := fun _ h => nomatch h
    paid := fun _ h => nomatch h
    own := fun h => nomatch h
    order := List.Sublist.slnil }

section
variable {client : SendClient} {s : SendQueueState} {events : List SendQueueEvent}

theorem sendQueueInv_push (h : SendQueueInv client s events) (entry : SendQueueEntry)
    (calloc : Bool) :
    SendQueueInv client { s with
        queue := (sendQueuePush s.queue entry calloc).1, pushed := s.pushed + 1 }
      (events ++ (sendQueuePush s.queue entry calloc).2) := by
  obtain ⟨hfit, hcov, howed, hpaid, hown, horder⟩ := h
  cases calloc with
  | false =>
    refine ⟨hfit, ?_, howed, fun ho hl => ?_, hown, ?_⟩
    · simp only [sendQueuePush, Bool.false_eq_true, if_false]
      omega
    · have := hpaid ho hl
      simp only [sendQueuePush, Bool.false_eq_true, if_false]
      omega
    · simpa [sendQueuePush] using horder
  | true =>
    refine ⟨hfit, ?_, howed, fun ho hl => ?_, hown, ?_⟩
    · simp only [sendQueuePush, if_true, List.length_append, List.length_singleton]
      omega
    · have := hpaid ho hl
      simp only [sendQueuePush, if_true, List.length_append, List.length_singleton]
      omega
    · rw [pushedEntries_append, sentEntries_append]
      have happ := horder.append (List.Sublist.refl [entry])
      simpa [sendQueuePush, pushedEntries, sentEntries] using happ

theorem sendQueueInv_count (h : SendQueueInv client s events) (_ : s.pushed ≠ 0)
    (hfits : s.queueProcessCount + 1 < word32) :
    SendQueueInv client { s with
      queueProcessCount := wrap32 (s.queueProcessCount + 1), pushed := s.pushed - 1 } events := by
  obtain ⟨hfit, hcov, howed, hpaid, hown, horder⟩ := h
  rw [wrap32_of_lt hfits]
  refine ⟨hfits, ?_, fun _ _ => Nat.succ_pos _, fun ho hl => ?_, hown, horder⟩
  · show s.queue.length ≤ s.queueProcessCount + 1 + (s.pushed - 1)
    omega
  · have := hpaid ho hl
    show s.queue.length + 1 ≤ s.queueProcessCount + 1 + (s.pushed - 1)
    omega

theorem afterDirect_own (h : afterDirect client = .countDown) : client.ownThread = false := by
  unfold afterDirect at h
  cases ho : client.ownThread with
  | true => simp [ho] at h
  | false => rfl

theorem afterDirect_current : (afterDirect client).current = [] := by
  unfold afterDirect
  split
  · rfl
  · rfl

/-- The thread looks at an empty queue. -/
theorem sendQueueInv_popNone (h : SendQueueInv client s events) (ho : s.stage.owes = true)
    (hq : s.queue = []) : SendQueueInv client { s with stage := afterDirect client } events := by
  obtain ⟨hfit, hcov, howed, _, _, horder⟩ := h
  refine ⟨hfit, hcov, fun hf _ => howed hf ho, fun hf _ => ?_, fun hs => afterDirect_own hs, ?_⟩
  · have := howed hf ho
    show s.queue.length + 1 ≤ s.queueProcessCount + s.pushed
    rw [hq, List.length_nil]
    omega
  · show (sentEntries events ++ (afterDirect client).current ++ s.queue).Sublist _
    rw [afterDirect_current, hq, List.append_nil, List.append_nil]
    rw [List.append_assoc] at horder
    exact (List.sublist_append_left _ _).trans horder

/-- The thread takes the oldest entry. -/
theorem sendQueueInv_pop (h : SendQueueInv client s events) (ho : s.stage.owes = true)
    (hcur : s.stage.current = []) {entry : SendQueueEntry} {queue : List SendQueueEntry}
    (hq : s.queue = entry :: queue) :
    SendQueueInv client { s with queue, stage := .sending entry 0 } events := by
  obtain ⟨hfit, hcov, howed, _, _, horder⟩ := h
  rw [hq, List.length_cons] at hcov
  rw [hq, hcur, List.append_nil] at horder
  refine ⟨hfit, ?_, fun hf _ => howed hf ho, fun _ _ => hcov, (fun hs => nomatch hs), ?_⟩
  · show queue.length ≤ s.queueProcessCount + s.pushed
    omega
  · show (sentEntries events ++ [entry] ++ queue).Sublist _
    rwa [List.append_assoc]

/-- The thread pops the queue, at the start of its loop or after a message was sent. -/
theorem sendQueueInv_popped (h : SendQueueInv client s events) (ho : s.stage.owes = true)
    (hcur : s.stage.current = []) {s' : SendQueueState} {o : List SendQueueEvent}
    (hs : (match s.queue with
      | [] => some ({ s with stage := afterDirect client }, [])
      | entry :: queue => some ({ s with queue, stage := .sending entry 0 }, [])) = some (s', o)) :
    SendQueueInv client s' (events ++ o) := by
  split at hs
  · next hq =>
    obtain ⟨rfl, rfl⟩ := Prod.mk.inj (Option.some.inj hs)
    rw [List.append_nil]
    exact sendQueueInv_popNone h ho hq
  · next entry queue hq =>
    obtain ⟨rfl, rfl⟩ := Prod.mk.inj (Option.some.inj hs)
    rw [List.append_nil]
    exact sendQueueInv_pop h ho hcur hq

/-- A section of the thread that leaves the queue and the count as they are. -/
theorem sendQueueInv_stage (h : SendQueueInv client s events) {stage : ProcessStage}
    {o : List SendQueueEvent} (ho : s.stage.owes = true) (hl : s.stage.looked = true)
    (hne : stage ≠ .countDown) (hp : pushedEntries o = [])
    (hsent : (sentEntries o ++ stage.current).Sublist s.stage.current) :
    SendQueueInv client { s with stage } (events ++ o) := by
  obtain ⟨hfit, hcov, howed, hpaid, _, horder⟩ := h
  refine ⟨hfit, hcov, fun hf _ => howed hf ho, fun hf _ => hpaid hf hl, fun hs => absurd hs hne, ?_⟩
  rw [pushedEntries_append, sentEntries_append, hp, List.append_nil, List.append_assoc
    (sentEntries events)]
  exact (((List.Sublist.refl (sentEntries events)).append hsent).append
    (List.Sublist.refl s.queue)).trans horder

theorem sendQueueInv_process (h : SendQueueInv client s events) {sends : Bool}
    {s' : SendQueueState} {o : List SendQueueEvent}
    (hs : processSection client s sends = some (s', o)) : SendQueueInv client s' (events ++ o) := by
  unfold processSection at hs
  split at hs
  · cases hs
  · next hst =>
    obtain ⟨rfl, rfl⟩ := Prod.mk.inj (Option.some.inj hs)
    rw [List.append_nil]
    split
    · exact h
    · next hc =>
      obtain ⟨hfit, hcov, _, _, _, horder⟩ := h
      refine ⟨hfit, hcov, fun _ _ => Nat.pos_of_ne_zero hc, (fun _ hl => nomatch hl),
        (fun hs => nomatch hs), ?_⟩
      rw [hst] at horder
      exact horder
  · next hst =>
    exact sendQueueInv_popped h (by rw [hst]; rfl) (by rw [hst]; rfl) hs
  · next hst =>
    exact sendQueueInv_popped h (by rw [hst]; rfl) (by rw [hst]; rfl) hs
  · next entry c hst =>
    have ho : s.stage.owes = true := by rw [hst]; rfl
    have hl : s.stage.looked = true := by rw [hst]; rfl
    split at hs
    · obtain ⟨rfl, rfl⟩ := Prod.mk.inj (Option.some.inj hs)
      exact sendQueueInv_stage h ho hl (by simp) rfl (by rw [hst]; exact List.Sublist.refl _)
    · split at hs
      · obtain ⟨rfl, rfl⟩ := Prod.mk.inj (Option.some.inj hs)
        exact sendQueueInv_stage h ho hl (by simp) rfl (by rw [hst]; exact List.Sublist.refl _)
      · obtain ⟨rfl, rfl⟩ := Prod.mk.inj (Option.some.inj hs)
        exact sendQueueInv_stage h ho hl (by simp) rfl (List.nil_sublist _)
  · next hst =>
    obtain ⟨rfl, rfl⟩ := Prod.mk.inj (Option.some.inj hs)
    have hsub := sendQueueFreeAllByTransport_sublist client s.queue
    have hlen := hsub.length_le
    obtain ⟨hfit, hcov, howed, hpaid, _, horder⟩ := h
    rw [List.append_nil]
    refine ⟨hfit, Nat.le_trans hlen hcov, fun hf _ => howed hf (by rw [hst]; rfl), fun hf _ => ?_,
      fun hs => afterDirect_own hs, ?_⟩
    · exact Nat.le_trans (Nat.add_le_add_right hlen 1) (hpaid hf (by rw [hst]; rfl))
    · show (sentEntries events ++ (afterDirect client).current ++ _).Sublist _
      rw [hst] at horder
      rw [afterDirect_current]
      exact ((List.Sublist.refl _).append hsub).trans horder
  · next hst =>
    obtain ⟨rfl, rfl⟩ := Prod.mk.inj (Option.some.inj hs)
    obtain ⟨hfit, hcov, howed, hpaid, hown, horder⟩ := h
    have hpos := howed (hown hst) (by rw [hst]; rfl)
    have hpaid' := hpaid (hown hst) (by rw [hst]; rfl)
    have hsub : sub32 s.queueProcessCount 1 = s.queueProcessCount - 1 := sub32_of_le hpos hfit
    rw [hst] at horder
    rw [List.append_nil]
    refine ⟨sub32_lt _ _, ?_, (fun _ ho => nomatch ho), (fun _ hl => nomatch hl),
      (fun hs => nomatch hs), horder⟩
    show s.queue.length ≤ sub32 s.queueProcessCount 1 + s.pushed
    omega

theorem sendQueueInv_step (h : SendQueueInv client s events) {action : SendQueueAction}
    (hc : CountFits s action) {s' : SendQueueState} {o : List SendQueueEvent}
    (hs : sendStep client s action = some (s', o)) : SendQueueInv client s' (events ++ o) := by
  cases action with
  | push entry calloc =>
    obtain ⟨rfl, rfl⟩ := Prod.mk.inj (Option.some.inj hs)
    exact sendQueueInv_push h entry calloc
  | count =>
    simp only [sendStep, Option.ite_none_left_eq_some, Option.some.injEq, Prod.mk.injEq] at hs
    obtain ⟨hp, rfl, rfl⟩ := hs
    rw [List.append_nil]
    exact sendQueueInv_count h hp hc
  | processAll =>
    simp only [sendStep] at hs
    split at hs
    · next hst =>
      obtain ⟨rfl, rfl⟩ := Prod.mk.inj (Option.some.inj hs)
      rw [List.append_nil]
      obtain ⟨hfit, hcov, _, _, _, horder⟩ := h
      rw [hst] at horder
      cases ho : client.ownThread with
      | true =>
        exact ⟨hfit, hcov, (fun hf => nomatch ho.symm.trans hf), (fun _ hl => nomatch hl),
          (fun hs => nomatch hs), horder⟩
      | false =>
        exact ⟨hfit, hcov, (fun _ ho => nomatch ho), (fun _ hl => nomatch hl),
          (fun hs => nomatch hs), horder⟩
    · cases hs
  | process sends => exact sendQueueInv_process h hs

end

/-! ## Whole runs -/

/-- **The send queue**, in every run whose count does not wrap. -/
theorem sendQueue_ok (client : SendClient) (actions : List SendQueueAction) {s : SendQueueState}
    {events : List SendQueueEvent} (hg : Guarded (sendStep client) CountFits sendQueueInit actions)
    (he : exec (sendStep client) sendQueueInit actions = some (s, events)) :
    SendQueueOk s events := by
  have h : SendQueueInv client s events :=
    @exec_track_guarded _ _ _ (sendStep client) CountFits
      (fun s _ events => SendQueueInv client s events)
      (fun _ _ _ _ _ _ h hc hs => sendQueueInv_step h hc hs) _ _ _ _ (sendQueueInv_init client)
      hg he
  exact h.ok

def sampleEntry : SendQueueEntry := ⟨[1], [0x70]⟩

/-- A second message arrives while the first is being sent. -/
def sendSample : List SendQueueAction :=
  [.push sampleEntry true, .count, .processAll, .process true, .process true,
    .push sampleEntry true, .process true, .count, .process true, .process true, .process true,
    .process true]

theorem sendQueue_ok_sample : ∃ s events,
    exec (sendStep ⟨false, true⟩) sendQueueInit sendSample = some (s, events) ∧
      SendQueueOk s events ∧ s.queueProcessCount = 1 :=
  ⟨_, _, rfl, sendQueue_ok ⟨false, true⟩ sendSample
    ⟨trivial, by unfold CountFits; decide, trivial, trivial, trivial, trivial, trivial,
      by unfold CountFits; decide, trivial, trivial, trivial, trivial, trivial⟩ rfl, rfl⟩

/-! ## A count that wraps -/

/-- Messages keep arriving while the thread sends the one before. -/
def sendOneMore : List SendQueueAction :=
  [.push sampleEntry true, .count, .process true, .process true]

theorem exec_sendOneMore (n : Nat) : ∀ c : Nat, ∃ events,
    exec (sendStep ⟨false, true⟩) ⟨[], wrap32 c, 0, .sending sampleEntry 0⟩
      (List.replicate n sendOneMore).flatten =
        some (⟨[], wrap32 (c + n), 0, .sending sampleEntry 0⟩, events) := by
  induction n with
  | zero => exact fun c => ⟨[], rfl⟩
  | succ n ih =>
    intro c
    have hw : wrap32 (wrap32 c + 1) = wrap32 (c + 1) := by simp [wrap32]
    obtain ⟨events, he⟩ := ih (c + 1)
    have hone : exec (sendStep ⟨false, true⟩) ⟨[], wrap32 c, 0, .sending sampleEntry 0⟩ sendOneMore =
        some (⟨[], wrap32 (c + 1), 0, .sending sampleEntry 0⟩,
          [.pushed sampleEntry, .sent sampleEntry]) := by
      rw [← hw]
      rfl
    refine ⟨[.pushed sampleEntry, .sent sampleEntry] ++ events, ?_⟩
    rw [List.replicate_succ, List.flatten_cons]
    have hsum : c + (n + 1) = c + 1 + n := by omega
    rw [hsum]
    exact exec_append.mpr ⟨_, _, events, hone, he, rfl⟩

/-- After as many messages as there are words, the count is zero and a message waits. -/
theorem count_wraps : ∃ actions s events,
    exec (sendStep ⟨false, true⟩) sendQueueInit actions = some (s, events) ∧
      s.queueProcessCount = 0 ∧ s.pushed = 0 ∧ s.queue = [sampleEntry] ∧
      ¬ SendQueueOk s events := by
  have hstart : exec (sendStep ⟨false, true⟩) sendQueueInit
      [.push sampleEntry true, .count, .processAll, .process true, .process true] =
        some (⟨[], wrap32 1, 0, .sending sampleEntry 0⟩, [.pushed sampleEntry]) := rfl
  obtain ⟨events, hmore⟩ := exec_sendOneMore (word32 - 2) 1
  have hlast : exec (sendStep ⟨false, true⟩)
      ⟨[], wrap32 (1 + (word32 - 2)), 0, .sending sampleEntry 0⟩ [.push sampleEntry true, .count] =
        some (⟨[sampleEntry], 0, 0, .sending sampleEntry 0⟩, [.pushed sampleEntry]) := rfl
  refine ⟨_, _, _, exec_append.mpr ⟨_, _, _, hstart, exec_append.mpr ⟨_, _, _, hmore, hlast, rfl⟩,
    rfl⟩, rfl, rfl, rfl, fun h => ?_⟩
  have := h.noLostWakeup rfl rfl
  cases this

end Cmsg.Client
