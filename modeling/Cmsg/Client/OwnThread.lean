import Cmsg.Client.QueuedCalls

/-! # A client that is used by one thread

The thread that made the client calls, changes the filters of all methods at once and
empties the queue, each to its end before the next. `cmsg_client_queue_disable` sends what
is queued before it lets calls through again, so that no message overtakes another. -/
namespace Cmsg.Client
open Cmsg.Base Cmsg.Base.Runs
open Cmsg.Server (QueueFilterType FilterTable queueFilterInit queueFilterSet queueFilterSetAll
  queueFilterLookup queueFilterLookup_setAll)

/-- What the application does. -/
inductive Operation
  | call (call : Call)
  /-- `cmsg_client_queue_filter_set_all`, of which `cmsg_client_queue_enable` is a case. -/
  | filterSetAll (type : QueueFilterType)
  | queueDisable
  | queueProcessAll

def CallAction.isCall : CallAction → Bool
  | .push _ _ _ | .count _ | .callback _ _ | .lock _ | .send _ _ _ _ _ => true
  | _ => false

def CallAction.isProcess : CallAction → Bool
  | .process _ => true
  | _ => false

/-- The loop of `cmsg_queue_filter_set_all` over the methods of the descriptor. -/
def setAllActions (names : List CString) (type : QueueFilterType) : List CallAction :=
  names.map (.setFilter · type)

/-- The sections that an operation consists of. -/
inductive Performs (names : List CString) : Operation → List CallAction → Prop
  | call (call : Call) (sections : List CallAction) (h : ∀ a ∈ sections, a.isCall = true) :
      Performs names (.call call) (.invoke call none :: sections)
  | filterSetAll (type : QueueFilterType) :
      Performs names (.filterSetAll type) (setAllActions names type)
  | queueDisable (sections : List CallAction) (h : ∀ a ∈ sections, a.isProcess = true) :
      Performs names .queueDisable (setAllActions names .process ++ .processAll :: sections)
  | queueProcessAll (sections : List CallAction) (h : ∀ a ∈ sections, a.isProcess = true) :
      Performs names .queueProcessAll (.processAll :: sections)

variable {names : List CString}

/-- No call is in flight, and the queue is not being emptied. -/
structure QueuedClient.Quiet (s : QueuedClient names) : Prop where
  calls : s.calls = []
  idle : s.queue.stage = .idle

/-- Operations one after the other, each to its end. -/
inductive OwnRun (client : SendClient) :
    QueuedClient names → List Operation → List CallEvent → Prop
  | init : OwnRun client (queuedClientInit names) [] []
  | operation {s s' : QueuedClient names} {ops : List Operation} {events o : List CallEvent}
      {actions : List CallAction} (op : Operation) (h : OwnRun client s ops events)
      (ha : Performs names op actions) (he : exec (callStep client) s actions = some (s', o))
      (hq : s'.Quiet) : OwnRun client s' (ops ++ [op]) (events ++ o)

/-! ## What the application asked for -/

/-- How calls are treated after an operation. -/
def Operation.filterType (type : QueueFilterType) : Operation → QueueFilterType
  | .filterSetAll type' => type'
  | .queueDisable => .process
  | .call _ | .queueProcessAll => type

/-- The message of a call that is let through. -/
def Operation.accepted (names : List CString) (type : QueueFilterType) :
    Operation → List SendQueueEntry
  | .call c => if c.methodName ∈ names ∧ (shouldQueue type).1 = .ok then c.entry.toList else []
  | _ => []

/-- How calls are treated after the operations, and the messages that were let through, in
the order of the calls. -/
def letThrough (names : List CString) (ops : List Operation) :
    QueueFilterType × List SendQueueEntry :=
  ops.foldl (fun r op => (op.filterType r.1, r.2 ++ op.accepted names r.1)) (.process, [])

/-- The calls are never let through past a queue that may hold messages: the filters are
set to `CMSG_QUEUE_FILTER_PROCESS` by `cmsg_client_queue_disable` only. -/
def Operation.KeepsOrder : Operation → Prop
  | .filterSetAll type => type ≠ .process
  | _ => True

theorem letThrough_append (ops : List Operation) (op : Operation) :
    letThrough names (ops ++ [op]) = (op.filterType (letThrough names ops).1,
      (letThrough names ops).2 ++ op.accepted names (letThrough names ops).1) := by
  rw [letThrough, List.foldl_append]
  rfl

/-! ## A call -/

def CallStage.isDirect : CallStage → Bool
  | .locking _ | .sending _ => true
  | _ => false

/-- What holds while a call is made. -/
structure Calling (type : QueueFilterType) (s : QueuedClient names) (events : List CallEvent)
    (wanted : List SendQueueEntry) : Prop where
  filters : ∀ m ∈ names, queueFilterLookup s.filters m = type
  idle : s.queue.stage = .idle
  one : s.calls.length ≤ 1
  direct : ∀ c ∈ s.calls, c.isDirect = true → type = .process
  empty : type = .process → s.queue.queue = [] ∧ ∀ c ∈ s.calls, c.isDirect = true
  order : (allSent events ++ s.queue.queue ++ s.calls.flatMap CallStage.entries).Sublist wanted

theorem takeCall_one {calls rest : List CallStage} {i : Nat} {stage : CallStage}
    (h : takeCall calls i = some (stage, rest)) (hone : calls.length ≤ 1) :
    calls = [stage] ∧ rest = [] := by
  have hperm := takeCall_perm h
  have hlen := hperm.length_eq
  rw [List.length_cons] at hlen
  obtain rfl : rest = [] := List.length_eq_zero_iff.mp (by omega)
  exact ⟨List.perm_singleton.mp hperm, rfl⟩

section
variable {client : SendClient} {type : QueueFilterType} {s s' : QueuedClient names}
  {action : CallAction} {events o : List CallEvent} {wanted : List SendQueueEntry}

/-- What each section of some kind keeps is kept by any number of them. -/
theorem sections_run {kind : CallAction → Prop}
    {P : QueuedClient names → List CallEvent → Prop} {actions : List CallAction}
    (hstep : ∀ s action s' events o, P s events → kind action →
      CallSection client s action s' o → P s' (events ++ o))
    (h : P s events) (hk : ∀ a ∈ actions, kind a)
    (he : exec (callStep client) s actions = some (s', o)) : P s' (events ++ o) := by
  refine exec_track_guarded (C := fun _ a => kind a) (R := fun s _ o => P s (events ++ o))
    (fun s _ o action s' o' hp hc hs => ?_) ?_ (guarded_of_forall fun a ha _ => hk a ha) he
  · rw [← List.append_assoc]
    exact hstep _ _ _ _ _ hp hc (callStep_cases hs)
  · rwa [List.append_nil]

/-- A section after which the call has the message it had, or is over without it. -/
theorem Calling.moved (hc : Calling type s events wanted) {s' : QueuedClient names}
    (hfilters : s'.filters = s.filters) (hstage : s'.queue.stage = s.queue.stage)
    (hqueue : s'.queue.queue = s.queue.queue) {stage : CallStage} (hs : s.calls = [stage])
    (hs' : s'.calls = [] ∨ ∃ stage', s'.calls = [stage'] ∧
      stage'.isDirect = stage.isDirect ∧ stage'.entries = stage.entries)
    (hsent : allSent o = []) : Calling type s' (events ++ o) wanted := by
  obtain ⟨hset, hidle, hone, hdirect, hempty, horder⟩ := hc
  have hmem : stage ∈ s.calls := hs ▸ List.mem_singleton_self stage
  have hd : ∀ c ∈ s'.calls, c.isDirect = stage.isDirect := by
    intro c hc
    obtain hnil | ⟨stage', hone', hsame, -⟩ := hs'
    · rw [hnil] at hc
      cases hc
    · rw [hone'] at hc
      rw [List.mem_singleton.mp hc, hsame]
  have hlen : s'.calls.length ≤ 1 := by
    obtain hnil | ⟨stage', hone', -⟩ := hs'
    · rw [hnil]
      exact Nat.zero_le 1
    · rw [hone']
      exact Nat.le_refl 1
  have hsub : (s'.calls.flatMap CallStage.entries).Sublist (s.calls.flatMap CallStage.entries) := by
    rw [hs]
    obtain hnil | ⟨stage', hone', -, hentries⟩ := hs'
    · rw [hnil]
      exact List.nil_sublist _
    · rw [hone', List.flatMap_singleton, List.flatMap_singleton, hentries]
  refine ⟨hfilters ▸ hset, hstage.trans hidle, hlen,
    fun c hc hdc => hdirect stage hmem ((hd c hc).symm.trans hdc),
    fun he => ⟨hqueue.trans (hempty he).1, fun c hc => (hd c hc).trans ((hempty he).2 stage hmem)⟩,
    ?_⟩
  rw [allSent_append, hsent, List.append_nil, hqueue]
  exact ((List.Sublist.refl _).append hsub).trans horder

theorem calling_section (hc : Calling type s events wanted) (ha : action.isCall = true)
    (h : CallSection client s action s' o) : Calling type s' (events ++ o) wanted := by
  have ⟨hfilters, hidle, hone, hdirect, hempty, horder⟩ := hc
  cases h with
  | refused | accepted | setFilter | processAll | process => cases ha
  | unpacked _ _ ht | unsent _ _ _ _ ht =>
    obtain ⟨hs, rfl⟩ := takeCall_one ht hone
    exact hc.moved rfl rfl rfl hs (.inl rfl) rfl
  | calledBack configured ht =>
    obtain ⟨hs, rfl⟩ := takeCall_one ht hone
    cases configured with
    | true | false => exact hc.moved rfl rfl rfl hs (.inl rfl) rfl
  | locked ht hl =>
    obtain ⟨hs, rfl⟩ := takeCall_one ht hone
    exact hc.moved rfl rfl rfl hs (.inr ⟨_, rfl, rfl, rfl⟩) rfl
  | counted ht hq =>
    obtain ⟨hs, rfl⟩ := takeCall_one ht hone
    obtain ⟨hstage, hqueue, -, rfl⟩ := sendStep_count hq
    exact hc.moved rfl hstage hqueue hs (.inr ⟨_, rfl, rfl, rfl⟩) rfl
  | pushed _ entry ht hp hq =>
    obtain ⟨hs, rfl⟩ := takeCall_one ht hone
    obtain ⟨hstage, hqueue, -, hsent⟩ := sendStep_push hq
    -- a call that is queued is not made while calls are let through
    have htype : type ≠ .process := by
      intro he
      have hd := (hempty he).2 _ (by rw [hs]; exact List.mem_singleton_self _)
      cases hd
    rw [hs, List.flatMap_singleton, CallStage.entries, hp] at horder
    refine ⟨hfilters, hstage.trans hidle, Nat.le_refl 1, ?_, fun he => absurd he htype, ?_⟩
    · intro c hmem hd
      rw [List.mem_singleton.mp hmem] at hd
      cases hd
    · refine List.Sublist.trans ?_ horder
      rw [allSent_append, allSent_append, allSent_map_queue, hsent, hqueue]
      cases entry with
      | true => simp [CallStage.entries]
      | false => simp [CallStage.entries, CallEvent.sent]
  | sent _ _ _ _ ht hp =>
    obtain ⟨hs, rfl⟩ := takeCall_one ht hone
    have hprocess := hdirect _ (by rw [hs]; exact List.mem_singleton_self _) rfl
    obtain ⟨hnil, -⟩ := hempty hprocess
    refine ⟨hfilters, hidle, Nat.zero_le 1, (fun _ hmem => absurd hmem List.not_mem_nil),
      (fun _ => ⟨hnil, fun _ hmem => absurd hmem List.not_mem_nil⟩), ?_⟩
    rw [hs, List.flatMap_singleton, CallStage.entries, hp, hnil] at horder
    rw [allSent_append, hnil]
    simpa [CallEvent.sent] using horder

theorem calling_run {sections : List CallAction} (hc : Calling type s events wanted)
    (hs : ∀ a ∈ sections, a.isCall = true)
    (he : exec (callStep client) s sections = some (s', o)) :
    Calling type s' (events ++ o) wanted :=
  sections_run (P := fun s events => Calling type s events wanted)
    (fun _ _ _ _ _ hc ha h => calling_section hc ha h) hc hs he

/-! ## Emptying the queue -/

/-- What holds while the queue is emptied. -/
structure Emptying (type : QueueFilterType) (s : QueuedClient names) (events : List CallEvent)
    (wanted : List SendQueueEntry) : Prop where
  filters : ∀ m ∈ names, queueFilterLookup s.filters m = type
  calls : s.calls = []
  notCounting : s.queue.stage ≠ .countDown
  empty : s.queue.stage = .idle → s.queue.queue = []
  order : (allSent events ++ (s.queue.stage.current ++ s.queue.queue)).Sublist wanted

/-- In the own thread of a client whose transport can be compared, the queue is empty
after it was emptied, and what is sent was at its front. -/
theorem sendStep_process_own (hown : client.ownThread = true) (hcomp : client.comparable = true)
    {q q' : SendQueueState} {sends : Bool} {o : List SendQueueEvent}
    (h : sendStep client q (.process sends) = some (q', o)) (hcount : q.stage ≠ .countDown) :
    q'.stage ≠ .countDown ∧ (q'.stage = .idle → q'.queue = []) ∧
      (sentEntries o ++ (q'.stage.current ++ q'.queue)).Sublist (q.stage.current ++ q.queue) := by
  have hafter : afterDirect client = .idle := if_pos hown
  cases sendStep_process_cases h with
  | waited hst =>
    rw [hst]
    exact ⟨by simp, (by intro hs; cases hs), List.Sublist.refl _⟩
  | woken hst =>
    rw [hst]
    exact ⟨by simp, (by intro hs; cases hs), List.Sublist.refl _⟩
  | emptied hst hq =>
    rw [hafter, hq]
    exact ⟨by simp, fun _ => rfl, List.nil_sublist _⟩
  | popped hst hq =>
    rw [hq]
    exact ⟨by simp, (by intro hs; cases hs), List.sublist_append_right _ _⟩
  | sent hst | retried hst =>
    rw [hst]
    exact ⟨by simp, (by intro hs; cases hs), List.Sublist.refl _⟩
  | givenUp hst =>
    exact ⟨by simp, (by intro hs; cases hs), List.sublist_append_right _ _⟩
  | freed hst =>
    rw [hafter, hcomp]
    exact ⟨by simp, fun _ => List.filter_false _, by simp [sentEntries, ProcessStage.current]⟩
  | countedDown hst => exact absurd hst hcount

theorem emptying_section (hown : client.ownThread = true) (hcomp : client.comparable = true)
    (hc : Emptying type s events wanted) (ha : action.isProcess = true)
    (h : CallSection client s action s' o) : Emptying type s' (events ++ o) wanted := by
  obtain ⟨hfilters, hcalls, hcount, -, horder⟩ := hc
  cases h with
  | process sends hq =>
    obtain ⟨hcount', hempty', hsub⟩ := sendStep_process_own hown hcomp hq hcount
    refine ⟨hfilters, hcalls, hcount', hempty', ?_⟩
    rw [allSent_append, allSent_append, allSent_map_queue, allSent_map_discarded, List.append_nil,
      List.append_assoc]
    exact ((List.Sublist.refl _).append hsub).trans horder
  | refused | accepted | unpacked | pushed | counted | calledBack | locked | unsent | sent
  | setFilter | processAll => cases ha

end

/-! ## Operations -/

/-- What holds between two operations. -/
structure OwnInv (s : QueuedClient names) (ops : List Operation) (events : List CallEvent) :
    Prop where
  quiet : s.Quiet
  filters : ∀ m ∈ names, queueFilterLookup s.filters m = (letThrough names ops).1
  empty : (letThrough names ops).1 = .process → s.queue.queue = []
  accepted : acceptedEntries events = (letThrough names ops).2
  order : (allSent events ++ s.queue.queue).Sublist (letThrough names ops).2

section
variable {client : SendClient} {s s' : QueuedClient names} {ops : List Operation}
  {events o : List CallEvent}

theorem ownInv_init : OwnInv (queuedClientInit names) [] [] where
  quiet := ⟨rfl, rfl⟩
  filters m hm := by
    simp [queuedClientInit, queueFilterInit, queueFilterLookup, Server.lookup_filterInsertAll, hm,
      letThrough]
  empty _ := rfl
  accepted := rfl
  order := List.Sublist.refl _

/-- A call is let through only if the client has its method. -/
theorem mem_of_accepted {F : FilterTable names} {m : CString}
    (h : queueFilterLookup F m ≠ .error) : m ∈ names := by
  refine (F.known m).mp ?_
  cases hl : F.table.lookup m with
  | none =>
    rw [queueFilterLookup, hl] at h
    exact absurd rfl h
  | some _ => rfl

/-- What a call is answered without a filter function. -/
theorem queueAction_none (hi : OwnInv s ops events) (m : CString) :
    queueAction s.filters m none = if m ∈ names then (letThrough names ops).1 else .error := by
  by_cases hm : m ∈ names
  · rw [if_pos hm]
    exact hi.filters m hm
  · rw [if_neg hm]
    by_contra hne
    exact hm (mem_of_accepted hne)

/-- The call is looked up, and let through as the filters say. -/
theorem calling_invoke (hi : OwnInv s ops events) {c : Call}
    (h : CallSection client s (.invoke c none) s' o) :
    acceptedEntries o = Operation.accepted names (letThrough names ops).1 (.call c) ∧
      Calling (letThrough names ops).1 s' (events ++ o)
        (letThrough names (ops ++ [.call c])).2 := by
  have hanswer := queueAction_none hi c.methodName
  obtain ⟨⟨hcalls, hidle⟩, hfilters, hempty, -, horder⟩ := hi
  rw [letThrough_append]
  cases h with
  | @refused _ _ found ha hr =>
    have hnone : Operation.accepted names (letThrough names ops).1 (.call c) = [] := by
      refine if_neg fun h => hr ?_
      rw [← ha, hanswer, if_pos h.1]
      exact h.2
    refine ⟨by simp [CallEvent.accepted, hr, hnone], hfilters, hidle, by simp [hcalls],
      by simp [hcalls], fun he => ⟨hempty he, by simp [hcalls]⟩, ?_⟩
    rw [hnone, allSent_append, hcalls]
    simpa [CallEvent.sent] using horder
  | @accepted _ _ found stage ha hr =>
    have hok : (shouldQueue found).1 = .ok := by
      obtain ⟨rfl, -⟩ | ⟨rfl, -⟩ := hr
      · rfl
      · rfl
    have hmem : c.methodName ∈ names := by
      by_contra hm
      rw [hanswer, if_neg hm] at ha
      rw [← ha] at hok
      cases hok
    have htype : (letThrough names ops).1 = found := by
      rw [← ha, hanswer, if_pos hmem]
    have hwanted : Operation.accepted names (letThrough names ops).1 (.call c) =
        c.entry.toList := by
      rw [htype]
      exact if_pos ⟨hmem, hok⟩
    have hentries : stage.entries = c.entry.toList := by
      obtain ⟨-, rfl⟩ | ⟨-, rfl⟩ := hr
      · rfl
      · rfl
    refine ⟨by simp [CallEvent.accepted, hok, hwanted], hfilters, hidle, by simp [hcalls], ?_, ?_,
      ?_⟩
    · intro d hd hdirect
      obtain ⟨rfl, rfl⟩ | ⟨rfl, rfl⟩ := hr
      · simp only [hcalls, List.mem_singleton] at hd
        subst hd
        cases hdirect
      · exact htype
    · intro he
      refine ⟨hempty he, fun d hd => ?_⟩
      simp only [hcalls, List.mem_singleton] at hd
      subst hd
      obtain ⟨rfl, rfl⟩ | ⟨rfl, rfl⟩ := hr
      · cases htype.symm.trans he
      · rfl
    · have hboth := horder.append (List.Sublist.refl c.entry.toList)
      rw [hwanted, allSent_append]
      simpa [CallEvent.sent, hcalls, hentries] using hboth

/-- Only looking a method up lets a call through. -/
theorem callSection_accepted {action : CallAction} (ha : ∀ c answer, action ≠ .invoke c answer)
    (h : CallSection client s action s' o) : acceptedEntries o = [] := by
  cases h with
  | refused c answer | accepted c answer => exact absurd rfl (ha c answer)
  | unpacked | locked | unsent | sent | setFilter => rfl
  | calledBack configured =>
    cases configured with
    | true | false => rfl
  | pushed _ entry =>
    rw [acceptedEntries_append, acceptedEntries_map_queue]
    cases entry with
    | true | false => rfl
  | counted | processAll => exact acceptedEntries_map_queue _
  | process sends hq => simp [acceptedEntries_append]

theorem acceptedEntries_eq_nil {actions : List CallAction}
    (ha : ∀ a ∈ actions, ∀ c answer, a ≠ .invoke c answer)
    (he : exec (callStep client) s actions = some (s', o)) : acceptedEntries o = [] := by
  change acceptedEntries ([] ++ o) = []
  refine sections_run (P := fun _ events => acceptedEntries events = []) ?_ rfl ha he
  intro s action s' events o hnil ha h
  rw [acceptedEntries_append, hnil, List.nil_append]
  exact callSection_accepted ha h

theorem ownInv_call {c : Call} {sections : List CallAction} (hi : OwnInv s ops events)
    (hs : ∀ a ∈ sections, a.isCall = true)
    (he : exec (callStep client) s (.invoke c none :: sections) = some (s', o))
    (hq : s'.Quiet) : OwnInv s' (ops ++ [.call c]) (events ++ o) := by
  obtain ⟨s₁, o₁, o₂, hinvoke, hrest, rfl⟩ := exec_cons.mp he
  obtain ⟨haccepted, hfirst⟩ := calling_invoke hi (callStep_cases hinvoke)
  have hnone : acceptedEntries o₂ = [] := acceptedEntries_eq_nil (fun a ha c answer hc => by
    have hcall := hs a ha
    rw [hc] at hcall
    cases hcall) hrest
  have hlast : Calling (letThrough names ops).1 s' (events ++ o₁ ++ o₂)
      (letThrough names (ops ++ [.call c])).2 :=
    calling_run hfirst hs hrest
  have htype : (letThrough names (ops ++ [.call c])).1 = (letThrough names ops).1 := by
    rw [letThrough_append]
    rfl
  rw [← List.append_assoc]
  refine ⟨hq, htype.symm ▸ hlast.filters, fun hp => (hlast.empty (htype ▸ hp)).1, ?_, ?_⟩
  · rw [acceptedEntries_append, acceptedEntries_append, hnone, List.append_nil, haccepted,
      hi.accepted, letThrough_append]
  have horder := hlast.order
  rwa [hq.calls, List.flatMap_nil, List.append_nil] at horder

theorem exec_setAllActions (type : QueueFilterType) (methods : List CString)
    (s : QueuedClient names) : exec (callStep client) s (methods.map (.setFilter · type)) =
      some ({ s with
        filters := methods.foldl (fun F m => (queueFilterSet F m type).1) s.filters }, []) := by
  induction methods generalizing s with
  | nil => rfl
  | cons m methods ih =>
    rw [List.map_cons, exec_cons]
    exact ⟨_, [], [], rfl, ih _, rfl⟩

theorem ownInv_filterSetAll {type : QueueFilterType} (hi : OwnInv s ops events)
    (htype : type ≠ .process)
    (he : exec (callStep client) s (setAllActions names type) = some (s', o)) :
    OwnInv s' (ops ++ [.filterSetAll type]) (events ++ o) := by
  rw [setAllActions, exec_setAllActions] at he
  cases he
  rw [List.append_nil]
  have hthrough : letThrough names (ops ++ [.filterSetAll type]) = _ := letThrough_append ops _
  refine ⟨⟨hi.quiet.calls, hi.quiet.idle⟩, fun m hm => ?_, fun hp => ?_, ?_, ?_⟩
  · rw [hthrough]
    exact queueFilterLookup_setAll s.filters type hm
  · rw [hthrough] at hp
    exact absurd hp htype
  · rw [hthrough, hi.accepted]
    exact (List.append_nil _).symm
  · rw [hthrough]
    exact hi.order.trans (List.sublist_append_left _ _)

/-- The queue is emptied, whatever the filters were set to before. -/
theorem emptying_run (hown : client.ownThread = true) (hcomp : client.comparable = true)
    {type : QueueFilterType} {wanted : List SendQueueEntry} {sections : List CallAction}
    (hcalls : s.calls = []) (hfilters : ∀ m ∈ names, queueFilterLookup s.filters m = type)
    (horder : (allSent events ++ s.queue.queue).Sublist wanted)
    (hs : ∀ a ∈ sections, a.isProcess = true)
    (he : exec (callStep client) s (.processAll :: sections) = some (s', o)) :
    acceptedEntries o = [] ∧ Emptying type s' (events ++ o) wanted := by
  have hnone : acceptedEntries o = [] := by
    refine acceptedEntries_eq_nil (fun a ha c answer hc => ?_) he
    subst hc
    obtain hfirst | hrest := List.mem_cons.mp ha
    · cases hfirst
    · cases hs _ hrest
  obtain ⟨s₁, o₁, o₂, hall, hrest, rfl⟩ := exec_cons.mp he
  have hfirst : Emptying type s₁ (events ++ o₁) wanted := by
    cases callStep_cases hall with
    | processAll hq =>
      obtain ⟨-, rfl, rfl⟩ := sendStep_processAll hq
      rw [hown, if_pos rfl]
      refine ⟨hfilters, hcalls, by simp, (by intro hst; cases hst), ?_⟩
      simpa [ProcessStage.current] using horder
  refine ⟨hnone, ?_⟩
  rw [← List.append_assoc]
  exact sections_run (P := fun s events => Emptying type s events wanted)
    (fun _ _ _ _ _ hc ha h => emptying_section hown hcomp hc ha h) hfirst hs hrest

/-- After an operation that emptied the queue. -/
theorem Emptying.ownInv {op : Operation}
    (h : Emptying (letThrough names (ops ++ [op])).1 s events (letThrough names (ops ++ [op])).2)
    (ha : acceptedEntries events = (letThrough names (ops ++ [op])).2) (hq : s.Quiet) :
    OwnInv s (ops ++ [op]) events ∧ s.queue.queue = [] := by
  have hnil := h.empty hq.idle
  have horder := h.order
  rw [hq.idle] at horder
  exact ⟨⟨hq, h.filters, fun _ => hnil, ha, horder⟩, hnil⟩

theorem ownInv_queueProcessAll (hown : client.ownThread = true) (hcomp : client.comparable = true)
    {sections : List CallAction} (hi : OwnInv s ops events)
    (hs : ∀ a ∈ sections, a.isProcess = true)
    (he : exec (callStep client) s (.processAll :: sections) = some (s', o)) (hq : s'.Quiet) :
    OwnInv s' (ops ++ [.queueProcessAll]) (events ++ o) ∧ s'.queue.queue = [] := by
  have hthrough : letThrough names (ops ++ [.queueProcessAll]) = letThrough names ops := by
    rw [letThrough_append]
    exact Prod.ext rfl (List.append_nil _)
  obtain ⟨hnone, hrun⟩ := emptying_run hown hcomp hi.quiet.calls hi.filters hi.order hs he
  rw [← hthrough] at hrun
  refine hrun.ownInv ?_ hq
  rw [acceptedEntries_append, hnone, List.append_nil, hi.accepted, hthrough]

theorem ownInv_queueDisable (hown : client.ownThread = true) (hcomp : client.comparable = true)
    {sections : List CallAction} (hi : OwnInv s ops events)
    (hs : ∀ a ∈ sections, a.isProcess = true)
    (he : exec (callStep client) s (setAllActions names .process ++ .processAll :: sections) =
      some (s', o)) (hq : s'.Quiet) :
    OwnInv s' (ops ++ [.queueDisable]) (events ++ o) ∧ s'.queue.queue = [] := by
  obtain ⟨s₁, o₁, o₂, hset, hrest, rfl⟩ := exec_append.mp he
  rw [setAllActions, exec_setAllActions] at hset
  cases hset
  have hthrough : letThrough names (ops ++ [.queueDisable]) =
      (.process, (letThrough names ops).2) := by
    rw [letThrough_append]
    exact Prod.ext rfl (List.append_nil _)
  obtain ⟨hnone, hrun⟩ :=
    emptying_run (s := { s with filters := queueFilterSetAll s.filters .process }) hown hcomp
      hi.quiet.calls (fun m hm => queueFilterLookup_setAll s.filters .process hm) hi.order hs hrest
  have hlast : Emptying (letThrough names (ops ++ [.queueDisable])).1 s' (events ++ ([] ++ o₂))
      (letThrough names (ops ++ [.queueDisable])).2 := by
    rw [hthrough]
    exact hrun
  refine hlast.ownInv ?_ hq
  rw [acceptedEntries_append, List.nil_append, hnone, List.append_nil, hi.accepted, hthrough]

end

/-! ## Whole runs -/

/-- The operations that leave the queue empty. -/
def Operation.Empties : Operation → Prop
  | .queueDisable | .queueProcessAll => True
  | _ => False

theorem ownInv_run {client : SendClient} (hown : client.ownThread = true)
    (hcomp : client.comparable = true) {s : QueuedClient names} {ops : List Operation}
    {events : List CallEvent} (h : OwnRun client s ops events)
    (hkeeps : ∀ op ∈ ops, op.KeepsOrder) :
    OwnInv s ops events ∧ (∀ op, ops.getLast? = some op → op.Empties → s.queue.queue = []) := by
  induction h with
  | init => exact ⟨ownInv_init, by intro op hlast; cases hlast⟩
  | @operation s s' ops events o actions op _ ha he hq ih =>
    have hi := (ih fun op' hop => hkeeps op' (List.mem_append_left _ hop)).1
    rw [List.getLast?_concat]
    cases ha with
    | call c sections hs =>
      refine ⟨ownInv_call hi hs he hq, fun op' hlast hempties => ?_⟩
      cases hlast
      cases hempties
    | filterSetAll type =>
      have htype : type ≠ .process := hkeeps (.filterSetAll type) (by simp)
      refine ⟨ownInv_filterSetAll hi htype he, fun op' hlast hempties => ?_⟩
      cases hlast
      cases hempties
    | queueDisable sections hs =>
      obtain ⟨hinv, hnil⟩ := ownInv_queueDisable hown hcomp hi hs he hq
      exact ⟨hinv, fun _ _ _ => hnil⟩
    | queueProcessAll sections hs =>
      obtain ⟨hinv, hnil⟩ := ownInv_queueProcessAll hown hcomp hi hs he hq
      exact ⟨hinv, fun _ _ _ => hnil⟩

theorem OwnRun.exec {client : SendClient} {s : QueuedClient names} {ops : List Operation}
    {events : List CallEvent} (h : OwnRun client s ops events) :
    ∃ actions, Runs.exec (callStep client) (queuedClientInit names) actions = some (s, events) := by
  induction h with
  | init => exact ⟨[], rfl⟩
  | operation op _ _ he _ ih =>
    obtain ⟨actions, hbefore⟩ := ih
    exact ⟨_, exec_append.mpr ⟨_, _, _, hbefore, he, rfl⟩⟩

/-- **A client that is used by one thread** sends the messages of the calls that it lets
through in the order of the calls, each at most once, whether they were queued or not; and
where nothing is lost to a failure, all of them but what the queue holds. The queue is
empty after `cmsg_client_queue_disable` and `cmsg_client_queue_process_all`. -/
theorem own_thread_order {client : SendClient} (hown : client.ownThread = true)
    (hcomp : client.comparable = true) {s : QueuedClient names} {ops : List Operation}
    {events : List CallEvent} (h : OwnRun client s ops events)
    (hkeeps : ∀ op ∈ ops, op.KeepsOrder) :
    (allSent events ++ s.queue.queue).Sublist (letThrough names ops).2 ∧
      (lostEntries events = [] → allSent events ++ s.queue.queue = (letThrough names ops).2) ∧
      (∀ op, ops.getLast? = some op → op.Empties → s.queue.queue = []) := by
  obtain ⟨hi, hlast⟩ := ownInv_run hown hcomp h hkeeps
  obtain ⟨actions, he⟩ := h.exec
  refine ⟨hi.order, fun hlost => hi.order.eq_of_length ?_, hlast⟩
  have haccounts := (accounts_run he).length_eq
  rw [hlost, QueuedClient.held, hi.quiet.calls, hi.quiet.idle, hi.accepted] at haccounts
  simpa [ProcessStage.current] using haccounts.symm

/-- A call is queued, the queue is disabled and a second call is made. -/
def sampleOperations : List Operation :=
  [.filterSetAll .queue, .call (sampleCall 0x6d), .queueDisable, .call (sampleCall 0x6d)]

theorem own_thread_order_disable : ∃ s : QueuedClient [[0x6d]], ∃ events,
    OwnRun ⟨true, true⟩ s sampleOperations events ∧
      allSent events ++ s.queue.queue = (letThrough [[0x6d]] sampleOperations).2 ∧
      (allSent events).length = 2 := by
  have hinit : OwnRun ⟨true, true⟩ (queuedClientInit [[0x6d]]) [] [] := .init
  have henable := OwnRun.operation (.filterSetAll .queue) hinit (.filterSetAll .queue) rfl
    ⟨rfl, rfl⟩
  have hcall := OwnRun.operation (.call (sampleCall 0x6d)) henable
    (.call _ [.push 0 (fun _ => true) true, .count 0, .callback 0 true] (by decide)) rfl ⟨rfl, rfl⟩
  have hdisable := OwnRun.operation .queueDisable hcall
    (.queueDisable [.process true, .process true, .process true] (by decide)) rfl ⟨rfl, rfl⟩
  have hdirect := OwnRun.operation (.call (sampleCall 0x6d)) hdisable
    (.call _ [.lock 0, .send 0 (fun _ => true) .connected ⟨true, none⟩ ⟨true, none⟩] (by decide))
    rfl ⟨rfl, rfl⟩
  have hkeeps : ∀ op ∈ sampleOperations, op.KeepsOrder := by
    simp [sampleOperations, Operation.KeepsOrder]
  exact ⟨_, _, hdirect, (own_thread_order rfl rfl hdirect hkeeps).2.1 rfl, rfl⟩

end Cmsg.Client
