import Cmsg.Server.Queue

/-! # The order of invocations

A request goes to its implementation either at once or through the receive
queue, which is first in, first out. The two routes agree on the order as long
as no request takes the direct one while the queue holds another. That happens
between `cmsg_server_queue_disable`, which opens the direct route, and the next
`cmsg_server_queue_process`, which closes it for as long as the drain lasts. -/
namespace Cmsg.Server
open Cmsg.Base Cmsg.Base.Runs Cmsg.Wire

variable {Msg : Type} {svc : Service Msg}

/-- The calls of implementations among the events, as method index and message. -/
def invocations (events : List (Event Msg)) : List (Nat × Msg) :=
  events.filterMap fun
    | .invoked methodIndex message => some (methodIndex, message)
    | .sent _ => none

/-- The requests among the inputs, in the order in which they were received. -/
def received (ops : List (Op svc)) : List (Nat × Msg) :=
  ops.filterMap fun
    | .receive r => some (r.methodIndex.val, r.message)
    | _ => none

def QueueEntry.call (e : QueueEntry svc) : Nat × Msg := (e.methodIndex.val, e.message)

/-- A request that finds others queued does not find its method's filter open. -/
def WaitsItsTurn (s : State svc) : Op svc → Prop
  | .receive r => s.queue = [] ∨ queueFilterLookup s.filters r.methodName ≠ .process
  | _ => True

theorem invocations_append (xs ys : List (Event Msg)) :
    invocations (xs ++ ys) = invocations xs ++ invocations ys :=
  List.filterMap_append

theorem invocations_closure (s : State svc) (reason : ProcessingReason) (name : CString)
    (calloc : Nat → Bool) (response : Option Response) :
    invocations (closure s reason name calloc response) = [] := by
  unfold closure
  split
  · simp [invocations, List.filterMap_map]
  · rfl

/-- A request calls at most its own implementation. -/
theorem invocations_serverInvokeImpl (i : Fin svc.nMethods) (input : Msg)
    {closure : Option Response → List (Event Msg)} (hc : ∀ r, invocations (closure r) = []) :
    (invocations (serverInvokeImpl svc i input closure)).Sublist [(i.val, input)] := by
  rcases serverInvokeImpl_cases svc i input closure with ⟨response, he⟩ | he | ⟨response, he⟩
  · rw [he, hc]
    exact List.nil_sublist _
  · rw [he]
    exact List.nil_sublist _
  · rw [he]
    show ((i.val, input) :: invocations (closure response)).Sublist _
    rw [hc]

theorem invocations_invokeEntries (queue : List (QueueEntry svc)) :
    (invocations (invokeEntries queue)).Sublist (queue.map QueueEntry.call) := by
  induction queue with
  | nil => exact List.nil_sublist _
  | cons e queue ih =>
    have he : (invocations (serverInvokeImpl svc e.methodIndex e.message fun _ => [])).Sublist
        [e.call] := invocations_serverInvokeImpl e.methodIndex e.message fun _ => rfl
    rw [invokeEntries, List.flatMap_cons, invocations_append]
    exact he.append ih

/-- What has been invoked, then what is queued, in the order of arrival. -/
def InOrder (s : State svc) (ops : List (Op svc)) (events : List (Event Msg)) : Prop :=
  (invocations events ++ s.queue.map QueueEntry.call).Sublist (received ops)

theorem inOrder_receive {s : State svc} {ops : List (Op svc)} {events : List (Event Msg)}
    {r : Request svc} (h : InOrder s ops events) (hc : WaitsItsTurn s (.receive r)) :
    InOrder (serverStep s (.receive r)).1 (ops ++ [.receive r])
      (events ++ (serverStep s (.receive r)).2) := by
  have hr : received (ops ++ [.receive r]) = received ops ++ [(r.methodIndex.val, r.message)] := by
    simp [received, List.filterMap_append]
  unfold InOrder at h ⊢
  rw [hr, receive_state, receive_events, invocations_append]
  cases hf : queueFilterLookup s.filters r.methodName with
  | process =>
    have hq : s.queue = [] := hc.resolve_right fun hn => hn hf
    have hi := invocations_serverInvokeImpl r.methodIndex r.message
      (invocations_closure s .okToInvoke r.methodNameRecvd r.calloc)
    simp only [hq, List.map_nil, List.append_nil] at h
    simpa [hq] using h.append hi
  | queue =>
    simp only [if_true, invocations_closure, List.append_nil]
    unfold receiveQueuePush
    split
    · simpa [QueueEntry.call] using h.append (List.Sublist.refl [(r.methodIndex.val, r.message)])
    · exact h.trans (List.sublist_append_left _ _)
  | drop =>
    simp only [reduceCtorEq, if_false, invocations_closure, List.append_nil]
    exact h.trans (List.sublist_append_left _ _)
  | error =>
    simp only [reduceCtorEq, if_false, invocations, List.filterMap_nil, List.append_nil]
    exact h.trans (List.sublist_append_left _ _)

theorem inOrder_step {s : State svc} {ops : List (Op svc)} {events : List (Event Msg)}
    {op : Op svc} (h : InOrder s ops events) (hc : WaitsItsTurn s op) :
    InOrder (serverStep s op).1 (ops ++ [op]) (events ++ (serverStep s op).2) := by
  by_cases hop : ∃ r, op = .receive r
  · obtain ⟨r, rfl⟩ := hop
    exact inOrder_receive h hc
  · obtain ⟨k, hqueue, hevents⟩ := serverStep_takes s op fun r hr => hop ⟨r, hr⟩
    have hsub : (received ops).Sublist (received (ops ++ [op])) := by
      rw [received, received, List.filterMap_append]
      exact List.sublist_append_left _ _
    have hk := (invocations_invokeEntries (s.queue.take k)).append
      (List.Sublist.refl ((s.queue.drop k).map QueueEntry.call))
    rw [← List.map_append, List.take_append_drop] at hk
    unfold InOrder at h ⊢
    rw [hqueue, hevents, invocations_append, List.append_assoc]
    exact ((List.Sublist.refl (invocations events)).append hk).trans (h.trans hsub)

/-- **Requests are invoked in the order of their arrival**, and the queued ones
come after them, in every run in which no request finds its filter open while
others are queued. -/
theorem invoked_in_order (rpc : Bool) (ops : List (Op svc)) {s : State svc}
    {events : List (Event Msg)} (hg : Guarded step WaitsItsTurn (serverCreate svc rpc) ops)
    (he : exec step (serverCreate svc rpc) ops = some (s, events)) :
    (invocations events ++ s.queue.map QueueEntry.call).Sublist (received ops) := by
  have h₀ : InOrder (serverCreate svc rpc) [] [] := List.nil_sublist _
  refine exec_track_guarded (R := InOrder) ?_ h₀ hg he
  intro s ops events op s' o hR hC hs
  have hstep := inOrder_step hR hC
  rw [step_eq_some.mp hs] at hstep
  exact hstep

/-- Two requests queued and drained are invoked in order. -/
theorem invoked_in_order_queued :
    ∃ s events, exec step (serverCreate sampleService true)
        [.queueEnable, .receive sampleRequest, .queueDisable, .queueProcess,
          .receive sampleRequest] = some (s, events) ∧
      (invocations events ++ s.queue.map QueueEntry.call).Sublist
        [(0, []), (0, [])] :=
  ⟨_, _, rfl, invoked_in_order true
    [.queueEnable, .receive sampleRequest, .queueDisable, .queueProcess, .receive sampleRequest]
    ⟨trivial, .inl rfl, trivial, trivial, .inl rfl, trivial⟩ rfl⟩

/-- The condition is needed: a request that finds its filter open while others
are queued takes the direct route past them. -/
theorem overtakes_of_not_waits {s : State svc} {r : Request svc}
    (h : ¬ WaitsItsTurn s (.receive r)) :
    s.queue ≠ [] ∧ (serverStep s (.receive r)).1.queue = s.queue ∧
      (serverStep s (.receive r)).2 = serverInvokeImpl svc r.methodIndex r.message
        (closure s .okToInvoke r.methodNameRecvd r.calloc) := by
  obtain ⟨hq, hf⟩ := not_or.mp h
  have hf' := not_not.mp hf
  refine ⟨hq, ?_, ?_⟩
  · rw [receive_state, hf']
    rfl
  · rw [receive_events, hf']

/-- A request received after `cmsg_server_queue_disable` overtakes the one that
is still queued. -/
theorem queueDisable_lets_overtake :
    ∃ s events, exec step (serverCreate sampleService true)
        [.queueEnable, .receive { sampleRequest with message := [1] }, .queueDisable,
          .receive { sampleRequest with message := [2] }, .queueProcess] = some (s, events) ∧
      invocations events = [(0, [2]), (0, [1])] :=
  ⟨_, _, rfl, rfl⟩

end Cmsg.Server
