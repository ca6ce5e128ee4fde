import Cmsg.Server.Queue

/-! # Queued requests and the queueing state

Requests are queued only under a `QUEUE` filter, and every function that sets
all filters at once leaves a server whose queue may still hold requests in
`ENABLED` or `TO_DISABLED`. The functions for one method recompute the state
from the filters alone: taking away the last `QUEUE` filter while requests are
queued leaves them stranded in `DISABLED`. -/
namespace Cmsg.Server
open Cmsg.Base Cmsg.Base.Runs

variable {Msg : Type} {svc : Service Msg}

/-- A server in `DISABLED` has nothing queued and queues nothing. -/
def IdleWhenDisabled (s : State svc) : Prop :=
  s.queueingState = .disabled → s.queue = [] ∧ ¬ s.filters.Queues

/-- A per-method call leaves some method queued unless nothing is queued. -/
def KeepsQueueWhileQueued (s : State svc) : Op svc → Prop
  | .queueFilterSet method t => s.filters.KeepsQueue method t ∨ s.queue = []
  | .queueFilterClear method => s.filters.KeepsQueue method .process ∨ s.queue = []
  | _ => True

theorem idle_serverCreate (svc : Service Msg) (rpc : Bool) :
    IdleWhenDisabled (serverCreate svc rpc) := by
  intro _
  refine ⟨rfl, ?_⟩
  rintro ⟨m, hm⟩
  rw [serverCreate, queueFilterInit, lookup_filterInsertAll] at hm
  split at hm <;> cases hm

theorem idle_receive {s : State svc} (h : IdleWhenDisabled s) (r : Request svc) :
    IdleWhenDisabled (serverStep s (.receive r)).1 := by
  rw [receive_state]
  split
  · next hl =>
    -- the filter that queued the request keeps the server out of DISABLED
    have hq : s.filters.Queues :=
      ⟨r.methodName, (queueFilterLookup_eq (by decide)).mp hl⟩
    intro hd
    have hd' : s.queueingState = .disabled := by
      unfold receiveQueuePush at hd
      split at hd <;> exact hd
    exact absurd hq (h hd').2
  · exact h

/-- A per-method call leaves the state that the new filters ask for. -/
theorem idle_filterSet {s : State svc} {method : CString} {t : QueueFilterType}
    (hc : s.filters.KeepsQueue method t ∨ s.queue = []) :
    IdleWhenDisabled (serverQueueFilterSet s method t) := by
  intro hd
  rcases queueFilterGetType_cases (queueFilterSet s.filters method t).1 with ⟨_, he⟩ | ⟨hn, _⟩
  · rw [show queueFilterGetType (queueFilterSet s.filters method t).1 = .disabled from hd] at he
    cases he
  · refine ⟨?_, hn⟩
    rcases hc with hk | hq
    · exact absurd ((queues_queueFilterSet s.filters method t).mpr hk) hn
    · exact hq

/-- The condition is needed: else the call strands what is queued. -/
theorem stranded_filterSet {s : State svc} {method : CString} {t : QueueFilterType}
    (hc : ¬ (s.filters.KeepsQueue method t ∨ s.queue = [])) :
    (serverQueueFilterSet s method t).queue ≠ [] ∧
      (serverQueueFilterSet s method t).queueingState = .disabled := by
  obtain ⟨hk, hq⟩ := not_or.mp hc
  refine ⟨hq, ?_⟩
  rcases queueFilterGetType_cases (queueFilterSet s.filters method t).1 with ⟨hQ, _⟩ | ⟨_, he⟩
  · exact absurd ((queues_queueFilterSet s.filters method t).mp hQ) hk
  · exact he

theorem idle_filterSetAll {s : State svc} (h : IdleWhenDisabled s) (t : QueueFilterType) :
    IdleWhenDisabled (serverQueueFilterSetAll s t) := by
  intro hd
  cases t with
  | process => cases hd
  | drop => cases hd
  | queue => cases hd
  | error => exact ⟨(h hd).1, not_queues_setAll s.filters (by decide)⟩

theorem idle_queueProcess {s : State svc} (h : IdleWhenDisabled s) :
    IdleWhenDisabled (queueProcess s).1 := by
  rcases queueProcess_cases s with ⟨hs, he⟩ | ⟨hs, he⟩ | ⟨_, _, he⟩ | ⟨hs, _, he⟩
  · rw [he]
    exact fun _ => h hs
  · rw [he]
    intro hd
    rw [show s.queueingState = .disabled from hd] at hs
    cases hs
  · rw [he]
    exact fun _ => ⟨rfl, not_queues_setAll _ (by decide)⟩
  · rw [he]
    intro hd
    have : (beginDrain s).queueingState = s.queueingState := by
      unfold beginDrain
      split <;> rfl
    rw [show (beginDrain s).queueingState = .disabled from hd, hs] at this
    cases this

/-- One call or request keeps the server idle when disabled. -/
theorem idle_step {s : State svc} {op : Op svc} (h : IdleWhenDisabled s)
    (hc : KeepsQueueWhileQueued s op) : IdleWhenDisabled (serverStep s op).1 := by
  cases op with
  | receive r => exact idle_receive h r
  | queueFilterSet method t => exact idle_filterSet hc
  | queueFilterClear method => exact idle_filterSet hc
  | queueFilterSetAll t => exact idle_filterSetAll h t
  | queueFilterClearAll => exact fun hd => by cases hd
  | queueEnable => exact fun hd => by cases hd
  | queueDisable => exact fun hd => by cases hd
  | dropAll => exact fun hd => by cases hd
  | queueProcess => exact idle_queueProcess h
  | queueProcessSome n => exact idle_queueProcess (s := { s with queueProcessNumber := n }) h
  | queueProcessAll =>
    rw [serverStep, queueProcessAll_eq]
    exact fun hd => ⟨rfl, (h hd).2⟩

theorem stranded_step {s : State svc} {op : Op svc} (h : ¬ KeepsQueueWhileQueued s op) :
    (serverStep s op).1.queue ≠ [] ∧ (serverStep s op).1.queueingState = .disabled := by
  cases op with
  | queueFilterSet method t => exact stranded_filterSet h
  | queueFilterClear method => exact stranded_filterSet h
  | _ => exact absurd trivial h

/-- **Queued requests are never stranded**, all along a run, exactly when each of
its per-method calls that leaves no method queued finds nothing queued. -/
theorem queued_not_disabled_iff (svc : Service Msg) (rpc : Bool) (ops : List (Op svc)) :
    Always step (fun s => s.queue ≠ [] → s.queueingState ≠ .disabled) (serverCreate svc rpc) ops ↔
      Guarded step KeepsQueueWhileQueued (serverCreate svc rpc) ops := by
  refine always_iff_guarded (A := fun _ => True) (I := IdleWhenDisabled) ?_ ?_ ?_
    (idle_serverCreate svc rpc) ops fun _ _ => trivial
  · intro s hI hq hd
    exact hq (hI hd).1
  · intro s op s' o hI _ hC hs
    obtain rfl : (serverStep s op).1 = s' := congrArg Prod.fst (step_eq_some.mp hs)
    exact idle_step hI hC
  · intro s op _ _ hC
    obtain ⟨hq, hd⟩ := stranded_step hC
    exact ⟨_, _, step_eq_some.mpr rfl, fun h => h hq hd⟩

/-- Queueing a method, receiving a request for it and clearing its filter leaves
the request in the queue of a server in `DISABLED`. -/
theorem filterClear_strands_request :
    ∃ (ops : List (Op sampleService)) (s : State sampleService) (events : List (Event (List UInt8))),
      exec step (serverCreate sampleService true) ops = some (s, events) ∧
        s.queue ≠ [] ∧ s.queueingState = .disabled :=
  ⟨[.queueFilterSet sampleName .queue, .receive sampleRequest, .queueFilterClear sampleName],
    _, _, rfl, by decide, by decide⟩

end Cmsg.Server
