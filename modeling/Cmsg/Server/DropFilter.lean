import Cmsg.Server.Queue

/-! # Dropping every request

`cmsg_server_drop_all` sets every filter to `DROP` and, as for `PROCESS`, puts
the server in `TO_DISABLED`. There `cmsg_server_queue_process` owns the filters:
it sets them to `QUEUE` when a drain begins and clears them to `PROCESS` when it
ends. The filters of the application survive only the calls in the middle of a
drain that was already going on. -/
namespace Cmsg.Server
open Cmsg.Base Cmsg.Base.Runs Cmsg.Wire

variable {Msg : Type} {svc : Service Msg}

/-- The calls between `cmsg_server_drop_all` and the next call that sets filters. -/
def ReceivesOrDrains : Op svc → Prop
  | .receive _ | .queueProcess | .queueProcessSome _ => True
  | _ => False

/-- A drain is going on and `cmsg_server_queue_process` does not finish it. -/
def MidDrain (s : State svc) : Prop :=
  s.queueInProcess = true ∧ requested s < s.queue.length

/-- Every drain step falls in the middle of a drain. -/
def DrainsMidway (s : State svc) : Op svc → Prop
  | .queueProcess => MidDrain s
  | .queueProcessSome n => MidDrain { s with queueProcessNumber := n }
  | _ => True

/-- What `cmsg_server_drop_all` establishes. -/
structure Dropping (s : State svc) : Prop where
  filters : ∀ m ∈ svc.names, queueFilterLookup s.filters m = .drop
  state : s.queueingState = .toDisabled

/-- The answer to a request received now, on a two-way server. -/
def answer (s : State svc) (r : Request svc) : List (Event Msg) := (serverStep s (.receive r)).2

theorem dropping_dropAll (s : State svc) : Dropping (dropAll s) where
  filters _ hm := queueFilterLookup_setAll s.filters .drop hm
  state := rfl

theorem Dropping.receive {s : State svc} (h : Dropping s) (r : Request svc) :
    (serverStep s (.receive r)).1 = s := by
  rw [receive_state, h.filters _ r.methodName_mem]
  rfl

theorem Dropping.answer_eq {s : State svc} (h : Dropping s) (hrpc : s.rpc = true)
    (r : Request svc) : answer s r = [.sent (emptyMethodReply .serviceDropped)] := by
  rw [answer, receive_events, h.filters _ r.methodName_mem]
  simp [closure, hrpc, closureRpc]

/-- In the middle of a drain the filters stay as they are. -/
theorem Dropping.queueProcess {s : State svc} (h : Dropping s) (hm : MidDrain s) :
    Dropping (queueProcess s).1 := by
  obtain ⟨hp, hlen⟩ := hm
  have hb : beginDrain s = s := if_pos hp
  rcases queueProcess_cases s with ⟨hs, _⟩ | ⟨hs, _⟩ | ⟨_, hd, _⟩ | ⟨_, _, he⟩
  · rw [h.state] at hs
    cases hs
  · rw [h.state] at hs
    cases hs
  · have := List.drop_eq_nil_iff.mp hd
    omega
  · rw [he, hb]
    exact ⟨h.filters, h.state⟩

/-- Any other drain step takes the `DROP` filters away. -/
theorem Dropping.filters_lost {s : State svc} (h : Dropping s) (hm : ¬ MidDrain s) :
    ∃ t, t ≠ .drop ∧ t ≠ .error ∧
      ∀ m ∈ svc.names, queueFilterLookup (Server.queueProcess s).1.filters m = t := by
  rcases queueProcess_cases s with ⟨hs, _⟩ | ⟨hs, _⟩ | ⟨_, _, he⟩ | ⟨_, hd, he⟩
  · rw [h.state] at hs
    cases hs
  · rw [h.state] at hs
    cases hs
  · rw [he]
    exact ⟨.process, by decide, by decide, fun m hm => queueFilterLookup_setAll _ .process hm⟩
  · have hlen : requested s < s.queue.length := by
      by_contra hn
      exact hd (List.drop_eq_nil_iff.mpr (Nat.le_of_not_lt hn))
    have hp : ¬ s.queueInProcess = true := fun hp => hm ⟨hp, hlen⟩
    have hb : beginDrain s =
        { s with queueInProcess := true, filters := queueFilterSetAll s.filters .queue } := if_neg hp
    rw [he, hb]
    exact ⟨.queue, by decide, by decide, fun m hm => queueFilterLookup_setAll _ .queue hm⟩

/-- A closure that answers a processed request never answers `DROPPED`. -/
theorem process_not_dropped (s : State svc) (r : Request svc) :
    serverInvokeImpl svc r.methodIndex r.message
      (closure s .okToInvoke r.methodNameRecvd r.calloc) ≠
        [.sent (emptyMethodReply .serviceDropped)] := by
  have hc : ∀ response, closure s .okToInvoke r.methodNameRecvd r.calloc response ≠
      [.sent (emptyMethodReply .serviceDropped)] := by
    intro response
    unfold closure
    split
    · cases response with
      | none => simp [closureRpc, emptyMethodReply]
      | some response =>
        simp only [closureRpc]
        repeat' split
        all_goals simp [emptyMethodReply]
    · simp
  rcases serverInvokeImpl_cases svc r.methodIndex r.message
    (closure s .okToInvoke r.methodNameRecvd r.calloc) with ⟨response, he⟩ | he | ⟨response, he⟩
  · rw [he]
    exact hc response
  · rw [he]
    simp
  · rw [he]
    simp

/-- Where the filters are not `DROP` and no error, no request is answered
`DROPPED`. -/
theorem answer_ne_dropped {s : State svc} {t : QueueFilterType} (ht : t ≠ .drop) (hte : t ≠ .error)
    (h : ∀ m ∈ svc.names, queueFilterLookup s.filters m = t) (r : Request svc) :
    answer s r ≠ [.sent (emptyMethodReply .serviceDropped)] := by
  rw [answer, receive_events, h _ r.methodName_mem]
  cases t with
  | drop => exact absurd rfl ht
  | error => exact absurd rfl hte
  | queue =>
    show closure s .queued r.methodNameRecvd r.calloc none ≠ _
    unfold closure
    split
    · simp [closureRpc, emptyMethodReply]
    · simp
  | process => exact process_not_dropped s r

theorem Dropping.step {s : State svc} {op : Op svc} (h : Dropping s) (ho : ReceivesOrDrains op)
    (hc : DrainsMidway s op) : Dropping (serverStep s op).1 := by
  cases op with
  | receive r =>
    rw [h.receive r]
    exact h
  | queueProcess => exact h.queueProcess hc
  | queueProcessSome n =>
    exact Dropping.queueProcess (s := { s with queueProcessNumber := n }) ⟨h.filters, h.state⟩ hc
  | _ => exact absurd ho id

theorem Dropping.not_step {s : State svc} {op : Op svc} (h : Dropping s) (ho : ReceivesOrDrains op)
    (hc : ¬ DrainsMidway s op) (r : Request svc) :
    answer (serverStep s op).1 r ≠ [.sent (emptyMethodReply .serviceDropped)] := by
  cases op with
  | receive r => exact absurd trivial hc
  | queueProcess =>
    obtain ⟨t, ht, hte, hf⟩ := h.filters_lost hc
    exact answer_ne_dropped ht hte hf r
  | queueProcessSome n =>
    obtain ⟨t, ht, hte, hf⟩ :=
      Dropping.filters_lost (s := { s with queueProcessNumber := n }) ⟨h.filters, h.state⟩ hc
    exact answer_ne_dropped ht hte hf r
  | _ => exact absurd ho id

theorem serverStep_rpc (s : State svc) {op : Op svc} (ho : ReceivesOrDrains op) :
    (serverStep s op).1.rpc = s.rpc := by
  have hq : ∀ s : State svc, (Server.queueProcess s).1.rpc = s.rpc := by
    intro s
    have hb : (beginDrain s).rpc = s.rpc := by
      unfold beginDrain
      split <;> rfl
    rcases queueProcess_cases s with ⟨_, he⟩ | ⟨_, he⟩ | ⟨_, _, he⟩ | ⟨_, _, he⟩
    · rw [he]
    · rw [he]
    · rw [he]
    · rw [he]
      exact hb
  cases op with
  | receive r =>
    rw [receive_state]
    split
    · unfold receiveQueuePush
      split <;> rfl
    · rfl
  | queueProcess => exact hq s
  | queueProcessSome n => exact hq { s with queueProcessNumber := n }
  | _ => exact absurd ho id

/-- **Requests stay dropped**, all along a run after `cmsg_server_drop_all`,
exactly when every drain step of the run falls in the middle of a drain. -/
theorem received_dropped_iff (svc : Service Msg) (s₀ : State svc) (hrpc : s₀.rpc = true)
    (r₀ : Request svc) (ops : List (Op svc)) (ho : ∀ op ∈ ops, ReceivesOrDrains op) :
    Always step (fun s => ∀ r, answer s r = [.sent (emptyMethodReply .serviceDropped)])
        (dropAll s₀) ops ↔
      Guarded step DrainsMidway (dropAll s₀) ops := by
  refine always_iff_guarded (I := fun s => Dropping s ∧ s.rpc = true) ?_ ?_ ?_
    ⟨dropping_dropAll s₀, hrpc⟩ ops ho
  · exact fun s hI r => hI.1.answer_eq hI.2 r
  · intro s op s' o hI hA hC hs
    obtain rfl : (serverStep s op).1 = s' := congrArg Prod.fst (step_eq_some.mp hs)
    exact ⟨hI.1.step hA hC, (serverStep_rpc s hA).trans hI.2⟩
  · intro s op hI hA hC
    exact ⟨_, _, step_eq_some.mpr rfl, fun h => hI.1.not_step hA hC r₀ (h r₀)⟩

/-- A server that is in the middle of draining two requests, one at a time. -/
def sampleMidDrain : State sampleService :=
  { serverCreate sampleService true with
    queueInProcess := true
    queueProcessNumber := 1
    queue := [⟨⟨0, Nat.one_pos⟩, []⟩, ⟨⟨0, Nat.one_pos⟩, []⟩] }

/-- A request that arrives between two drain steps is dropped. -/
theorem received_dropped_midDrain :
    Always step (fun s => ∀ r, answer s r = [.sent (emptyMethodReply .serviceDropped)])
      (dropAll sampleMidDrain) [.queueProcess, .receive sampleRequest] :=
  (received_dropped_iff sampleService sampleMidDrain rfl sampleRequest _
    (by simp [ReceivesOrDrains])).mpr ⟨⟨rfl, by decide⟩, trivial, trivial⟩

/-- On a server with nothing queued, one drain step after `cmsg_server_drop_all`
is enough for the next request to be passed to its implementation. -/
theorem queueProcess_undoes_dropAll :
    ∃ s events, exec step (dropAll (serverCreate sampleService true)) [.queueProcess] =
        some (s, events) ∧
      answer s sampleRequest =
        [.invoked 0 [], .sent ⟨.methodReply, .success, some sampleName, []⟩] :=
  ⟨_, _, rfl, rfl⟩

end Cmsg.Server
