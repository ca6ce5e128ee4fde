import Cmsg.Server.Queue

/-! # Waiting for the end of a drain

`cmsg_server_queue_request_process_some` and `_process_all` set the number of
entries to process and spin until `queue_in_process` is false. Only
`cmsg_server_queue_process` in `TO_DISABLED` makes it false, so the loops rest on
the flag being true in no other state. Whatever moves the state out of
`TO_DISABLED` in the middle of a drain leaves the flag behind. -/
namespace Cmsg.Server
open Cmsg.Base Cmsg.Base.Runs

variable {Msg : Type} {svc : Service Msg}

/-- The calls of the server's machine, and the two that wait, up to their loops. -/
inductive Call (svc : Service Msg)
  | op (op : Op svc)
  | queueRequestProcessSome (numToProcess : Nat)
  | queueRequestProcessAll

/-- `cmsg_server_queue_request_process_some`, up to its loop. -/
def queueRequestProcessSome (s : State svc) (numToProcess : Nat) : State svc :=
  { s with queueProcessNumber := toInt32 (wrap32 numToProcess) }

def serverCall (s : State svc) : Call svc → State svc × List (Event Msg)
  | .op op => serverStep s op
  | .queueRequestProcessSome n => (queueRequestProcessSome s n, [])
  | .queueRequestProcessAll => (queueRequestProcessAll s, [])

def callStep : Machine (State svc) (Call svc) (Event Msg) := fun s call => some (serverCall s call)

theorem callStep_eq_some {s s' : State svc} {call : Call svc} {events : List (Event Msg)} :
    callStep s call = some (s', events) ↔ serverCall s call = (s', events) := by
  simp [callStep]

/-- The flag is true in `TO_DISABLED` only. -/
def FlagInDrain (s : State svc) : Prop :=
  s.queueInProcess = true → s.queueingState = .toDisabled

/-- The flag is true in `TO_DISABLED` only, and a call of
`cmsg_server_queue_process` that leaves the queue drained lets the loops end,
however many entries were asked for. -/
structure LoopsEnd (s : State svc) : Prop where
  flag : FlagInDrain s
  drained : ∀ n : Int, (queueProcessSome s n).1.queue = [] →
    (queueProcessSome s n).1.queueInProcess = false

/-- The calls that leave the server in `ENABLED` or `DISABLED` without looking at
the drain are not made in the middle of one. -/
def NotInDrain (s : State svc) : Call svc → Prop
  | .op (.queueFilterSet _ _) | .op (.queueFilterClear _) | .op (.queueFilterSetAll .queue)
  | .op .queueEnable => s.queueInProcess = false
  | _ => True

/-! ## The drain -/

/-- A drain that is not over stays in `TO_DISABLED`, and one that is over has
cleared the flag. -/
theorem queueProcess_flag {s : State svc} (h : FlagInDrain s) :
    FlagInDrain (queueProcess s).1 ∧
      ((queueProcess s).1.queue = [] → (queueProcess s).1.queueInProcess = false) := by
  have hclear : s.queueingState ≠ .toDisabled → s.queueInProcess = false :=
    fun hs => Bool.not_eq_true _ ▸ mt h hs
  rcases queueProcess_cases s with ⟨hs, he⟩ | ⟨hs, he⟩ | ⟨_, _, he⟩ | ⟨hs, hleft, he⟩
  · have hflag := hclear (by simp [hs])
    rw [he]
    exact ⟨fun hp => absurd hp (by simp [hflag]), fun _ => hflag⟩
  · have hflag := hclear (by simp [hs])
    rw [he]
    exact ⟨fun hp => absurd hp (by simp [hflag]), fun _ => hflag⟩
  · rw [he]
    refine ⟨fun hp => ?_, fun _ => rfl⟩
    cases hp
  · have hst : (beginDrain s).queueingState = .toDisabled := by
      unfold beginDrain
      split
      · exact hs
      · exact hs
    rw [he]
    exact ⟨fun _ => hst, fun hnil => absurd hnil hleft⟩

theorem FlagInDrain.loopsEnd {s : State svc} (h : FlagInDrain s) : LoopsEnd s where
  flag := h
  drained n := (queueProcess_flag (s := { s with queueProcessNumber := n }) h).2

/-- Asked for everything, one call of `cmsg_server_queue_process` drains the queue
of a server whose flag is set, and its loop ends. -/
theorem requestProcessAll_ends {s : State svc} (h : FlagInDrain s)
    (hp : s.queueInProcess = true) :
    (queueProcess (queueRequestProcessAll s)).1.queue = [] ∧
      (queueProcess (queueRequestProcessAll s)).1.queueInProcess = false := by
  have hs : (queueRequestProcessAll s).queueingState = .toDisabled := h hp
  have hr : (queueRequestProcessAll s).queue.drop (requested (queueRequestProcessAll s)) = [] := by
    simp [requested, queueRequestProcessAll]
  rcases queueProcess_cases (queueRequestProcessAll s) with ⟨hd, _⟩ | ⟨hd, _⟩ | ⟨_, _, he⟩ | ⟨_, hn, _⟩
  · rw [hs] at hd
    cases hd
  · rw [hs] at hd
    cases hd
  · rw [he]
    exact ⟨rfl, rfl⟩
  · exact absurd hr hn

/-! ## One call -/

theorem receive_flag (s : State svc) (r : Request svc) :
    (serverStep s (.receive r)).1.queueInProcess = s.queueInProcess ∧
      (serverStep s (.receive r)).1.queueingState = s.queueingState := by
  rw [receive_state]
  unfold receiveQueuePush
  split
  · split
    · exact ⟨rfl, rfl⟩
    · exact ⟨rfl, rfl⟩
  · exact ⟨rfl, rfl⟩

theorem flagInDrain_call {s : State svc} {call : Call svc} (h : FlagInDrain s)
    (hc : NotInDrain s call) : FlagInDrain (serverCall s call).1 := by
  have hclear : s.queueInProcess = false → ∀ t : State svc,
      t.queueInProcess = s.queueInProcess → FlagInDrain t := by
    intro hf t ht hp
    rw [ht, hf] at hp
    cases hp
  cases call with
  | queueRequestProcessSome n => exact h
  | queueRequestProcessAll => exact h
  | op op =>
    cases op with
    | receive r =>
      obtain ⟨hflag, hstate⟩ := receive_flag s r
      intro hp
      exact hstate.trans (h (hflag ▸ hp))
    | queueFilterSet method t => exact hclear hc _ rfl
    | queueFilterClear method => exact hclear hc _ rfl
    | queueFilterSetAll t =>
      cases t with
      | process => exact fun _ => rfl
      | drop => exact fun _ => rfl
      | queue => exact hclear hc _ rfl
      | error => exact h
    | queueFilterClearAll => exact fun _ => rfl
    | queueEnable => exact hclear hc _ rfl
    | queueDisable => exact fun _ => rfl
    | dropAll => exact fun _ => rfl
    | queueProcess => exact (queueProcess_flag h).1
    | queueProcessSome n =>
      exact (queueProcess_flag (s := { s with queueProcessNumber := n }) h).1
    | queueProcessAll => exact h

/-- A call that is made in the middle of a drain and moves the state leaves the
flag behind. -/
theorem flag_left_behind {s : State svc} {call : Call svc} (hc : ¬ NotInDrain s call) :
    ¬ FlagInDrain (serverCall s call).1 := by
  have hget : ∀ F : FilterTable svc.names, queueFilterGetType F ≠ .toDisabled := by
    intro F
    rcases queueFilterGetType_cases F with ⟨_, he⟩ | ⟨_, he⟩
    · simp [he]
    · simp [he]
  have hleft : ∀ t : State svc, s.queueInProcess ≠ false → t.queueInProcess = s.queueInProcess →
      t.queueingState ≠ .toDisabled → ¬ FlagInDrain t :=
    fun t hs ht hst hflag => hst (hflag (ht.trans (Bool.not_eq_false _ ▸ hs)))
  cases call with
  | op op =>
    cases op with
    | queueFilterSet method t => exact hleft _ hc rfl (hget _)
    | queueFilterClear method => exact hleft _ hc rfl (hget _)
    | queueFilterSetAll t =>
      cases t with
      | queue => exact hleft _ hc rfl (by simp [serverCall, serverStep, serverQueueFilterSetAll])
      | process | drop | error => exact absurd trivial hc
    | queueEnable =>
      exact hleft _ hc rfl (by simp [serverCall, serverStep, queueEnable, serverQueueFilterSetAll])
    | _ => exact absurd trivial hc
  | _ => exact absurd trivial hc

/-! ## Whole runs -/

/-- **The loops end**, all along a run, exactly when none of its calls enables
queueing or sets or clears the filter of one method in the middle of a drain. -/
theorem loops_end_iff (svc : Service Msg) (rpc : Bool) (calls : List (Call svc)) :
    Always callStep LoopsEnd (serverCreate svc rpc) calls ↔
      Guarded callStep NotInDrain (serverCreate svc rpc) calls := by
  refine always_iff_guarded (A := fun _ => True) (I := FlagInDrain) ?_ ?_ ?_ ?_ calls
    fun _ _ => trivial
  · exact fun s h => h.loopsEnd
  · intro s call s' o h _ hc hs
    obtain rfl : (serverCall s call).1 = s' := congrArg Prod.fst (callStep_eq_some.mp hs)
    exact flagInDrain_call h hc
  · intro s call _ _ hc
    exact ⟨_, _, callStep_eq_some.mpr rfl, fun h => flag_left_behind hc h.flag⟩
  · intro hp
    cases hp

/-- Enabling queueing between two calls that drain: the queue is drained in
`ENABLED` and the flag stays, whatever is processed afterwards. -/
theorem enable_leaves_flag :
    ∃ (calls : List (Call sampleService)) (s : State sampleService)
      (events : List (Event (List UInt8))),
      exec callStep (serverCreate sampleService true) calls = some (s, events) ∧
        s.queue = [] ∧ s.queueInProcess = true ∧ s.queueingState = .enabled ∧
        (queueProcess s).1.queueInProcess = true ∧ ¬ LoopsEnd s := by
  refine ⟨[.op .queueEnable, .op (.receive sampleRequest), .op (.receive sampleRequest),
    .op (.queueFilterSetAll .process), .op (.queueProcessSome 1), .op .queueEnable,
    .queueRequestProcessAll, .op .queueProcess], _, _, rfl, by decide, by decide, by decide,
    by decide, fun h => ?_⟩
  exact absurd (h.flag (by decide)) (by decide)

end Cmsg.Server
