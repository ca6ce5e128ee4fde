import Cmsg.Proxy.Streaming

/-! # The life of a streamed connection

Seen from one record, the steps of the machine are those of a small automaton: who
holds the record, whether it is listed and marked, and how often it was released
and freed. What holds of a record in every state is an invariant of that automaton. -/
namespace Cmsg.Proxy
open Cmsg.Base Cmsg.Base.Runs

variable {C M : Type}

/-! ## One record -/

/-- How far the handler that holds the record is. -/
inductive Phase
  | active | remove | markDelete | leave | release | delete
  deriving DecidableEq

structure ConnView where
  allocated : Bool
  flags : Option (Bool × Bool)
  listed : Bool
  timeout : Option TimeoutStage
  handler : Option Phase
  released : Nat
  freed : Nat
  bad : Bool
  ended : Bool

/-- What holds of a record that is not freed: its flags `inUse` and `toDelete`, given
where it stands. -/
def LiveOk (handler : Option Phase) (inUse toDelete ended : Bool) :
    Option TimeoutStage → Bool → Prop
  | none, true => toDelete = false ∧ inUse = handler.isSome ∧ handler ≠ some .markDelete ∧
      handler ≠ some .leave ∧ handler ≠ some .delete ∧ (ended = true → handler = some .remove)
  | some .check, true => toDelete = false ∧ inUse = handler.isSome ∧ handler ≠ some .markDelete ∧
      handler ≠ some .leave ∧ handler ≠ some .delete
  | some .delete, true => handler = none ∧ inUse = false
  | some .unlink, true => handler.isSome = true ∧ toDelete = true ∧ handler ≠ some .markDelete ∧
      handler ≠ some .leave
  | none, false => handler.isSome = true ∧ (toDelete = true ∨ handler = some .markDelete)
  | some _, false => False

/-- What holds of a record: it is released and freed together, once, and then nobody
holds it. -/
def ConnView.Ok (v : ConnView) : Prop :=
  v.bad = false ∧ v.released = v.freed ∧
  match v.allocated, v.flags with
  | false, none => v.listed = false ∧ v.timeout = none ∧ v.handler = none ∧ v.freed = 0 ∧
      v.ended = false
  | false, some _ => False
  | true, none => v.freed = 1 ∧ v.handler = none ∧
      ((v.timeout = none ∧ v.listed = false) ∨ (v.timeout = some .unlink ∧ v.listed = true))
  | true, some (inUse, toDelete) => v.freed = 0 ∧
      LiveOk v.handler inUse toDelete v.ended v.timeout v.listed

/-- What a step of the machine does to one record. -/
inductive ConnView.Step : ConnView → ConnView → Prop
  | create {v : ConnView} (h : v.allocated = false) :
      Step v { v with allocated := true, flags := some (false, false), listed := true }
  | timedOut {v : ConnView} (h : v.timeout = none) (hl : v.listed = true) :
      Step v { v with timeout := some .check, ended := true }
  | timeoutMark {v : ConnView} {d : Bool} (h : v.timeout = some .check)
      (hf : v.flags = some (true, d)) :
      Step v { v with flags := some (true, true), timeout := some .unlink }
  | timeoutUnused {v : ConnView} {d : Bool} (h : v.timeout = some .check)
      (hf : v.flags = some (false, d)) : Step v { v with timeout := some .delete }
  | timeoutDelete {v : ConnView} {f : Bool × Bool} (h : v.timeout = some .delete)
      (hf : v.flags = some f) :
      Step v { v with flags := none, timeout := some .unlink, released := v.released + 1,
                      freed := v.freed + 1 }
  | timeoutUnlink {v : ConnView} (h : v.timeout = some .unlink) :
      Step v { v with timeout := none, listed := false }
  | lookup {v : ConnView} {u d : Bool} (h : v.timeout = none) (hh : v.handler = none)
      (hl : v.listed = true) (hf : v.flags = some (u, d)) :
      Step v { v with flags := some (true, d), handler := some .active }
  | finish {v : ConnView} (h : v.handler = some .active) : Step v { v with handler := some .release }
  | close {v : ConnView} (h : v.handler = some .active) :
      Step v { v with handler := some .remove, ended := true }
  | remove {v : ConnView} (h : v.handler = some .remove) (ht : v.timeout = none) :
      Step v { v with listed := false, handler := some .markDelete }
  | markDelete {v : ConnView} {u d : Bool} (h : v.handler = some .markDelete)
      (hf : v.flags = some (u, d)) :
      Step v { v with flags := some (u, true), handler := some .leave }
  | leave {v : ConnView} {u d : Bool} (h : v.handler = some .leave) (hf : v.flags = some (u, d)) :
      Step v { v with flags := some (false, d), handler := some .release }
  | release {v : ConnView} {u : Bool} (h : v.handler = some .release)
      (hf : v.flags = some (u, false)) :
      Step v { v with flags := some (false, false), handler := none }
  | releaseMarked {v : ConnView} {u : Bool} (h : v.handler = some .release)
      (hf : v.flags = some (u, true)) : Step v { v with handler := some .delete }
  | delete {v : ConnView} {f : Bool × Bool} (h : v.handler = some .delete)
      (hf : v.flags = some f) :
      Step v { v with flags := none, handler := none, released := v.released + 1,
                      freed := v.freed + 1 }

/-- Nobody holds a record that is freed, or was never made, but the timeout that unlinks it. -/
theorem ConnView.Ok.of_freed {v : ConnView} (h : v.Ok) (hf : v.flags = none) :
    v.handler = none ∧ (v.timeout = none ∧ v.listed = false ∨ v.timeout = some .unlink) := by
  obtain ⟨_, _, hm⟩ := h
  rw [hf] at hm
  cases ha : v.allocated with
  | false =>
    rw [ha] at hm
    obtain ⟨hlisted, htimeout, hhandler, _⟩ := hm
    exact ⟨hhandler, .inl ⟨htimeout, hlisted⟩⟩
  | true =>
    rw [ha] at hm
    obtain ⟨_, hhandler, hlast⟩ := hm
    exact ⟨hhandler, hlast.imp_right And.left⟩

theorem ConnView.Ok.flags_of_listed {v : ConnView} (h : v.Ok) (hl : v.listed = true)
    (ht : v.timeout ≠ some .unlink) : ∃ f, v.flags = some f := by
  refine Option.ne_none_iff_exists'.mp fun hf => ?_
  rcases (h.of_freed hf).2 with ⟨_, hunlisted⟩ | hunlink
  · rw [hl] at hunlisted
    cases hunlisted
  · exact ht hunlink

theorem ConnView.Ok.flags_of_handler {v : ConnView} (h : v.Ok) (hh : v.handler ≠ none) :
    ∃ f, v.flags = some f :=
  Option.ne_none_iff_exists'.mp fun hf => hh (h.of_freed hf).1

theorem ConnView.Ok.flags_of_timeout {v : ConnView} (h : v.Ok) {stage : TimeoutStage}
    (ht : v.timeout = some stage) (hne : stage ≠ .unlink) : ∃ f, v.flags = some f := by
  refine Option.ne_none_iff_exists'.mp fun hf => ?_
  rcases (h.of_freed hf).2 with ⟨hnone, _⟩ | hunlink
  · rw [ht] at hnone
    cases hnone
  · exact hne (Option.some.inj (ht.symm.trans hunlink))

theorem ConnView.Step.ok {v v' : ConnView} (hs : Step v v') (h : v.Ok) : v'.Ok := by
  obtain ⟨allocated, flags, listed, timeout, handler, released, freed, bad, ended⟩ := v
  obtain ⟨hbad, hrel, hm⟩ := h
  refine ⟨?_, ?_, ?_⟩
  · cases hs <;> exact hbad
  · cases hs <;> simp_all
  · cases allocated with
    | false =>
      cases flags with
      | some f => exact hm.elim
      | none => cases hs <;> simp_all [LiveOk]
    | true =>
      cases flags with
      | none => cases hs <;> simp_all
      | some f =>
        obtain ⟨u, d⟩ := f
        obtain ⟨hfreed, hlive⟩ := hm
        rcases timeout with _ | stage
        · cases listed <;> cases hs <;> simp_all [LiveOk]
        · cases stage <;> cases listed <;> cases hs <;> simp_all [LiveOk]

/-! ## The records of a state -/

def HandlerStage.phase : HandlerStage M → Phase
  | .remove => .remove
  | .markDelete => .markDelete
  | .leave => .leave
  | .release _ => .release
  | .delete _ => .delete
  | _ => .active

def StreamEvent.releases (ref : Nat) : StreamEvent C → Bool
  | .released r _ => r = ref
  | _ => false

def StreamEvent.frees (ref : Nat) : StreamEvent C → Bool
  | .freed r => r = ref
  | _ => false

/-- The record is used after it was freed. -/
def StreamEvent.misuses (ref : Nat) : StreamEvent C → Bool
  | .badAccess r => r = ref
  | _ => false

/-- The connection timed out, was closed or was aborted. -/
def StreamEvent.ends (ref : Nat) : StreamEvent C → Bool
  | .timedOut r | .closed r _ | .aborted r _ => r = ref
  | _ => false

def StreamState.handlerOn (s : StreamState C M) (ref : Nat) : Option Phase :=
  s.handler.bind fun h => if h.ref = ref then some h.stage.phase else none

def StreamState.timeoutOn (s : StreamState C M) (ref : Nat) : Option TimeoutStage :=
  s.timeout.bind fun t => if t.ref = ref then some t.stage else none

def viewOf (s : StreamState C M) (os : List (StreamEvent C)) (ref : Nat) : ConnView :=
  { allocated := decide (ref < s.nextRef)
    flags := (s.conns ref).map fun c => (c.inUse, c.toDelete)
    listed := decide (ref ∈ s.connectionsList)
    timeout := s.timeoutOn ref
    handler := s.handlerOn ref
    released := os.countP (·.releases ref)
    freed := os.countP (·.frees ref)
    bad := os.any (·.misuses ref)
    ended := os.any (·.ends ref) }

-- what a view is computed from
attribute [local simp] StreamState.setConn StreamState.timeoutOn StreamState.handlerOn

/-- Every record of the state is as it should be. -/
structure StreamInv (s : StreamState C M) (os : List (StreamEvent C)) : Prop where
  nodup : s.connectionsList.Nodup
  view : ∀ ref, (viewOf s os ref).Ok

/-- The step leaves each record as it is, or takes it one step of its automaton. -/
structure Follows (s s' : StreamState C M) (os o : List (StreamEvent C)) : Prop where
  nodup : s'.connectionsList.Nodup
  view : ∀ ref, viewOf s' (os ++ o) ref = viewOf s os ref ∨
    (viewOf s os ref).Step (viewOf s' (os ++ o) ref)

theorem StreamInv.follows {s s' : StreamState C M} {os o : List (StreamEvent C)}
    (h : StreamInv s os) (hf : Follows s s' os o) : StreamInv s' (os ++ o) := by
  refine ⟨hf.nodup, fun ref => ?_⟩
  rcases hf.view ref with he | hstep
  · rw [he]
    exact h.view ref
  · exact hstep.ok (h.view ref)

theorem streamInv_init : StreamInv (streamInit : StreamState C M) [] :=
  ⟨.nil, fun ref => by
    simp [viewOf, streamInit, ConnView.Ok]⟩

section
variable {s : StreamState C M} {os : List (StreamEvent C)}

theorem conn_of_flags {ref : Nat} (h : ∃ f, (viewOf s os ref).flags = some f) :
    ∃ c, s.conns ref = some c := by
  obtain ⟨f, hf⟩ := h
  obtain ⟨c, hc, _⟩ := Option.map_eq_some_iff.mp hf
  exact ⟨c, hc⟩

theorem StreamInv.conn_of_listed (h : StreamInv s os) {ref : Nat} (hmem : ref ∈ s.connectionsList)
    (ht : s.timeout = none) : ∃ c, s.conns ref = some c :=
  conn_of_flags ((h.view ref).flags_of_listed (by simpa [viewOf] using hmem)
    (by simp [viewOf, ht]))

theorem StreamInv.conn_of_handler (h : StreamInv s os) {hd : Handler M} (hh : s.handler = some hd) :
    ∃ c, s.conns hd.ref = some c :=
  conn_of_flags ((h.view hd.ref).flags_of_handler (by simp [viewOf, hh]))

theorem StreamInv.conn_of_timeout (h : StreamInv s os) {t : Timeout} (ht : s.timeout = some t)
    (hne : t.stage ≠ .unlink) : ∃ c, s.conns t.ref = some c :=
  conn_of_flags ((h.view t.ref).flags_of_timeout (by simp [viewOf, ht]) hne)

theorem StreamInv.nextRef_fresh (h : StreamInv s os) : s.nextRef ∉ s.connectionsList := by
  obtain ⟨_, _, hm⟩ := h.view s.nextRef
  intro hmem
  cases hc : s.conns s.nextRef <;> simp [viewOf, hmem, hc] at hm

/-- The search of a list of live records finds one of them or none. -/
theorem searchConns_live {conns : Nat → Option (StreamConnection C)}
    {p : StreamConnection C → Bool} {l : List Nat} (h : ∀ ref ∈ l, ∃ c, conns ref = some c) :
    searchConns conns p l = .ok none ∨
      ∃ ref c, searchConns conns p l = .ok (some (ref, c)) ∧ ref ∈ l ∧ conns ref = some c := by
  induction l with
  | nil => exact Or.inl rfl
  | cons ref refs ih =>
    obtain ⟨c, hc⟩ := h ref (by simp)
    unfold searchConns
    simp only [hc]
    by_cases hp : p c = true
    · exact Or.inr ⟨ref, c, by simp [hp], by simp, hc⟩
    · rcases ih fun r hr => h r (by simp [hr]) with hn | ⟨r, c', hr, hmem, hc'⟩
      · exact Or.inl (by simp [hp, hn])
      · exact Or.inr ⟨r, c', by simp [hp, hr], by simp [hmem], hc'⟩

/-! ## Requests and timeouts -/

theorem follows_createConn (h : StreamInv s os) (connection : C) (desc : MessageDescriptor) :
    Follows s (streamingCreateConn s connection desc) os [] := by
  refine ⟨List.nodup_cons.mpr ⟨h.nextRef_fresh, h.nodup⟩, fun ref => ?_⟩
  by_cases hr : ref = s.nextRef
  · subst hr
    right
    have hv : viewOf (streamingCreateConn s connection desc) (os ++ []) s.nextRef =
        { viewOf s os s.nextRef with
          allocated := true, flags := some (false, false), listed := true } := by
      simp [viewOf, streamingCreateConn]
    rw [hv]
    exact .create (by simp [viewOf])
  · left
    have hlt : ref < s.nextRef + 1 ↔ ref < s.nextRef := by omega
    simp [viewOf, streamingCreateConn, hr, hlt]

theorem follows_connTimeout [DecidableEq C] (h : StreamInv s os) (ht : s.timeout = none)
    (connection : C) :
    Follows s (streamingConnTimeout s connection).1 os (streamingConnTimeout s connection).2 := by
  unfold streamingConnTimeout
  rcases @searchConns_live C s.conns (fun c => c.connection = connection) s.connectionsList
    (fun ref hmem => h.conn_of_listed hmem ht) with hs | ⟨r, c, hs, hmem, hc⟩
  · rw [hs]
    exact ⟨h.nodup, fun ref => Or.inl (by rw [List.append_nil])⟩
  · rw [hs]
    refine ⟨h.nodup, fun ref => ?_⟩
    by_cases hr : r = ref
    · subst hr
      right
      have hv : viewOf { s with timeout := some ⟨r, .check⟩ } (os ++ [.timedOut r]) r =
          { viewOf s os r with timeout := some .check, ended := true } := by
        simp [viewOf, StreamEvent.releases, StreamEvent.frees, StreamEvent.misuses,
          StreamEvent.ends]
      simp only [hv]
      exact .timedOut (by simp [viewOf, ht]) (by simp [viewOf, hmem])
    · left
      simp [viewOf, StreamEvent.releases, StreamEvent.frees, StreamEvent.misuses,
        StreamEvent.ends, ht, hr]

/-- A step that takes one record a step of its automaton and leaves the others. -/
theorem follows_one {s' : StreamState C M} {o : List (StreamEvent C)} (r : Nat)
    (hn : s'.connectionsList.Nodup) (hr : (viewOf s os r).Step (viewOf s' (os ++ o) r))
    (hother : ∀ ref, r ≠ ref → viewOf s' (os ++ o) ref = viewOf s os ref) :
    Follows s s' os o := by
  refine ⟨hn, fun ref => ?_⟩
  by_cases h : r = ref
  · subst h
    exact Or.inr hr
  · exact Or.inl (hother ref h)

theorem follows_timeoutStep (h : StreamInv s os) {t : Timeout} (ht : s.timeout = some t) :
    Follows s (timeoutStep s t).1 os (timeoutStep s t).2 := by
  have hv : (viewOf s os t.ref).timeout = some t.stage := by
    simp [viewOf, ht]
  unfold timeoutStep
  cases hst : t.stage with
  | check =>
    obtain ⟨c, hc⟩ := h.conn_of_timeout ht (by simp [hst])
    simp only [hc]
    cases hu : c.inUse with
    | true =>
      refine follows_one t.ref h.nodup ?_ ?_
      · have hs := ConnView.Step.timeoutMark (v := viewOf s os t.ref) (d := c.toDelete)
          (by rw [hv, hst]) (by simp [viewOf, hc, hu])
        convert hs using 1
        simp [viewOf]
      · intro ref hr
        simp [viewOf, ht, hr, Ne.symm hr]
    | false =>
      refine follows_one t.ref h.nodup ?_ ?_
      · have hs := ConnView.Step.timeoutUnused (v := viewOf s os t.ref) (d := c.toDelete)
          (by rw [hv, hst]) (by simp [viewOf, hc, hu])
        convert hs using 1
        simp [viewOf]
      · intro ref hr
        simp [viewOf, ht, hr]
  | delete =>
    obtain ⟨c, hc⟩ := h.conn_of_timeout ht (by simp [hst])
    simp only [hc, deleteConn]
    refine follows_one t.ref h.nodup ?_ ?_
    · have hs := ConnView.Step.timeoutDelete (v := viewOf s os t.ref) (f := (c.inUse, c.toDelete))
        (by rw [hv, hst]) (by simp [viewOf, hc])
      convert hs using 1
      simp [viewOf, StreamEvent.releases, StreamEvent.frees, StreamEvent.misuses, StreamEvent.ends]
      exact ⟨rfl, rfl⟩
    · intro ref hr
      simp [viewOf, StreamEvent.releases, StreamEvent.frees, StreamEvent.misuses,
        StreamEvent.ends, ht, hr, Ne.symm hr]
  | unlink =>
    refine follows_one t.ref (h.nodup.erase t.ref) ?_ ?_
    · have hs := ConnView.Step.timeoutUnlink (v := viewOf s os t.ref) (by rw [hv, hst])
      convert hs using 1
      simp [viewOf, h.nodup.mem_erase_iff]
    · intro ref hr
      simp [viewOf, h.nodup.mem_erase_iff, ht, hr, Ne.symm hr]

/-! ## Handlers -/

theorem follows_lookup (h : StreamInv s os) (ht : s.timeout = none) (hh : s.handler = none)
    (call : StreamCall) :
    Follows s (streamingLookup s call).1 os (streamingLookup s call).2 := by
  unfold streamingLookup
  rcases @searchConns_live C s.conns (fun c => c.id = call.id) s.connectionsList
    (fun ref hmem => h.conn_of_listed hmem ht) with hs | ⟨r, c, hs, hmem, hc⟩
  · rw [hs]
    refine ⟨h.nodup, fun ref => Or.inl ?_⟩
    simp [viewOf, StreamEvent.releases, StreamEvent.frees, StreamEvent.misuses, StreamEvent.ends]
  · rw [hs]
    refine follows_one r h.nodup ?_ ?_
    · have hs := ConnView.Step.lookup (v := viewOf s os r) (u := c.inUse) (d := c.toDelete)
        (by simp [viewOf, ht]) (by simp [viewOf, hh])
        (by simp [viewOf, hmem]) (by simp [viewOf, hc])
      convert hs using 1
      simp [viewOf, HandlerStage.phase]
      exact ⟨rfl, rfl⟩
    · intro ref hr
      simp [viewOf, hh, hr, Ne.symm hr]

/-- The events leave every record as it is. -/
def Quiet (o : List (StreamEvent C)) : Prop :=
  ∀ ref, o.countP (·.releases ref) = 0 ∧ o.countP (·.frees ref) = 0 ∧
    o.any (·.misuses ref) = false ∧ o.any (·.ends ref) = false

theorem quiet_nil : Quiet ([] : List (StreamEvent C)) := fun _ => by simp

theorem quiet_sent (connection : C) (data : List UInt8) : Quiet [StreamEvent.sent connection data] :=
  fun _ => by
    simp [StreamEvent.releases, StreamEvent.frees, StreamEvent.misuses, StreamEvent.ends]

theorem quiet_headersSet (connection : C) (headers : Headers) :
    Quiet [StreamEvent.headersSet connection headers] := fun _ => by
  simp [StreamEvent.releases, StreamEvent.frees, StreamEvent.misuses, StreamEvent.ends]

theorem quiet_reply (found : Bool) : Quiet [(.reply found : StreamEvent C)] := fun _ => by
  simp [StreamEvent.releases, StreamEvent.frees, StreamEvent.misuses, StreamEvent.ends]

/-- The data of the call can be unpacked and converted, where the handler gets to that. -/
def StageOk (codec : StreamCodec M) (h : Handler M) (c : StreamConnection C) : Prop :=
  match h.stage, h.call with
  | .unpack, .sendStreamData _ data => codec.unpack c.outputMsgDescriptor data ≠ none
  | .generate message, _ => codec.responseBody message ≠ none
  | _, _ => True

/-- The stages that leave the record as it is go on, to the release at the latest, or
close the connection. -/
theorem stageStep_cases {codec : StreamCodec M} {h : Handler M} {c : StreamConnection C}
    (ha : h.stage.phase = .active) (hok : StageOk codec h c) (busy : Bool) :
    ∃ stage o, stageStep codec h c busy = (some stage, o) ∧
      (Quiet o ∧ (stage.phase = .active ∨ stage.phase = .release) ∨
        stage.phase = .remove ∧ (o = [.closed h.ref c.connection] ∨
          o = [.aborted h.ref c.connection])) := by
  obtain ⟨call, ref, stage⟩ := h
  cases stage with
  | start =>
    cases call with
    | sendStreamData =>
      refine ⟨_, _, rfl, Or.inl ⟨quiet_nil, ?_⟩⟩
      split
      · exact Or.inr rfl
      · exact Or.inl rfl
    | sendStreamFileData =>
      refine ⟨_, _, rfl, Or.inl ⟨quiet_nil, ?_⟩⟩
      split
      · exact Or.inr rfl
      · exact Or.inl rfl
    | closeStreamConnection => exact ⟨_, _, rfl, Or.inr ⟨rfl, Or.inl rfl⟩⟩
    | abortStreamConnection => exact ⟨_, _, rfl, Or.inr ⟨rfl, Or.inr rfl⟩⟩
    | setStreamHeaders id type fileInfo =>
      unfold stageStep
      cases hs : streamHeaders c.outputMsgDescriptor type fileInfo with
      | none => exact ⟨.release false, [], by simp only [hs], Or.inl ⟨quiet_nil, Or.inr rfl⟩⟩
      | some headers =>
        exact ⟨.setHeaders headers, [], by simp only [hs], Or.inl ⟨quiet_nil, Or.inl rfl⟩⟩
  | checkHeaders =>
    unfold stageStep
    cases hset : c.headersSet with
    | false =>
      cases call with
      | sendStreamFileData => exact ⟨_, _, rfl, Or.inl ⟨quiet_reply true, Or.inr rfl⟩⟩
      | _ => exact ⟨_, _, rfl, Or.inl ⟨quiet_nil, Or.inr rfl⟩⟩
    | true => cases call <;> exact ⟨_, _, rfl, Or.inl ⟨quiet_nil, Or.inl rfl⟩⟩
  | unpack =>
    cases call with
    | sendStreamData id data =>
      unfold stageStep
      cases hu : codec.unpack c.outputMsgDescriptor data with
      | none => exact (hok hu).elim
      | some message =>
        exact ⟨.generate message, [], by simp only [hu], Or.inl ⟨quiet_nil, Or.inl rfl⟩⟩
    | _ => exact ⟨_, _, rfl, Or.inl ⟨quiet_nil, Or.inl rfl⟩⟩
  | generate message =>
    unfold stageStep
    cases hb : codec.responseBody message with
    | none => exact (hok hb).elim
    | some body =>
      exact ⟨.send (body ++ [0x0a]), [], by simp only [hb], Or.inl ⟨quiet_nil, Or.inl rfl⟩⟩
  | send data =>
    cases call with
    | sendStreamFileData =>
      cases busy with
      | true => exact ⟨_, _, rfl, Or.inl ⟨quiet_nil, Or.inl rfl⟩⟩
      | false => exact ⟨_, _, rfl, Or.inl ⟨quiet_sent _ _, Or.inr rfl⟩⟩
    | _ => exact ⟨_, _, rfl, Or.inl ⟨quiet_sent _ _, Or.inr rfl⟩⟩
  | setHeaders headers => exact ⟨_, _, rfl, Or.inl ⟨quiet_headersSet _ _, Or.inl rfl⟩⟩
  | markHeaders => exact ⟨_, _, rfl, Or.inl ⟨quiet_nil, Or.inl rfl⟩⟩
  | _ => simp [HandlerStage.phase] at ha

/-- A step of the handler to a stage that leaves the record as it is, quietly. -/
theorem follows_goTo (h : StreamInv s os) {hd : Handler M} (hh : s.handler = some hd)
    {stage : HandlerStage M} {o : List (StreamEvent C)} (hq : Quiet o)
    (hp : stage.phase = hd.stage.phase ∨
      hd.stage.phase = .active ∧ stage.phase = .release ∨
      ∃ c, s.conns hd.ref = some c ∧ c.toDelete = true ∧ hd.stage.phase = .release ∧
        stage.phase = .delete) :
    Follows s { s with handler := some { hd with stage } } os o := by
  have hv : (viewOf s os hd.ref).handler = some hd.stage.phase := by
    simp [viewOf, hh]
  have hview : viewOf { s with handler := some { hd with stage } } (os ++ o) hd.ref =
      { viewOf s os hd.ref with handler := some stage.phase } := by
    obtain ⟨hr, hf, hm, he⟩ := hq hd.ref
    simp [viewOf, hr, hf, hm, he]
  have hother : ∀ ref, hd.ref ≠ ref →
      viewOf { s with handler := some { hd with stage } } (os ++ o) ref = viewOf s os ref := by
    intro ref hne
    obtain ⟨hr, hf, hm, he⟩ := hq ref
    simp [viewOf, hr, hf, hm, he, hh, hne]
  rcases hp with hsame | ⟨hact, hrel⟩ | ⟨c, hc, hd', hrel, hdel⟩
  · refine ⟨h.nodup, fun ref => Or.inl ?_⟩
    by_cases hr : hd.ref = ref
    · subst hr
      rw [hview, hsame, ← hv]
    · exact hother ref hr
  · refine follows_one hd.ref h.nodup ?_ hother
    rw [hview, hrel]
    exact .finish (by rw [hv, hact])
  · refine follows_one hd.ref h.nodup ?_ hother
    rw [hview, hdel]
    exact .releaseMarked (u := c.inUse) (by rw [hv, hrel]) (by simp [viewOf, hc, hd'])

theorem follows_handlerStep {codec : StreamCodec M} (h : StreamInv s os) {hd : Handler M}
    (hh : s.handler = some hd) {c : StreamConnection C} (hc : s.conns hd.ref = some c)
    (hok : StageOk codec hd c) {busy : Bool} {s' : StreamState C M} {o : List (StreamEvent C)}
    (hstep : handlerStep codec s hd busy = some (s', o)) : Follows s s' os o := by
  have hv : (viewOf s os hd.ref).handler = some hd.stage.phase := by
    simp [viewOf, hh]
  have hf : (viewOf s os hd.ref).flags = some (c.inUse, c.toDelete) := by simp [viewOf, hc]
  by_cases ha : hd.stage.phase = .active
  · by_cases hm : hd.stage = .markHeaders
    · simp only [handlerStep, hc, hm, Option.some.injEq, Prod.mk.injEq] at hstep
      obtain ⟨rfl, rfl⟩ := hstep
      refine follows_one hd.ref h.nodup ?_ ?_
      · have hs := ConnView.Step.finish (v := viewOf s os hd.ref) (by rw [hv, ha])
        convert hs using 1
        simp [viewOf, HandlerStage.phase, hc]
        exact ⟨rfl, rfl⟩
      · intro ref hr
        simp [viewOf, hh, hr, Ne.symm hr]
    · obtain ⟨stage, o', hst, hcase⟩ := stageStep_cases ha hok busy
      have hs' : handlerStep codec s hd busy =
          some ({ s with handler := some { hd with stage } }, o') := by
        unfold handlerStep
        simp only [hc]
        split
        · contradiction
        · simp_all [HandlerStage.phase]
        · simp_all [HandlerStage.phase]
        · simp_all [HandlerStage.phase]
        · simp_all [HandlerStage.phase]
        · simp_all [HandlerStage.phase]
        · simp only [hst]
      rw [hs', Option.some.injEq, Prod.mk.injEq] at hstep
      obtain ⟨rfl, rfl⟩ := hstep
      rcases hcase with ⟨hq, hp⟩ | ⟨hrem, ho⟩
      · refine follows_goTo h hh hq ?_
        rcases hp with hp | hp
        · exact Or.inl (by rw [hp, ha])
        · exact Or.inr (Or.inl ⟨ha, hp⟩)
      · refine follows_one hd.ref h.nodup ?_ ?_
        · have hs := ConnView.Step.close (v := viewOf s os hd.ref) (by rw [hv, ha])
          convert hs using 1
          rcases ho with rfl | rfl <;>
            simp [viewOf, StreamEvent.releases, StreamEvent.frees, StreamEvent.misuses,
              StreamEvent.ends, hrem]
        · intro ref hr
          rcases ho with rfl | rfl <;>
            simp [viewOf, StreamEvent.releases, StreamEvent.frees, StreamEvent.misuses,
              StreamEvent.ends, hh, hr]
  · cases hst : hd.stage with
    | remove =>
      cases ht : s.timeout with
      | some t => simp [handlerStep, hc, hst, ht] at hstep
      | none =>
        simp only [handlerStep, hc, hst, ht, Option.isSome_none, Bool.false_eq_true, if_false,
          Option.some.injEq, Prod.mk.injEq] at hstep
        obtain ⟨rfl, rfl⟩ := hstep
        refine follows_one hd.ref (h.nodup.erase hd.ref) ?_ ?_
        · have hs := ConnView.Step.remove (v := viewOf s os hd.ref) (by rw [hv, hst]; rfl)
            (by simp [viewOf, ht])
          convert hs using 1
          simp [viewOf, HandlerStage.phase, h.nodup.mem_erase_iff, ht]
        · intro ref hr
          simp [viewOf, h.nodup.mem_erase_iff, hh, ht, hr, Ne.symm hr]
    | markDelete =>
      simp only [handlerStep, hc, hst, Option.some.injEq, Prod.mk.injEq] at hstep
      obtain ⟨rfl, rfl⟩ := hstep
      refine follows_one hd.ref h.nodup ?_ ?_
      · have hs := ConnView.Step.markDelete (v := viewOf s os hd.ref) (by rw [hv, hst]; rfl) hf
        convert hs using 1
        simp [viewOf, HandlerStage.phase]
        exact ⟨rfl, rfl⟩
      · intro ref hr
        simp [viewOf, hh, hr, Ne.symm hr]
    | leave =>
      simp only [handlerStep, hc, hst, Option.some.injEq, Prod.mk.injEq] at hstep
      obtain ⟨rfl, rfl⟩ := hstep
      refine follows_one hd.ref h.nodup ?_ ?_
      · have hs := ConnView.Step.leave (v := viewOf s os hd.ref) (by rw [hv, hst]; rfl) hf
        convert hs using 1
        simp [viewOf, HandlerStage.phase]
        exact ⟨rfl, rfl⟩
      · intro ref hr
        simp [viewOf, hh, hr, Ne.symm hr]
    | release replied =>
      cases hd' : c.toDelete with
      | true =>
        simp only [handlerStep, hc, hst, hd', if_true, Option.some.injEq, Prod.mk.injEq] at hstep
        obtain ⟨rfl, rfl⟩ := hstep
        exact follows_goTo h hh quiet_nil
          (Or.inr (Or.inr ⟨c, hc, hd', by rw [hst]; rfl, rfl⟩))
      | false =>
        simp only [handlerStep, hc, hst, hd', Bool.false_eq_true, if_false, Option.some.injEq,
          Prod.mk.injEq] at hstep
        obtain ⟨rfl, rfl⟩ := hstep
        refine follows_one hd.ref h.nodup ?_ ?_
        · have hs := ConnView.Step.release (v := viewOf s os hd.ref) (by rw [hv, hst]; rfl)
            (by rw [hf, hd'])
          convert hs using 1
          cases replied <;> simp [viewOf, StreamEvent.releases, StreamEvent.frees,
            StreamEvent.misuses, StreamEvent.ends] <;> exact ⟨rfl, rfl⟩
        · intro ref hr
          cases replied <;> simp [viewOf, StreamEvent.releases, StreamEvent.frees,
            StreamEvent.misuses, StreamEvent.ends, hh, hr, Ne.symm hr]
    | delete replied =>
      simp only [handlerStep, hc, hst, deleteConn, Option.some.injEq, Prod.mk.injEq] at hstep
      obtain ⟨rfl, rfl⟩ := hstep
      refine follows_one hd.ref h.nodup ?_ ?_
      · have hs := ConnView.Step.delete (v := viewOf s os hd.ref) (by rw [hv, hst]; rfl) hf
        convert hs using 1
        cases replied <;> simp [viewOf, StreamEvent.releases, StreamEvent.frees,
          StreamEvent.misuses, StreamEvent.ends] <;> exact ⟨rfl, rfl⟩
      · intro ref hr
        cases replied <;> simp [viewOf, StreamEvent.releases, StreamEvent.frees,
          StreamEvent.misuses, StreamEvent.ends, hh, hr, Ne.symm hr]
    | _ => exact absurd (by rw [hst]; rfl) ha

/-! ## Runs -/

/-- The condition on a step: the data that a handler is about to unpack or to convert
can be. -/
def DataConverts (codec : StreamCodec M) (s : StreamState C M) : StreamAction C → Prop
  | .handlerStep _ => ∀ h c, s.handler = some h → s.conns h.ref = some c → StageOk codec h c
  | _ => True

theorem streamInv_step [DecidableEq C] {codec : StreamCodec M} (h : StreamInv s os)
    {a : StreamAction C} (hok : DataConverts codec s a) {s' : StreamState C M}
    {o : List (StreamEvent C)} (hstep : streamStep codec s a = some (s', o)) :
    StreamInv s' (os ++ o) := by
  refine h.follows ?_
  cases a with
  | createConn connection desc =>
    simp only [streamStep, Option.ite_none_left_eq_some, Option.some.injEq,
      Prod.mk.injEq] at hstep
    obtain ⟨_, rfl, rfl⟩ := hstep
    exact follows_createConn h connection desc
  | connTimeout connection =>
    simp only [streamStep, Option.ite_none_left_eq_some, Option.some.injEq] at hstep
    obtain ⟨ht, he⟩ := hstep
    have hf := follows_connTimeout h (by simpa using ht) connection
    rwa [he] at hf
  | timeoutStep =>
    obtain ⟨t, ht, he⟩ := Option.map_eq_some_iff.mp hstep
    have hf := follows_timeoutStep h ht
    rwa [he] at hf
  | call c =>
    simp only [streamStep, Option.ite_none_left_eq_some, Option.some.injEq, not_or] at hstep
    obtain ⟨⟨ht, hh⟩, he⟩ := hstep
    have hf := follows_lookup h (by simpa using ht) (by simpa using hh) c
    rwa [he] at hf
  | handlerStep busy =>
    obtain ⟨hd, hh, he⟩ := Option.bind_eq_some_iff.mp hstep
    obtain ⟨c, hc⟩ := h.conn_of_handler hh
    exact follows_handlerStep h hh hc (hok hd c hh hc) he

theorem streamInv_exec [DecidableEq C] {codec : StreamCodec M} {is : List (StreamAction C)}
    (hg : Guarded (streamStep codec) (DataConverts codec) streamInit is)
    (he : exec (streamStep codec) streamInit is = some (s, os)) : StreamInv s os :=
  @exec_track_guarded _ _ _ (streamStep codec) _ (fun s _ os => StreamInv s os)
    (fun _ _ _ _ _ _ h hok hs => streamInv_step h hok hs) _ _ _ _ streamInv_init hg he

end

/-- What is asked of a run: each connection is released and freed at most once and not
used afterwards, no listed one is in use where no handler runs, and one that ended is gone
once no handler and no timeout holds it. -/
structure StreamLifecycle (s : StreamState C M) (os : List (StreamEvent C)) : Prop where
  once : ∀ ref, os.countP (·.releases ref) ≤ 1 ∧ os.countP (·.frees ref) ≤ 1 ∧
    os.any (·.misuses ref) = false
  idle : s.handler = none → ∀ ref ∈ s.connectionsList, ∀ c, s.conns ref = some c →
    c.inUse = false
  gone : ∀ ref, os.any (·.ends ref) = true → s.handlerOn ref = none → s.timeoutOn ref = none →
    os.countP (·.releases ref) = 1 ∧ os.countP (·.frees ref) = 1

theorem ConnView.Ok.once {v : ConnView} (h : v.Ok) :
    v.released ≤ 1 ∧ v.freed ≤ 1 ∧ v.bad = false := by
  obtain ⟨hbad, hrel, hm⟩ := h
  cases ha : v.allocated <;> cases hf : v.flags <;> simp only [ha, hf] at hm <;> grind

theorem ConnView.Ok.idle {v : ConnView} (h : v.Ok) (hh : v.handler = none)
    (hl : v.listed = true) {u d : Bool} (hf : v.flags = some (u, d)) : u = false := by
  obtain ⟨_, _, hm⟩ := h
  cases ha : v.allocated with
  | false => simp [ha, hf] at hm
  | true =>
    rcases ht : v.timeout with _ | stage
    · simp_all [LiveOk]
    · cases stage <;> simp_all [LiveOk]

theorem ConnView.Ok.gone {v : ConnView} (h : v.Ok) (he : v.ended = true)
    (hh : v.handler = none) (ht : v.timeout = none) : v.released = 1 ∧ v.freed = 1 := by
  obtain ⟨_, hrel, hm⟩ := h
  cases ha : v.allocated <;> cases hf : v.flags <;> cases hl : v.listed <;>
    simp_all [LiveOk]

theorem StreamInv.lifecycle {s : StreamState C M} {os : List (StreamEvent C)}
    (h : StreamInv s os) : StreamLifecycle s os := by
  refine ⟨fun ref => (h.view ref).once, fun hh ref hmem c hc => ?_, fun ref he hh ht => ?_⟩
  · exact (h.view ref).idle (by simp [viewOf, hh]) (by simp [viewOf, hmem])
      (u := c.inUse) (d := c.toDelete) (by simp [viewOf, hc])
  · exact (h.view ref).gone he hh ht

/-- In every run whose handlers only get data that can be unpacked and converted, each
connection is released and freed once it ended, once, and in use only by a handler. -/
theorem stream_lifecycle [DecidableEq C] {codec : StreamCodec M} {is : List (StreamAction C)}
    {s : StreamState C M} {os : List (StreamEvent C)}
    (hg : Guarded (streamStep codec) (DataConverts codec) streamInit is)
    (he : exec (streamStep codec) streamInit is = some (s, os)) : StreamLifecycle s os :=
  (streamInv_exec hg he).lifecycle

def streamedItem : MessageDescriptor :=
  { name := cstr "item", fields := [⟨cstr "name", .optional, .string⟩], distinct := by decide }

/-- A message of no fields can be unpacked; a lone continuation byte cannot. -/
def itemCodec : StreamCodec Unit :=
  { unpack := fun _ data => if data = [] then some () else none
    responseBody := fun _ => some (cstr "{}") }

/-- A connection gets its headers, then a piece of data. -/
def streamItem (messageData : List UInt8) : List (StreamAction Nat) :=
  [.createConn 7 streamedItem, .call (.setStreamHeaders 0 .json none), .handlerStep false,
    .handlerStep false, .handlerStep false, .handlerStep false,
    .call (.sendStreamData 0 messageData), .handlerStep false, .handlerStep false,
    .handlerStep false]

theorem stream_lifecycle_streamItem : ∃ s os,
    exec (streamStep itemCodec) streamInit (streamItem []) = some (s, os) ∧
      StreamLifecycle s os := by
  refine ⟨_, _, rfl, @stream_lifecycle _ _ _ itemCodec (streamItem []) _ _ ?_ rfl⟩
  have hok : ∀ hd : Handler Unit, ∀ c : StreamConnection Nat,
      (∀ id data, hd.call = .sendStreamData id data → data = []) → StageOk itemCodec hd c := by
    intro hd c h
    unfold StageOk
    split
    · rename_i hc
      simp [itemCodec, h _ _ hc]
    · simp [itemCodec]
    · trivial
  refine ⟨trivial, trivial, ?_, ?_, ?_, ?_, trivial, ?_, ?_, ?_, trivial⟩ <;> intro hd c hh _ <;>
    cases hh <;> refine hok _ _ fun id data he => ?_ <;> cases he <;> rfl

/-- Data that cannot be unpacked keeps the connection in use when the handler is done. -/
theorem undecodable_data_keeps_connection : ∃ s os,
    exec (streamStep itemCodec) streamInit (streamItem [0x80]) = some (s, os) ∧
      ¬ StreamLifecycle s os := by
  refine ⟨_, _, rfl, fun h => ?_⟩
  have hu := h.idle rfl 0 (by decide) _ rfl
  cases hu

end Cmsg.Proxy
