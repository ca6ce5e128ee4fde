import Cmsg.Proxy.Output
import Cmsg.Proxy.Precedence
import Cmsg.Proxy.StreamLifecycle

/-! # Requests whose response is streamed

The connection of a stream is made while the input of the request is processed, and
taken off the list again where anything fails afterwards. Requests are processed one at
a time; the implementations work on the streams in another thread all the while, and
connections time out, between any two of these steps. -/
namespace Cmsg.Proxy
open Cmsg.Base Cmsg.Base.Runs

/-! ## Processing -/

/-- A request that is being processed. `created` is the record made for it, `removed`
are the records that it took off the list. -/
structure Handled (C M : Type) where
  streams : StreamState C M
  output : Output
  streamingId : Nat
  created : Option Nat
  removed : List Nat

/-- What goes on in the streaming server during the conversion of the input, from the
call of the API to the end of the output, and from then on until the return. -/
structure Meanwhile (C : Type) where
  converting : List (StreamAction C)
  calling : List (StreamAction C)
  returning : List (StreamAction C)

/-- What the proxy uses to process requests: the index of its APIs is a parameter. -/
structure ProxyCodec (M N : Type) where
  stream : StreamCodec M
  output : OutputCodec N
  index : Option CString → Option Json

section
variable {C M N V : Type}

/-- `cmsg_proxy_streaming_delete_conn_by_id`: the record is freed but its connection is
not released. Also the record that was taken off the list. -/
def streamingDeleteConnById (s : StreamState C M) (id : Nat) :
    StreamState C M × List (StreamEvent C) × Option Nat :=
  match searchConns s.conns (fun c => c.id = id) s.connectionsList with
  | .error ref => (s, [.badAccess ref], none)
  | .ok none => (s, [], none)
  | .ok (some (ref, _)) =>
    ({ s.setConn ref none with connectionsList := s.connectionsList.erase ref }, [.freed ref],
      some ref)

def Handled.start (s : StreamState C M) (output : Output) : Handled C M :=
  { streams := s, output := { output with mimeType := cstr "application/json" }, streamingId := 0,
    created := none, removed := [] }

/-- The streaming server runs. -/
def Handled.runs [DecidableEq C] (h : Handled C M) (codec : ProxyCodec M N)
    (actions : List (StreamAction C)) : Option (Handled C M) :=
  (exec (streamStep codec.stream) h.streams actions).map fun r => { h with streams := r.1 }

/-- `cmsg_proxy_streaming_create_conn`, once no timeout holds the mutex of the list and with
memory for the record. -/
def Handled.createConn (h : Handled C M) (connection : C) (info : ServiceInfo) :
    Option (Handled C M) :=
  if !streamingIsRequired info.inputDesc then
    some { h with output := { h.output with streamResponse := false } }
  else if h.streams.timeout.isSome then none
  else
    some { h with streams := streamingCreateConn h.streams connection info.outputDesc
                  output := { h.output with streamResponse := true }
                  streamingId := h.streams.lastIdAssigned
                  created := some h.streams.nextRef }

/-- A request whose response was to be streamed gives that up. -/
def Handled.closeStream (h : Handled C M) : Option (Handled C M) :=
  if !h.output.streamResponse then some h
  else if h.streams.timeout.isSome then none
  else
    let (streams, _, ref) := streamingDeleteConnById h.streams h.streamingId
    some { h with streams
                  output := { h.output with streamResponse := false }
                  removed := ref.toList ++ h.removed }

def Handled.fails (h : Handled C M) (codec : ProxyCodec M N) (result : AntResult) : Handled C M :=
  { h with output := generateAntResultError codec.output result h.output }

/-- `cmsg_proxy_input_process` with the streams. -/
def Handled.inputProcess [DecidableEq C] (h : Handled C M) (codec : ProxyCodec M N)
    (env : Environment V) (connection : C) (input : Input) (converting : List (StreamAction C)) :
    Option (Handled C M × Option (InputMessage V)) :=
  match conversionObject env input with
  | .error result => some (h.fails codec result, none)
  | .ok (info, obj) =>
    (h.createConn connection info).bind fun h =>
    (h.runs codec converting).bind fun h =>
    match convertJsonToProtobuf env obj info.inputDesc with
    | .error result => (h.fails codec result).closeStream.map fun h => (h, none)
    | .ok values => some (h, some (messageOf env input info values))

/-- `cmsg_proxy_output_process`, of what `cmsg_api_invoke` returned. -/
def Handled.outputProcess (h : Handled C M) (codec : ProxyCodec M N) (verb : HttpVerb)
    (urlString : CString) (invoked : Bool) (message : Option N) : Option (Handled C M) :=
  if !invoked then
    (h.fails codec ⟨.internal, cstr "Internal CMSG operation failed"⟩).closeStream
  else
    let (status, message, found) := setHttpStatus codec.output verb message
    let h := { h with output := { h.output with httpStatus := status } }
    if !found then
      (h.fails codec ⟨.internal, cstr "_error_info is not set for " ++ urlString⟩).closeStream
    else if h.output.streamResponse ∧ h.output.httpStatus = httpCodeOk then some h
    else
      h.closeStream.map fun h => { h with output := responseOf codec.output message h.output }

/-- `cmsg_proxy`, from the state of the streams at its beginning. -/
def cmsgProxy [DecidableEq C] (codec : ProxyCodec M N) (env : Environment V)
    (api : InputMessage V → Bool × Option N) (meanwhile : Meanwhile C) (s : StreamState C M)
    (connection : C) (input : Input) (output : Output) : Option (Handled C M) :=
  let h := Handled.start s output
  if input.url = cstr "/v1/index" ∧ input.httpVerb = .get then
    match codec.index input.queryString with
    | none => some { h with output := { h.output with httpStatus := httpCodeInternalServerError } }
    | some json =>
      let output := jsonToOutput codec.output json h.output
      some { h with output := { output with httpStatus := httpCodeOk } }
  else
    (h.inputProcess codec { env with nextStreamId := s.lastIdAssigned } connection input
      meanwhile.converting).bind fun (h, message) =>
    match message with
    | none => h.runs codec meanwhile.returning
    | some message =>
      (h.runs codec meanwhile.calling).bind fun h =>
      (h.outputProcess codec input.httpVerb message.serviceInfo.urlString (api message).1
        (api message).2).bind fun h =>
      h.runs codec meanwhile.returning

/-- The message is the one that processing without streams gives. -/
theorem Handled.inputProcess_message [DecidableEq C] {h h' : Handled C M}
    {codec : ProxyCodec M N} {env : Environment V} {connection : C} {input : Input}
    {converting : List (StreamAction C)} {message : Option (InputMessage V)}
    (he : h.inputProcess codec env connection input converting = some (h', message)) :
    message = (Cmsg.Proxy.inputProcess env input).toOption := by
  unfold Handled.inputProcess at he
  rw [inputProcess_conversion]
  cases hobj : conversionObject env input with
  | error result =>
    rw [hobj] at he
    cases he
    rfl
  | ok r =>
    obtain ⟨info, obj⟩ := r
    rw [hobj] at he
    obtain ⟨_, _, he⟩ := Option.bind_eq_some_iff.mp he
    obtain ⟨_, _, he⟩ := Option.bind_eq_some_iff.mp he
    change message = ((convertJsonToProtobuf env obj info.inputDesc).map _).toOption
    cases hconv : convertJsonToProtobuf env obj info.inputDesc with
    | error result =>
      rw [hconv] at he
      obtain ⟨_, _, hpair⟩ := Option.map_eq_some_iff.mp he
      cases hpair
      rfl
    | ok values =>
      rw [hconv] at he
      cases he
      rfl

end

/-! ## One step of the streams -/

section
variable {C M : Type} {s s' : StreamState C M}

theorem searchConns_some {conns : Nat → Option (StreamConnection C)}
    {p : StreamConnection C → Bool} {l : List Nat} {ref : Nat} {c : StreamConnection C}
    (h : searchConns conns p l = .ok (some (ref, c))) :
    ref ∈ l ∧ conns ref = some c ∧ p c = true := by
  induction l with
  | nil => cases h
  | cons r refs ih =>
    unfold searchConns at h
    split at h
    · cases h
    · next c' hc' =>
      split at h
      · next hp =>
        cases h
        exact ⟨List.mem_cons_self, hc', hp⟩
      · obtain ⟨hmem, hc, hp⟩ := ih h
        exact ⟨List.mem_cons_of_mem _ hmem, hc, hp⟩

/-- A step that touches one record only. -/
structure WorksOn (ref : Nat) (s s' : StreamState C M) : Prop where
  nextRef : s'.nextRef = s.nextRef
  connectionsList : s'.connectionsList = s.connectionsList ∨
    s'.connectionsList = s.connectionsList.erase ref
  conns : ∀ r, r ≠ ref → s'.conns r = s.conns r
  handler : ∀ h, s'.handler = some h → h.ref = ref ∨ s.handler = some h
  timeout : ∀ t, s'.timeout = some t → t.ref = ref ∨ s.timeout = some t

theorem setConn_conns (s : StreamState C M) (c : Option (StreamConnection C)) {ref r : Nat}
    (h : r ≠ ref) : (s.setConn ref c).conns r = s.conns r :=
  if_neg h

theorem worksOn_refl (ref : Nat) (s : StreamState C M) : WorksOn ref s s :=
  ⟨rfl, Or.inl rfl, fun _ _ => rfl, fun _ h => Or.inr h, fun _ h => Or.inr h⟩

theorem worksOn_remove (ref : Nat) (s : StreamState C M) :
    WorksOn ref s { s with connectionsList := s.connectionsList.erase ref } :=
  ⟨rfl, Or.inr rfl, fun _ _ => rfl, fun _ h => Or.inr h, fun _ h => Or.inr h⟩

theorem WorksOn.setConn {ref : Nat} (h : WorksOn ref s s') (c : Option (StreamConnection C)) :
    WorksOn ref s (s'.setConn ref c) :=
  ⟨h.nextRef, h.connectionsList, fun r hr => (setConn_conns s' c hr).trans (h.conns r hr),
    h.handler, h.timeout⟩

theorem WorksOn.withHandler {ref : Nat} (h : WorksOn ref s s') {handler : Option (Handler M)}
    (hhandler : ∀ hd, handler = some hd → hd.ref = ref) : WorksOn ref s { s' with handler } :=
  ⟨h.nextRef, h.connectionsList, h.conns, fun hd hh => Or.inl (hhandler hd hh), h.timeout⟩

theorem WorksOn.withTimeout {ref : Nat} (h : WorksOn ref s s') {timeout : Option Timeout}
    (htimeout : ∀ t, timeout = some t → t.ref = ref) : WorksOn ref s { s' with timeout } :=
  ⟨h.nextRef, h.connectionsList, h.conns, h.handler, fun t ht => Or.inl (htimeout t ht)⟩

theorem worksOn_timeoutStep (s : StreamState C M) (t : Timeout) :
    WorksOn t.ref s (timeoutStep s t).1 := by
  have hsame := worksOn_refl t.ref s
  have hstage : ∀ (stage : TimeoutStage) (u : Timeout), some { t with stage } = some u →
      u.ref = t.ref := by
    rintro stage u hu
    cases hu
    rfl
  unfold timeoutStep
  split
  · split
    · exact hsame
    · split
      · exact (hsame.setConn _).withTimeout (hstage _)
      · exact hsame.withTimeout (hstage _)
  · split
    · exact hsame
    · exact (hsame.setConn _).withTimeout (hstage _)
  · exact (worksOn_remove t.ref s).withTimeout fun _ h => by cases h

theorem worksOn_handlerStep {codec : StreamCodec M} {hd : Handler M} {busy : Bool}
    {o : List (StreamEvent C)} (h : handlerStep codec s hd busy = some (s', o)) :
    WorksOn hd.ref s s' := by
  have hsame := worksOn_refl hd.ref s
  have hstage : ∀ (stage : HandlerStage M) (hd' : Handler M), some { hd with stage } = some hd' →
      hd'.ref = hd.ref := by
    rintro stage hd' hh
    cases hh
    rfl
  have hnone : ∀ hd' : Handler M, none = some hd' → hd'.ref = hd.ref := fun _ hh => by cases hh
  unfold handlerStep at h
  dsimp only at h
  split at h
  · cases h
    exact hsame
  · split at h
    · cases h
      exact (hsame.setConn _).withHandler (hstage _)
    · split at h
      · cases h
      · cases h
        exact (worksOn_remove hd.ref s).withHandler (hstage _)
    · cases h
      exact (hsame.setConn _).withHandler (hstage _)
    · cases h
      exact (hsame.setConn _).withHandler (hstage _)
    · split at h
      · cases h
        exact hsame.withHandler (hstage _)
      · cases h
        exact (hsame.setConn _).withHandler hnone
    · cases h
      exact (hsame.setConn _).withHandler hnone
    · split at h
      · cases h
        exact hsame.withHandler hnone
      · cases h
        exact hsame.withHandler (hstage _)

/-- A record that the state refers to. -/
def Known (s : StreamState C M) (ref : Nat) : Prop :=
  ref ∈ s.connectionsList ∨ (∃ h, s.handler = some h ∧ h.ref = ref) ∨
    ∃ t, s.timeout = some t ∧ t.ref = ref

/-- What a step does: it makes a record, or it works on one that is known. -/
theorem streamStep_cases [DecidableEq C] {codec : StreamCodec M} {a : StreamAction C}
    {o : List (StreamEvent C)} (h : streamStep codec s a = some (s', o)) :
    (∃ connection desc, a = .createConn connection desc ∧
      s' = streamingCreateConn s connection desc) ∨
    s' = s ∨ ∃ ref, Known s ref ∧ WorksOn ref s s' := by
  cases a with
  | createConn connection desc =>
    simp only [streamStep, Option.ite_none_left_eq_some, Option.some.injEq, Prod.mk.injEq] at h
    exact Or.inl ⟨connection, desc, rfl, h.2.1.symm⟩
  | connTimeout connection =>
    simp only [streamStep, Option.ite_none_left_eq_some, Option.some.injEq] at h
    obtain ⟨_, he⟩ := h
    unfold streamingConnTimeout at he
    split at he
    · cases he
      exact Or.inr (Or.inl rfl)
    · cases he
      exact Or.inr (Or.inl rfl)
    · next ref c hs =>
      cases he
      refine Or.inr (Or.inr ⟨ref, Or.inl (searchConns_some hs).1, ?_⟩)
      exact (worksOn_refl ref s).withTimeout fun _ h => by cases h; rfl
  | timeoutStep =>
    obtain ⟨t, ht, he⟩ := Option.map_eq_some_iff.mp h
    have hw := worksOn_timeoutStep s t
    rw [he] at hw
    exact Or.inr (Or.inr ⟨t.ref, Or.inr (Or.inr ⟨t, ht, rfl⟩), hw⟩)
  | call c =>
    simp only [streamStep, Option.ite_none_left_eq_some, Option.some.injEq] at h
    obtain ⟨_, he⟩ := h
    unfold streamingLookup at he
    split at he
    · cases he
      exact Or.inr (Or.inl rfl)
    · cases he
      exact Or.inr (Or.inl rfl)
    · next ref found hs =>
      cases he
      refine Or.inr (Or.inr ⟨ref, Or.inl (searchConns_some hs).1, ?_⟩)
      exact ((worksOn_refl ref s).setConn _).withHandler fun _ h => by cases h; rfl
  | handlerStep busy =>
    obtain ⟨hd, hh, he⟩ := Option.bind_eq_some_iff.mp h
    exact Or.inr (Or.inr ⟨hd.ref, Or.inr (Or.inl ⟨hd, hh, rfl⟩), worksOn_handlerStep he⟩)

/-- The records that the state refers to were made before. -/
def KnownBefore (s : StreamState C M) : Prop := ∀ ref, Known s ref → ref < s.nextRef

theorem WorksOn.known {ref r : Nat} (hw : WorksOn ref s s') (hk : Known s ref) (h : Known s' r) :
    Known s r := by
  rcases h with hmem | ⟨hd, hh, rfl⟩ | ⟨t, ht, rfl⟩
  · rcases hw.connectionsList with hl | hl <;> rw [hl] at hmem
    · exact Or.inl hmem
    · exact Or.inl (List.mem_of_mem_erase hmem)
  · rcases hw.handler hd hh with he | he
    · exact he ▸ hk
    · exact Or.inr (Or.inl ⟨hd, he, rfl⟩)
  · rcases hw.timeout t ht with he | he
    · exact he ▸ hk
    · exact Or.inr (Or.inr ⟨t, he, rfl⟩)

theorem knownBefore_createConn (h : KnownBefore s) (connection : C) (desc : MessageDescriptor) :
    KnownBefore (streamingCreateConn s connection desc) := by
  intro ref hk
  have hlt : ref = s.nextRef ∨ ref < s.nextRef := by
    rcases hk with hmem | hh | ht
    · rcases List.mem_cons.mp hmem with rfl | hmem
      · exact Or.inl rfl
      · exact Or.inr (h ref (Or.inl hmem))
    · exact Or.inr (h ref (Or.inr (Or.inl hh)))
    · exact Or.inr (h ref (Or.inr (Or.inr ht)))
  change ref < s.nextRef + 1
  omega

theorem knownBefore_step [DecidableEq C] {codec : StreamCodec M} {a : StreamAction C}
    {o : List (StreamEvent C)} (h : KnownBefore s) (hs : streamStep codec s a = some (s', o)) :
    KnownBefore s' := by
  rcases streamStep_cases hs with ⟨connection, desc, _, rfl⟩ | rfl | ⟨ref, hk, hw⟩
  · exact knownBefore_createConn h connection desc
  · exact h
  · intro r hr
    rw [hw.nextRef]
    exact h r (hw.known hk hr)

/-- A record that is off the list stays off it. -/
def OffList (ref : Nat) (s : StreamState C M) : Prop :=
  ref ∉ s.connectionsList ∧ ref < s.nextRef

theorem offList_step [DecidableEq C] {codec : StreamCodec M} {a : StreamAction C}
    {o : List (StreamEvent C)} {ref : Nat} (h : OffList ref s)
    (hs : streamStep codec s a = some (s', o)) : OffList ref s' := by
  obtain ⟨hoff, hlt⟩ := h
  rcases streamStep_cases hs with ⟨connection, desc, _, rfl⟩ | rfl | ⟨r, _, hw⟩
  · refine ⟨fun hmem => ?_, Nat.lt_succ_of_lt hlt⟩
    rcases List.mem_cons.mp hmem with rfl | hmem
    · exact Nat.lt_irrefl _ hlt
    · exact hoff hmem
  · exact ⟨hoff, hlt⟩
  · refine ⟨fun hmem => ?_, by rw [hw.nextRef]; exact hlt⟩
    rcases hw.connectionsList with hl | hl <;> rw [hl] at hmem
    · exact hoff hmem
    · exact hoff (List.mem_of_mem_erase hmem)

end

/-! ## The stream of the request -/

def StreamCall.ends : StreamCall → Bool
  | .closeStreamConnection _ | .abortStreamConnection _ => true
  | _ => false

/-- The stages of a handler that leave the record on the list. -/
def HandlerStage.keeps {M : Type} : HandlerStage M → Bool
  | .remove | .markDelete | .leave | .delete _ => false
  | _ => true

section
variable {C M : Type} {s s' : StreamState C M}

/-- What leaves a stream open: it is not closed and not aborted, no other request begins,
and its connection does not time out. -/
def StreamAction.Spares (connection : C) (id : Nat) : StreamAction C → Prop
  | .createConn _ _ => False
  | .connTimeout other => other ≠ connection
  | .timeoutStep | .handlerStep _ => True
  | .call c => c.id = id → c.ends = false

/-- The stream is at the front of the list, and nobody is about to take it off. -/
structure OpenStream (connection : C) (id ref : Nat) (s : StreamState C M) : Prop where
  listed : ∃ rest, s.connectionsList = ref :: rest ∧ ref ∉ rest
  conn : ∃ c, s.conns ref = some c ∧ c.id = id ∧ c.connection = connection ∧ c.toDelete = false
  handler : ∀ h, s.handler = some h → h.ref = ref → h.call.ends = false ∧ h.stage.keeps = true
  timeout : ∀ t, s.timeout = some t → t.ref ≠ ref
  before : ref < s.nextRef

variable {connection : C} {id ref : Nat}

theorem OpenStream.worksOn (h : OpenStream connection id ref s) {r : Nat} (hr : r ≠ ref)
    (hw : WorksOn r s s') : OpenStream connection id ref s' := by
  refine ⟨?_, ?_, ?_, ?_, by rw [hw.nextRef]; exact h.before⟩
  · obtain ⟨rest, hlist, hnot⟩ := h.listed
    rcases hw.connectionsList with hl | hl
    · exact ⟨rest, hl.trans hlist, hnot⟩
    · refine ⟨rest.erase r, ?_, fun hmem => hnot (List.mem_of_mem_erase hmem)⟩
      rw [hl, hlist, List.erase_cons_tail (by simpa using Ne.symm hr)]
  · rw [hw.conns ref (Ne.symm hr)]
    exact h.conn
  · intro hd hh href
    rcases hw.handler hd hh with he | he
    · exact absurd (he.symm.trans href) hr
    · exact h.handler hd he href
  · intro t ht href
    rcases hw.timeout t ht with he | he
    · exact hr (he.symm.trans href)
    · exact h.timeout t he href

theorem stageStep_keeps {codec : StreamCodec M} {hd : Handler M} {c : StreamConnection C}
    {busy : Bool} (hcall : hd.call.ends = false) (hstage : hd.stage.keeps = true)
    {stage : HandlerStage M} {o : List (StreamEvent C)}
    (h : stageStep codec hd c busy = (some stage, o)) : stage.keeps = true := by
  obtain ⟨call, ref, st⟩ := hd
  cases st with
  | remove | markDelete | leave | delete => cases hstage
  | start =>
    cases call with
    | sendStreamData _ _ => cases h; split <;> rfl
    | sendStreamFileData _ _ => cases h; split <;> rfl
    | closeStreamConnection _ => cases hcall
    | abortStreamConnection _ => cases hcall
    | setStreamHeaders _ type fileInfo =>
      simp only [stageStep] at h
      split at h <;> cases h <;> rfl
  | checkHeaders =>
    cases call with
    | sendStreamFileData _ _ =>
      simp only [stageStep] at h
      split at h <;> cases h <;> rfl
    | _ => cases h; split <;> rfl
  | unpack =>
    cases call with
    | sendStreamData _ data =>
      simp only [stageStep] at h
      split at h <;> cases h
      rfl
    | _ => cases h; rfl
  | generate message =>
    simp only [stageStep] at h
    split at h <;> cases h
    rfl
  | send data =>
    cases call with
    | sendStreamFileData _ _ =>
      simp only [stageStep] at h
      split at h <;> cases h <;> rfl
    | _ => cases h; rfl
  | setHeaders headers => cases h; rfl
  | markHeaders => cases h; rfl
  | release => cases h; rfl

/-- A handler of the stream that does not end it. -/
theorem OpenStream.handlerStep {codec : StreamCodec M} (h : OpenStream connection id ref s)
    {hd : Handler M} (hh : s.handler = some hd) (href : hd.ref = ref) {busy : Bool}
    {o : List (StreamEvent C)} (hs : handlerStep codec s hd busy = some (s', o)) :
    OpenStream connection id ref s' := by
  subst href
  obtain ⟨c, hc, hid, hconn, hmark⟩ := h.conn
  obtain ⟨hcall, hstage⟩ := h.handler hd hh rfl
  have hgoes : ∀ stage : HandlerStage M, stage.keeps = true →
      OpenStream connection id hd.ref { s with handler := some { hd with stage } } :=
    fun stage hkeeps => ⟨h.listed, h.conn, fun _ he _ => (by cases he; exact ⟨hcall, hkeeps⟩),
      h.timeout, h.before⟩
  have hdone : OpenStream connection id hd.ref ({ s with handler := none } : StreamState C M) :=
    ⟨h.listed, h.conn, fun _ he => (by cases he), h.timeout, h.before⟩
  have hset : ∀ (c' : StreamConnection C) (handler : Option (Handler M)), c'.id = c.id →
      c'.connection = c.connection → c'.toDelete = false →
      (∀ h', handler = some h' → h'.call.ends = false ∧ h'.stage.keeps = true) →
      OpenStream connection id hd.ref { s.setConn hd.ref (some c') with handler } :=
    fun c' handler hid' hconn' hmark' hkeeps => ⟨h.listed,
      ⟨c', if_pos rfl, hid'.trans hid, hconn'.trans hconn, hmark'⟩, fun h' he _ => hkeeps h' he,
      h.timeout, h.before⟩
  unfold Cmsg.Proxy.handlerStep at hs
  simp only [hc] at hs
  split at hs
  · cases hs
    exact hset _ _ rfl rfl hmark fun _ he => by cases he; exact ⟨hcall, rfl⟩
  · next hst => rw [hst] at hstage; cases hstage
  · next hst => rw [hst] at hstage; cases hstage
  · next hst => rw [hst] at hstage; cases hstage
  · simp only [hmark] at hs
    cases hs
    exact hset _ _ rfl rfl rfl fun _ he => by cases he
  · next hst => rw [hst] at hstage; cases hstage
  · split at hs
    · cases hs
      exact hdone
    · next hst =>
      cases hs
      exact hgoes _ (stageStep_keeps hcall hstage hst)

theorem openStream_step [DecidableEq C] {codec : StreamCodec M}
    (h : OpenStream connection id ref s) {a : StreamAction C} (ha : a.Spares connection id)
    {o : List (StreamEvent C)} (hs : streamStep codec s a = some (s', o)) :
    OpenStream connection id ref s' := by
  obtain ⟨c, hc, hid, hconn, hmark⟩ := h.conn
  cases a with
  | createConn _ _ => exact ha.elim
  | connTimeout other =>
    simp only [streamStep, Option.ite_none_left_eq_some, Option.some.injEq] at hs
    obtain ⟨_, he⟩ := hs
    unfold streamingConnTimeout at he
    split at he
    · cases he
      exact h
    · cases he
      exact h
    · next r found hfound =>
      cases he
      have hr : r ≠ ref := by
        rintro rfl
        obtain ⟨_, hc', hp⟩ := searchConns_some hfound
        rw [hc] at hc'
        cases hc'
        exact ha ((of_decide_eq_true hp).symm.trans hconn)
      exact ⟨h.listed, h.conn, h.handler, fun t ht => (by cases ht; exact hr), h.before⟩
  | timeoutStep =>
    obtain ⟨t, ht, he⟩ := Option.map_eq_some_iff.mp hs
    have hw := worksOn_timeoutStep s t
    rw [he] at hw
    exact h.worksOn (h.timeout t ht) hw
  | call call =>
    simp only [streamStep, Option.ite_none_left_eq_some, Option.some.injEq] at hs
    obtain ⟨_, he⟩ := hs
    unfold streamingLookup at he
    split at he
    · cases he
      exact h
    · cases he
      exact h
    · next r found hfound =>
      cases he
      obtain ⟨_, hc', hp⟩ := searchConns_some hfound
      by_cases hr : r = ref
      · subst hr
        rw [hc] at hc'
        cases hc'
        refine ⟨h.listed, ⟨_, if_pos rfl, hid, hconn, hmark⟩, ?_, h.timeout, h.before⟩
        rintro _ he -
        cases he
        exact ⟨ha ((of_decide_eq_true hp).symm.trans hid), rfl⟩
      · refine h.worksOn hr ⟨rfl, Or.inl rfl, fun _ h => setConn_conns s _ h, ?_, ?_⟩
        · rintro _ he
          cases he
          exact Or.inl rfl
        · exact fun _ he => Or.inr he
  | handlerStep busy =>
    obtain ⟨hd, hh, he⟩ := Option.bind_eq_some_iff.mp hs
    by_cases href : hd.ref = ref
    · exact h.handlerStep hh href he
    · exact h.worksOn href (worksOn_handlerStep he)

theorem openStream_createConn (h : KnownBefore s) (connection : C) (desc : MessageDescriptor)
    (ht : s.timeout = none) :
    OpenStream connection s.lastIdAssigned s.nextRef (streamingCreateConn s connection desc) := by
  refine ⟨⟨s.connectionsList, rfl, fun hmem => Nat.lt_irrefl _ (h _ (Or.inl hmem))⟩,
    ⟨_, if_pos rfl, rfl, rfl, rfl⟩, fun hd hh href => ?_, fun t he => ?_, Nat.lt_succ_self _⟩
  · exact absurd (h s.nextRef (Or.inr (Or.inl ⟨hd, hh, href⟩))) (Nat.lt_irrefl _)
  · exact absurd (ht.symm.trans he) (by simp)

/-- The record is the first one with its id, so it is the one that is deleted. -/
theorem OpenStream.deleteConnById (h : OpenStream connection id ref s) :
    (streamingDeleteConnById s id).2.2 = some ref ∧
      (streamingDeleteConnById s id).1.connectionsList = s.connectionsList.erase ref ∧
      OffList ref (streamingDeleteConnById s id).1 := by
  obtain ⟨rest, hlist, hnot⟩ := h.listed
  obtain ⟨c, hc, hid, _⟩ := h.conn
  have hfound : searchConns s.conns (fun c => c.id = id) s.connectionsList =
      .ok (some (ref, c)) := by
    rw [hlist]
    unfold searchConns
    simp [hc, hid]
  unfold streamingDeleteConnById
  rw [hfound]
  refine ⟨rfl, rfl, ?_, h.before⟩
  change ref ∉ s.connectionsList.erase ref
  rw [hlist, List.erase_cons_head]
  exact hnot

theorem knownBefore_deleteConnById (h : KnownBefore s) (id : Nat) :
    KnownBefore (streamingDeleteConnById s id).1 := by
  unfold streamingDeleteConnById
  split
  · exact h
  · exact h
  · rintro r (hmem | hother)
    · exact h r (Or.inl (List.mem_of_mem_erase hmem))
    · exact h r (Or.inr hother)

end

/-! ## The whole request -/

section
variable {C M N V : Type} [DecidableEq C] {codec : ProxyCodec M N} {env : Environment V}
variable {api : InputMessage V → Bool × Option N} {meanwhile : Meanwhile C}
variable {s : StreamState C M} {connection : C} {input : Input} {output : Output} {h : Handled C M}

/-- All that goes on meanwhile. -/
def Meanwhile.actions (meanwhile : Meanwhile C) : List (StreamAction C) :=
  meanwhile.converting ++ meanwhile.calling ++ meanwhile.returning

/-- What is kept by the creation, by the streaming server, by the deletion and by whatever
leaves open whether the response is streamed, is kept by the request. -/
structure KeptBy (codec : ProxyCodec M N) (meanwhile : Meanwhile C) (connection : C)
    (first : Handled C M) (P : Handled C M → Prop) : Prop where
  start : P first
  create : ∀ info h, first.createConn connection info = some h → P h
  step : ∀ h, P h → ∀ a ∈ meanwhile.actions, ∀ streams o,
    streamStep codec.stream h.streams a = some (streams, o) → P { h with streams }
  close : ∀ h, P h → ∀ h', h.closeStream = some h' → P h'
  output : ∀ h, P h → ∀ output : Output, output.streamResponse = h.output.streamResponse →
    P { h with output }

namespace KeptBy
variable {first : Handled C M} {P : Handled C M → Prop}

theorem runs (hk : KeptBy codec meanwhile connection first P) {actions : List (StreamAction C)}
    (hsub : ∀ a ∈ actions, a ∈ meanwhile.actions) {h' : Handled C M} (hP : P h)
    (he : h.runs codec actions = some h') : P h' := by
  obtain ⟨⟨streams, os⟩, hrun, rfl⟩ := Option.map_eq_some_iff.mp he
  clear he
  induction actions generalizing h os with
  | nil =>
    cases hrun
    exact hP
  | cons a actions ih =>
    obtain ⟨s₁, o₁, o₂, hs, hrest, rfl⟩ := exec_cons.mp hrun
    have h₁ := hk.step h hP a (hsub a List.mem_cons_self) s₁ o₁ hs
    exact ih (h := { h with streams := s₁ }) (fun b hb => hsub b (List.mem_cons_of_mem _ hb)) h₁
      o₂ hrest

theorem fails (hk : KeptBy codec meanwhile connection first P) (hP : P h) (result : AntResult) :
    P (h.fails codec result) :=
  hk.output h hP _ (streamResponse_generateAntResultError _ _ _)

theorem inputProcess (hk : KeptBy codec meanwhile connection first P) {env : Environment V}
    {message : Option (InputMessage V)}
    (he : first.inputProcess codec env connection input meanwhile.converting = some (h, message)) :
    P h := by
  unfold Handled.inputProcess at he
  split at he
  · cases he
    exact hk.fails hk.start _
  · next info obj _ =>
    obtain ⟨h₁, hcreate, he⟩ := Option.bind_eq_some_iff.mp he
    obtain ⟨h₂, hruns, he⟩ := Option.bind_eq_some_iff.mp he
    have h₁P := hk.create info h₁ hcreate
    have h₂P := hk.runs (fun a ha => by simp [Meanwhile.actions, ha]) h₁P hruns
    split at he
    · obtain ⟨h₃, hclose, hpair⟩ := Option.map_eq_some_iff.mp he
      cases hpair
      exact hk.close _ (hk.fails h₂P _) h hclose
    · cases he
      exact h₂P

theorem outputProcess (hk : KeptBy codec meanwhile connection first P) {verb : HttpVerb}
    {urlString : CString} {invoked : Bool} {message : Option N} (hP : P h) {h' : Handled C M}
    (he : h.outputProcess codec verb urlString invoked message = some h') : P h' := by
  unfold Handled.outputProcess at he
  split at he
  · exact hk.close _ (hk.fails hP _) h' he
  · have hstatus := hk.output h hP
      { h.output with httpStatus := (setHttpStatus codec.output verb message).1 } rfl
    dsimp only at he
    split at he
    · exact hk.close _ (hk.fails hstatus _) h' he
    · split at he
      · cases he
        exact hstatus
      · obtain ⟨h₁, hclose, rfl⟩ := Option.map_eq_some_iff.mp he
        exact hk.output h₁ (hk.close _ hstatus h₁ hclose) _ (streamResponse_responseOf _ _ _)

/-- **The rule for requests.** -/
theorem cmsgProxy (hk : KeptBy codec meanwhile connection (Handled.start s output) P)
    (he : cmsgProxy codec env api meanwhile s connection input output = some h) : P h := by
  unfold Cmsg.Proxy.cmsgProxy at he
  dsimp only at he
  split at he
  · split at he
    · cases he
      exact hk.output _ hk.start _ rfl
    · cases he
      exact hk.output _ hk.start _ (streamResponse_jsonToOutput _ _ _)
  · obtain ⟨⟨h₁, message⟩, hinput, he⟩ := Option.bind_eq_some_iff.mp he
    have h₁P := hk.inputProcess hinput
    dsimp only at he
    split at he
    · exact hk.runs (fun a ha => by simp [Meanwhile.actions, ha]) h₁P he
    · obtain ⟨h₂, hcalling, he⟩ := Option.bind_eq_some_iff.mp he
      obtain ⟨h₃, houtput, he⟩ := Option.bind_eq_some_iff.mp he
      have h₂P := hk.runs (fun a ha => by simp [Meanwhile.actions, ha]) h₁P hcalling
      exact hk.runs (fun a ha => by simp [Meanwhile.actions, ha]) (hk.outputProcess h₂P houtput) he

end KeptBy

/-- Where the stream of a request stands. -/
structure Bookkept (connection : C) (id : Nat) (h : Handled C M) : Prop where
  known : KnownBefore h.streams
  without : h.created = none → h.output.streamResponse = false ∧ h.removed = []
  streamed : ∀ ref, h.created = some ref → h.output.streamResponse = true →
    h.streamingId = id ∧ OpenStream connection id ref h.streams ∧ h.removed = []
  closed : ∀ ref, h.created = some ref → h.output.streamResponse = false →
    OffList ref h.streams ∧ h.removed = [ref]

theorem bookkept (hs : KnownBefore s) (hout : output.streamResponse = false)
    (hspares : ∀ a ∈ meanwhile.actions, a.Spares connection s.lastIdAssigned) :
    KeptBy codec meanwhile connection (Handled.start s output)
      (Bookkept connection s.lastIdAssigned) := by
  refine ⟨⟨hs, fun _ => ⟨hout, rfl⟩, fun _ he => (by cases he), fun _ he => (by cases he)⟩,
    ?_, ?_, ?_, ?_⟩
  · intro info h hcreate
    unfold Handled.createConn at hcreate
    split at hcreate
    · cases hcreate
      exact ⟨hs, fun _ => ⟨rfl, rfl⟩, fun _ he => (by cases he), fun _ he => (by cases he)⟩
    · split at hcreate
      · cases hcreate
      · next ht =>
        cases hcreate
        refine ⟨knownBefore_createConn hs connection info.outputDesc, fun he => (by cases he),
          ?_, fun _ _ he => (by cases he)⟩
        intro ref he _
        cases he
        exact ⟨rfl, openStream_createConn hs connection info.outputDesc
          (by simpa [Handled.start] using ht), rfl⟩
  · intro h hb a ha streams o hstep
    refine ⟨knownBefore_step hb.known hstep, hb.without, ?_, ?_⟩
    · intro ref hc hstreamed
      obtain ⟨hid, hopen, hrem⟩ := hb.streamed ref hc hstreamed
      exact ⟨hid, openStream_step hopen (hspares a ha) hstep, hrem⟩
    · intro ref hc hclosed
      obtain ⟨hoff, hrem⟩ := hb.closed ref hc hclosed
      exact ⟨offList_step hoff hstep, hrem⟩
  · intro h hb h' hclose
    unfold Handled.closeStream at hclose
    split at hclose
    · cases hclose
      exact hb
    · next hstreamed =>
      split at hclose
      · cases hclose
      · cases hclose
        have htrue : h.output.streamResponse = true := by simpa using hstreamed
        refine ⟨knownBefore_deleteConnById hb.known _, ?_, fun _ _ he => (by cases he), ?_⟩
        · intro hc
          exact absurd (htrue.symm.trans (hb.without hc).1) (by simp)
        · intro ref hc _
          obtain ⟨hid, hopen, hrem⟩ := hb.streamed ref hc htrue
          obtain ⟨hdeleted, _, hoff⟩ := hopen.deleteConnById
          rw [hid]
          refine ⟨hoff, ?_⟩
          change (streamingDeleteConnById h.streams _).2.2.toList ++ h.removed = [ref]
          rw [hdeleted, hrem]
          rfl
  · intro h hb output hsame
    refine ⟨hb.known, ?_, ?_, ?_⟩
    · exact fun hc => ⟨hsame.trans (hb.without hc).1, (hb.without hc).2⟩
    · exact fun ref hc he => hb.streamed ref hc (hsame.symm.trans he)
    · exact fun ref hc he => hb.closed ref hc (hsame.symm.trans he)

/-- Where nothing else goes on, the records that were listed before stay listed. -/
theorem listed_kept (hs : KnownBefore s) (hout : output.streamResponse = false)
    (halone : meanwhile.actions = []) :
    KeptBy codec meanwhile connection (Handled.start s output) fun h =>
      Bookkept connection s.lastIdAssigned h ∧
        ∀ ref ∈ s.connectionsList, ref ∈ h.streams.connectionsList ∧ h.created ≠ some ref := by
  have hb := @bookkept C M N _ codec meanwhile s connection output hs hout
    (by rw [halone]; exact fun _ ha => absurd ha (by simp))
  refine ⟨⟨hb.start, fun ref hmem => ⟨hmem, by simp [Handled.start]⟩⟩, ?_, ?_, ?_, ?_⟩
  · intro info h hcreate
    refine ⟨hb.create info h hcreate, fun ref hmem => ?_⟩
    unfold Handled.createConn at hcreate
    split at hcreate
    · cases hcreate
      exact ⟨hmem, by simp [Handled.start]⟩
    · split at hcreate
      · cases hcreate
      · cases hcreate
        refine ⟨List.mem_cons_of_mem _ hmem, fun he => ?_⟩
        have hlt := hs ref (Or.inl hmem)
        rw [← Option.some.inj he] at hlt
        exact Nat.lt_irrefl _ hlt
  · intro h _ a ha
    rw [halone] at ha
    cases ha
  · rintro h ⟨hbook, hlisted⟩ h' hclose
    refine ⟨hb.close h hbook h' hclose, fun ref hmem => ?_⟩
    obtain ⟨hin, hne⟩ := hlisted ref hmem
    unfold Handled.closeStream at hclose
    split at hclose
    · cases hclose
      exact ⟨hin, hne⟩
    · next hstreamed =>
      split at hclose
      · cases hclose
      · cases hclose
        have htrue : h.output.streamResponse = true := by simpa using hstreamed
        refine ⟨?_, hne⟩
        cases hc : h.created with
        | none => exact absurd (htrue.symm.trans (hbook.without hc).1) (by simp)
        | some r =>
          obtain ⟨hid, hopen, _⟩ := hbook.streamed r hc htrue
          have hlist := hopen.deleteConnById.2.1
          rw [← hid] at hlist
          change ref ∈ (streamingDeleteConnById h.streams h.streamingId).1.connectionsList
          rw [hlist]
          exact (List.mem_erase_of_ne fun he => hne (by rw [hc, he])).mpr hin
  · rintro h ⟨hbook, hlisted⟩ output hsame
    exact ⟨hb.output h hbook output hsame, hlisted⟩

theorem knownBefore_kept (hs : KnownBefore s) :
    KeptBy codec meanwhile connection (Handled.start s output) fun h => KnownBefore h.streams := by
  refine ⟨hs, ?_, fun h hk a _ streams o => knownBefore_step hk, ?_, fun _ hk _ _ => hk⟩
  · intro info h hcreate
    unfold Handled.createConn at hcreate
    split at hcreate
    · cases hcreate
      exact hs
    · split at hcreate
      · cases hcreate
      · cases hcreate
        exact knownBefore_createConn hs connection info.outputDesc
  · intro h hk h' hclose
    unfold Handled.closeStream at hclose
    split at hclose
    · cases hclose
      exact hk
    · split at hclose
      · cases hclose
      · cases hclose
        exact knownBefore_deleteConnById hk _

/-- The states of the streams that the streaming server, the web server and the requests
lead to. -/
inductive StreamsReached (codec : ProxyCodec M N) (env : Environment V) : StreamState C M → Prop
  | init : StreamsReached codec env streamInit
  | step {s s' : StreamState C M} {a : StreamAction C} {o : List (StreamEvent C)}
      (h : StreamsReached codec env s) (hs : streamStep codec.stream s a = some (s', o)) :
      StreamsReached codec env s'
  | request {s : StreamState C M} {h : Handled C M} (hr : StreamsReached codec env s)
      (api : InputMessage V → Bool × Option N) (meanwhile : Meanwhile C) (connection : C)
      (input : Input) (output : Output)
      (he : cmsgProxy codec env api meanwhile s connection input output = some h) :
      StreamsReached codec env h.streams

theorem StreamsReached.known (h : StreamsReached codec env s) : KnownBefore s := by
  induction h with
  | init =>
    rintro ref (hmem | ⟨_, hh, _⟩ | ⟨_, ht, _⟩)
    · cases hmem
    · cases hh
    · cases ht
  | step _ hs ih => exact knownBefore_step ih hs
  | request _ _ _ _ _ _ he ih => exact (knownBefore_kept ih).cmsgProxy he

/-- **The bookkeeping of streams.** When a request returns, the record that was made for
it is listed exactly where the response is to be streamed, and no other record was taken
off the list by the request. -/
theorem stream_bookkeeping (hs : StreamsReached codec env s) (hout : output.streamResponse = false)
    (hspares : ∀ a ∈ meanwhile.actions, a.Spares connection s.lastIdAssigned)
    (he : cmsgProxy codec env api meanwhile s connection input output = some h) :
    ((∃ ref, h.created = some ref ∧ ref ∈ h.streams.connectionsList) ↔
        h.output.streamResponse = true) ∧
      (∀ ref ∈ h.removed, h.created = some ref) ∧
      (meanwhile.actions = [] →
        ∀ ref ∈ s.connectionsList, ref ∈ h.streams.connectionsList) := by
  rw [← and_assoc]
  refine ⟨?_, fun halone ref hmem =>
    (((listed_kept hs.known hout halone).cmsgProxy he).2 ref hmem).1⟩
  have hb := (bookkept hs.known hout hspares).cmsgProxy he
  cases hc : h.created with
  | none =>
    obtain ⟨hfalse, hrem⟩ := hb.without hc
    simp [hfalse, hrem]
  | some ref =>
    cases hstream : h.output.streamResponse with
    | true =>
      obtain ⟨_, hopen, hrem⟩ := hb.streamed ref hc hstream
      obtain ⟨rest, hlist, _⟩ := hopen.listed
      simp [hrem, hlist]
    | false =>
      obtain ⟨hoff, hrem⟩ := hb.closed ref hc hstream
      simp [hrem, hoff.1]

end

/-- An API that streams its items. -/
def watchItems : ServiceInfo :=
  { serviceName := cstr "items"
    inputDesc := ⟨cstr "watch", [⟨cstr "_streaming_id", .optional, .uint32⟩], by decide⟩
    outputDesc := streamedItem
    urlString := cstr "/watch"
    httpVerb := .get
    bodyString := [] }

def watchEnvironment : Environment Json := { itemsEnvironment with tree := loadedTree [watchItems] }

/-- The APIs return a code. -/
def watchCodec : ProxyCodec Unit Int :=
  { stream := itemCodec
    output :=
      { descriptor := fun _ => ⟨cstr "ant_result", [], noFields_distinct⟩
        errorInfo := fun _ => none
        code := some
        dropErrorInfo := id
        body := fun _ => none
        protobuf2jsonObject := fun code => some [(cstr "code", .int code)]
        antResultObject := fun code _ => some [(cstr "code", .int code)]
        jsonDumps := fun _ => none }
    index := fun _ => none }

def watchRequest : Input := { itemsRequest none with url := cstr "/watch" }

/-- The implementation sets the headers of the stream while it is called. -/
def setsHeaders : Meanwhile Nat :=
  { converting := []
    calling := [.call (.setStreamHeaders 0 .json none), .handlerStep false, .handlerStep false]
    returning := [.handlerStep false, .handlerStep false] }

def unsetOutput : Output :=
  { responseBody := none, responseLength := 0, mimeType := [], streamResponse := false,
    httpStatus := 0 }

theorem spares_setsHeaders (connection id : Nat) :
    ∀ a ∈ setsHeaders.actions, a.Spares connection id := by
  simp only [Meanwhile.actions, setsHeaders, List.nil_append, List.cons_append,
    List.forall_mem_cons]
  exact ⟨fun _ => rfl, trivial, trivial, trivial, trivial, fun _ h => absurd h (by simp)⟩

/-- The API accepts the request, or it refuses it. -/
theorem stream_bookkeeping_watch :
    (∃ h, cmsgProxy watchCodec watchEnvironment (fun _ => (true, some 0)) setsHeaders streamInit 7
        watchRequest unsetOutput = some h ∧
      ∃ ref, h.created = some ref ∧ ref ∈ h.streams.connectionsList) ∧
    ∃ h, cmsgProxy watchCodec watchEnvironment (fun _ => (true, some 7)) setsHeaders streamInit 7
        watchRequest unsetOutput = some h ∧
      ¬ ∃ ref, h.created = some ref ∧ ref ∈ h.streams.connectionsList := by
  refine ⟨⟨_, rfl, ?_⟩, ⟨_, rfl, ?_⟩⟩
  · exact (@stream_bookkeeping _ _ _ _ _ watchCodec watchEnvironment (fun _ => (true, some 0))
      setsHeaders streamInit 7 watchRequest unsetOutput _ .init rfl (spares_setsHeaders _ _)
      rfl).1.mpr rfl
  · have hiff := (@stream_bookkeeping _ _ _ _ _ watchCodec watchEnvironment
      (fun _ => (true, some 7)) setsHeaders streamInit 7 watchRequest unsetOutput _ .init rfl
      (spares_setsHeaders _ _) rfl).1
    exact fun h => Bool.noConfusion (hiff.mp h)

/-- The connection times out during the call. -/
def timesOut : Meanwhile Nat :=
  { converting := []
    calling := [.connTimeout 7, .timeoutStep, .timeoutStep, .timeoutStep]
    returning := [] }

/-- Nobody closes or aborts the stream, and yet it is gone when the request returns. -/
theorem stream_lost_by_timeout : ∃ h,
    cmsgProxy watchCodec watchEnvironment (fun _ => (true, some 0)) timesOut streamInit 7
        watchRequest unsetOutput = some h ∧
      (∀ a ∈ timesOut.actions, ∀ c, a ≠ .call c) ∧ h.created = some 0 ∧
      h.output.streamResponse = true ∧ 0 ∉ h.streams.connectionsList := by
  refine ⟨_, rfl, ?_, rfl, rfl, ?_⟩
  · intro a ha c he
    subst he
    simp [Meanwhile.actions, timesOut] at ha
  · exact List.not_mem_nil

end Cmsg.Proxy
