import Cmsg.Protoc.ValidationMeaning
import Cmsg.Server.Dispatch

/-! # Validation on the server

A method with the `auto_validation` option has the validation function of its
input in the table of its service. `cmsg_server_invoke_impl` calls it before the
implementation, whether the request comes straight from the connection or from
the receive queue, and answers invalid input itself. -/
namespace Cmsg.Protoc
open Cmsg.Base Cmsg.Base.Runs Cmsg.Server
open Cmsg.Proxy (cstr)

/-! ## Error responses -/

/-- `ant_result` -/
structure AntResult where
  code : Int
  message : Option CString
deriving DecidableEq, Repr

/-- A message with an `ant_result` in it: one of its own, or as `_error_info`. -/
inductive AntResponse
  | antResult (result : AntResult)
  | errorInfo (result : AntResult)
deriving DecidableEq, Repr

/-- What is looked at in the descriptor of an output message. -/
structure OutputDescriptor where
  name : CString
  hasErrorInfo : Bool
deriving DecidableEq, Repr

def antCodeOk : Int := 0

def antCodeInvalidArgument : Int := 3

/-- `cmsg_create_ant_response` -/
def createAntResponse (message : Option CString) (code : Int) (outputDesc : OutputDescriptor) :
    Option AntResponse :=
  if outputDesc.name = cstr "ant_result" then some (.antResult ⟨code, message⟩)
  else if outputDesc.hasErrorInfo then some (.errorInfo ⟨code, message⟩)
  else none

/-! ## Generated services -/

/-- `MethodDescriptor` -/
structure MethodDescriptor (S : Schema) where
  name : CString
  inputType : Fin S.n
  output : OutputDescriptor
  fileResponse : Bool
  autoValidation : Bool

/-- What generated code is linked with: the platform, packing and unpacking, and
the implementations of the application. -/
structure Application (S : Schema) where
  env : Platform
  pack : AntResponse → Response
  unpack : Fin S.n → List UInt8 → Option Value
  impl : CString → Value → Option Response

variable {S : Schema}

/-- What a C string function sees of an array. -/
def cString (buf : List UInt8) : CString := buf.takeWhile (· != 0)

/-- `cmsg_service_input_valid`; `errStr` is what the array on the stack holds
before. A program with the function missing does not link. -/
def serviceInputValid (app : Application S) (errStr : Vector UInt8 512) (m : MethodDescriptor S)
    (input : Value) : Validation :=
  match callFunction app.env (generateValidationDefinitions S) input (validateName S m.inputType)
      (some errStr.toList) with
  | some (true, _) => .valid
  | some (false, some buf) =>
    .invalid ((createAntResponse (some (cString buf)) antCodeInvalidArgument m.output).map app.pack)
  | _ => .invalid none

/-- `GenerateAtlServerImplPtr` and `GenerateAtlServerMethodExtensions` for one method. -/
def generateMethod (app : Application S) (errStr : Vector UInt8 512) (m : MethodDescriptor S) :
    Method Value where
  name := m.name
  unpack := app.unpack m.inputType
  validationFunc := if m.autoValidation then some (serviceInputValid app errStr m) else none
  implFunc := if m.fileResponse then none else some (app.impl m.name)

/-- The table that `GenerateAtlServerImplementation` writes. -/
def generateImplInfo (app : Application S) (errStr : Vector UInt8 512)
    (ms : List (MethodDescriptor S)) : List (Method Value) :=
  ms.map (generateMethod app errStr)

/-! ## What the validation of an input says -/

theorem takeWhile_append_stop {α : Type _} {p : α → Bool} {a : α} (ha : p a = false)
    (l r : List α) :
    (l ++ a :: r).takeWhile p = l.takeWhile p := by
  induction l with
  | nil => simp [ha]
  | cons b l ih =>
    rw [List.cons_append, List.takeWhile_cons, List.takeWhile_cons, ih]

/-- What can be read back is the text as far as there is room for it. -/
theorem cString_snprintf {text : CString} {buf : List UInt8} {n : Nat} (hn : buf.length = n + 1) :
    cString (snprintf text buf) = cString (text.take n) := by
  simp only [cString, snprintf, hn, List.append_assoc, List.cons_append, List.nil_append]
  exact takeWhile_append_stop rfl _ _

/-- A method whose input has a validation function that the C compiler finds. -/
def Checkable (m : MethodDescriptor S) : Prop :=
  (S.descriptor m.inputType).nested = false ∧ messageHasValidation S m.inputType = true

variable {app : Application S} {errStr : Vector UInt8 512} {m : MethodDescriptor S} {input : Value}

/-- The exact outcome for a message of the input type. -/
theorem serviceInputValid_cases (app : Application S) (errStr : Vector UInt8 512)
    (hS : WellFormed S) (hm : Checkable m) (hinput : Conforms S input m.inputType) :
    (Valid app.env S input m.inputType ∧ serviceInputValid app errStr m input = .valid) ∨
      ∃ text, FirstFailure app.env S input m.inputType text ∧
        serviceInputValid app errStr m input = .invalid ((createAntResponse
          (some (cString (snprintf text errStr.toList))) antCodeInvalidArgument m.output).map
            app.pack) := by
  have hd : Decided app.env S input m.inputType (some errStr.toList) _ :=
    callFunction_decided hS hm.1 hm.2 hinput (some errStr.toList)
  refine hd.imp ?_ ?_
  · intro h
    exact ⟨h.1, by rw [serviceInputValid, h.2]⟩
  · intro h
    obtain ⟨text, hfirst, hrun⟩ := h
    exact ⟨text, hfirst, by rw [serviceInputValid, hrun, Option.map_some]⟩

theorem valid_of_serviceInputValid (hS : WellFormed S) (hm : Checkable m)
    (hinput : Conforms S input m.inputType)
    (h : serviceInputValid app errStr m input = .valid) : Valid app.env S input m.inputType := by
  cases serviceInputValid_cases app errStr hS hm hinput with
  | inl hv => exact hv.1
  | inr hi =>
    obtain ⟨_, _, he⟩ := hi
    rw [h] at he
    cases he

/-! ## What a server invokes -/

section Invoked

variable {Msg : Type} {svc : Service Msg}

/-- A call of an implementation that some received request asked for, with a
message that the validation function lets through. -/
def Called (svc : Service Msg) (ops : List (Op svc)) (call : Nat × Msg) : Prop :=
  call ∈ received ops ∧ ∃ i : Fin svc.nMethods, i.val = call.1 ∧ callable svc i call.2 = true

/-- What is queued has been received, and so has what was called. -/
structure Accounted (s : State svc) (ops : List (Op svc)) (events : List (Event Msg)) : Prop where
  queued : ∀ e ∈ s.queue, e.call ∈ received ops
  called : ∀ call ∈ invocations events, Called svc ops call

theorem received_append (xs ys : List (Op svc)) :
    received (xs ++ ys) = received xs ++ received ys := List.filterMap_append

theorem Called.append {ops : List (Op svc)} {call : Nat × Msg} (h : Called svc ops call)
    (more : List (Op svc)) : Called svc (ops ++ more) call :=
  ⟨by rw [received_append]; exact List.mem_append_left _ h.1, h.2⟩

theorem mem_invocations_serverInvokeImpl {i : Fin svc.nMethods} {message : Msg}
    {closure : Option Response → List (Event Msg)} (hc : ∀ r, invocations (closure r) = [])
    {call : Nat × Msg} (h : call ∈ invocations (serverInvokeImpl svc i message closure)) :
    call = (i.val, message) ∧ callable svc i message = true := by
  rw [invocations_serverInvokeImpl_eq i message hc] at h
  cases hcall : callable svc i message with
  | false =>
    rw [hcall] at h
    exact absurd h List.not_mem_nil
  | true =>
    rw [hcall] at h
    exact ⟨List.mem_singleton.mp h, rfl⟩

theorem mem_invocations_invokeEntries {queue : List (QueueEntry svc)} {call : Nat × Msg}
    (h : call ∈ invocations (invokeEntries queue)) :
    ∃ e ∈ queue, call = e.call ∧ callable svc e.methodIndex e.message = true := by
  induction queue with
  | nil => exact absurd h List.not_mem_nil
  | cons e queue ih =>
    rw [invokeEntries, List.flatMap_cons, invocations_append] at h
    cases List.mem_append.mp h with
    | inl h =>
      obtain ⟨hcall, hok⟩ := mem_invocations_serverInvokeImpl (fun _ => rfl) h
      exact ⟨e, by simp, hcall, hok⟩
    | inr h =>
      obtain ⟨e', he', hcall⟩ := ih h
      exact ⟨e', by simp [he'], hcall⟩

theorem accounted_receive {s : State svc} {ops : List (Op svc)} {events : List (Event Msg)}
    (h : Accounted s ops events) (r : Request svc) :
    Accounted (serverStep s (.receive r)).1 (ops ++ [.receive r])
      (events ++ (serverStep s (.receive r)).2) := by
  have hr : (r.methodIndex.val, r.message) ∈ received (ops ++ [Op.receive r]) := by
    simp [received]
  constructor
  · intro e he
    have hcases : e ∈ s.queue ∨ e = ⟨r.methodIndex, r.message⟩ := by
      rw [receive_state] at he
      split at he
      · unfold receiveQueuePush at he
        split at he
        · simpa using he
        · exact .inl he
      · exact .inl he
    cases hcases with
    | inl hold =>
      rw [received_append]
      exact List.mem_append_left _ (h.queued e hold)
    | inr hnew =>
      rw [hnew]
      exact hr
  · intro call hcall
    rw [invocations_append] at hcall
    cases List.mem_append.mp hcall with
    | inl hold => exact (h.called call hold).append _
    | inr hnew =>
      rw [receive_events] at hnew
      cases hf : queueFilterLookup s.filters r.methodName with
      | process =>
        rw [hf] at hnew
        obtain ⟨rfl, hok⟩ := mem_invocations_serverInvokeImpl
          (invocations_closure s .okToInvoke r.methodNameRecvd r.calloc) hnew
        exact ⟨hr, r.methodIndex, rfl, hok⟩
      | queue | drop =>
        rw [hf] at hnew
        simp only [invocations_closure] at hnew
        exact absurd hnew List.not_mem_nil
      | error =>
        rw [hf] at hnew
        exact absurd hnew List.not_mem_nil

theorem accounted_step {s : State svc} {ops : List (Op svc)} {events : List (Event Msg)}
    (h : Accounted s ops events) (op : Op svc) :
    Accounted (serverStep s op).1 (ops ++ [op]) (events ++ (serverStep s op).2) := by
  by_cases hop : ∃ r, op = .receive r
  · obtain ⟨r, rfl⟩ := hop
    exact accounted_receive h r
  · obtain ⟨k, hqueue, hevents⟩ := serverStep_takes s op fun r hr => hop ⟨r, hr⟩
    constructor
    · intro e he
      rw [hqueue] at he
      rw [received_append]
      exact List.mem_append_left _ (h.queued e (List.mem_of_mem_drop he))
    · intro call hcall
      rw [invocations_append, hevents] at hcall
      cases List.mem_append.mp hcall with
      | inl hold => exact (h.called call hold).append _
      | inr hnew =>
        obtain ⟨e, he, rfl, hok⟩ := mem_invocations_invokeEntries hnew
        have hq := h.queued e (List.mem_of_mem_take he)
        exact ⟨by rw [received_append]; exact List.mem_append_left _ hq, e.methodIndex, rfl, hok⟩

/-- Over a whole run, every call was asked for and passed validation. -/
theorem exec_accounted {rpc : Bool} {ops : List (Op svc)} {s : State svc}
    {events : List (Event Msg)} (h : exec step (serverCreate svc rpc) ops = some (s, events)) :
    Accounted s ops events := by
  refine exec_track (R := Accounted) (fun s ops events op s' o hR hs => ?_) ?_ h
  · have hstep := step_eq_some.mp hs
    have hkeep := accounted_step hR op
    rw [hstep] at hkeep
    exact hkeep
  · exact ⟨by simp [serverCreate], by simp [invocations]⟩

end Invoked

/-! ## No invalid message reaches an implementation -/

/-- A service whose table the generator wrote: every automatically validated
method has an input that can be checked. -/
structure Generated (app : Application S) (errStr : Vector UInt8 512)
    (ms : List (MethodDescriptor S)) (svc : Service Value) : Prop where
  wellFormed : WellFormed S
  table : svc.methods = generateImplInfo app errStr ms
  checkable : ∀ m ∈ ms, m.autoValidation = true → Checkable m

variable {ms : List (MethodDescriptor S)} {svc : Service Value}

theorem Generated.length (h : Generated app errStr ms svc) : svc.nMethods = ms.length := by
  simp [Service.nMethods, h.table, generateImplInfo]

/-- The descriptor of a method. -/
def Generated.descriptor (h : Generated app errStr ms svc) (i : Fin svc.nMethods) :
    MethodDescriptor S := ms.get (i.cast h.length)

theorem get_congr {α : Type _} {l l' : List α} (h : l = l') (i : Fin l.length) :
    l.get i = l'.get (i.cast (congrArg List.length h)) := by
  subst h
  rfl

theorem Generated.get (h : Generated app errStr ms svc) (i : Fin svc.nMethods) :
    svc.methods.get i = generateMethod app errStr (h.descriptor i) := by
  refine (get_congr h.table i).trans ?_
  simp only [generateImplInfo, List.get_eq_getElem, List.getElem_map, Generated.descriptor]
  rfl

/-- The requests that arrive have messages of the input types of their methods. -/
def Typed (h : Generated app errStr ms svc) (ops : List (Op svc)) : Prop :=
  ∀ r : Request svc, .receive r ∈ ops →
    Conforms S r.message (h.descriptor r.methodIndex).inputType

theorem Generated.callable (h : Generated app errStr ms svc) {i : Fin svc.nMethods}
    (hauto : (h.descriptor i).autoValidation = true) {message : Value}
    (hcall : Server.callable svc i message = true) :
    serviceInputValid app errStr (h.descriptor i) message = .valid := by
  simp only [Server.callable, h.get, generateMethod, hauto, if_true, Bool.and_eq_true] at hcall
  cases hv : serviceInputValid app errStr (h.descriptor i) message with
  | valid => rfl
  | invalid _ =>
    rw [hv] at hcall
    exact absurd hcall.2 (by simp)

/-- What the closure is given for invalid input: the first constraint that fails,
as far as the array has room for it. -/
theorem Generated.invoke_invalid (h : Generated app errStr ms svc) {i : Fin svc.nMethods}
    (hauto : (h.descriptor i).autoValidation = true) {message : Value}
    (hm : Conforms S message (h.descriptor i).inputType)
    (hinvalid : ¬ Valid app.env S message (h.descriptor i).inputType)
    (closure : Option Response → List (Event Value)) :
    ∃ text, FirstFailure app.env S message (h.descriptor i).inputType text ∧
      serverInvokeImpl svc i message closure =
        closure ((createAntResponse (some (cString (snprintf text errStr.toList)))
          antCodeInvalidArgument (h.descriptor i).output).map app.pack) := by
  have hcheck : Checkable (h.descriptor i) := h.checkable _ (List.get_mem _ _) hauto
  cases serviceInputValid_cases app errStr h.wellFormed hcheck hm with
  | inl hv => exact absurd hv.1 hinvalid
  | inr hi =>
    obtain ⟨text, hfirst, he⟩ := hi
    refine ⟨text, hfirst, ?_⟩
    simp only [serverInvokeImpl, h.get, generateMethod, hauto, if_true, he]

/-- A server never hands an invalid message to the implementation of a method
with automatic validation, however its queue and filters are used in between;
and to a request that it processes at once with such a message it answers with
`ANT_CODE_INVALID_ARGUMENT` and the first 511 bytes of the text of the first
constraint that fails. -/
theorem auto_validation_guards (h : Generated app errStr ms svc) {ops : List (Op svc)}
    (htyped : Typed h ops) {s : State svc} {events : List (Event Value)}
    (hrun : exec step (serverCreate svc true) ops = some (s, events)) :
    (∀ i : Fin svc.nMethods, (h.descriptor i).autoValidation = true → ∀ message,
      .invoked i.val message ∈ events →
        Valid app.env S message (h.descriptor i).inputType) ∧
    ∀ r : Request svc, Conforms S r.message (h.descriptor r.methodIndex).inputType →
      (h.descriptor r.methodIndex).autoValidation = true →
      queueFilterLookup s.filters r.methodName = .process →
      ¬ Valid app.env S r.message (h.descriptor r.methodIndex).inputType →
      ∃ text, FirstFailure app.env S r.message (h.descriptor r.methodIndex).inputType text ∧
        (serverStep s (.receive r)).2 = closure s .okToInvoke r.methodNameRecvd r.calloc
          ((createAntResponse (some (cString (text.take 511))) antCodeInvalidArgument
            (h.descriptor r.methodIndex).output).map app.pack) := by
  constructor
  · intro i hauto message hinvoked
    have hcall : (i.val, message) ∈ invocations events :=
      List.mem_filterMap.mpr ⟨_, hinvoked, rfl⟩
    obtain ⟨hreceived, j, hj, hok⟩ := (exec_accounted hrun).called _ hcall
    cases Fin.ext hj
    obtain ⟨op, hop, hsome⟩ := List.mem_filterMap.mp hreceived
    have hconf : Conforms S message (h.descriptor i).inputType := by
      cases op with
      | receive r =>
        simp only [Option.some.injEq, Prod.mk.injEq] at hsome
        cases Fin.ext hsome.1
        cases hsome.2
        exact htyped r hop
      | _ => cases hsome
    exact valid_of_serviceInputValid h.wellFormed (h.checkable _ (List.get_mem _ _) hauto) hconf
      (h.callable hauto hok)
  · intro r hconf hauto hprocess hinvalid
    obtain ⟨text, hfirst, hinvoke⟩ := h.invoke_invalid hauto hconf hinvalid
      (closure s .okToInvoke r.methodNameRecvd r.calloc)
    refine ⟨text, hfirst, ?_⟩
    have hlen : errStr.toList.length = 511 + 1 := by simp
    rw [receive_events, hprocess, hinvoke, cString_snprintf hlen]

/-! A service with one validated method, for tests. -/

def samplePing : MethodDescriptor sampleSchema :=
  ⟨cstr "ping", sampleType, ⟨cstr "ant_result", false⟩, false, true⟩

def sampleApplication : Application sampleSchema :=
  ⟨samplePlatform, fun _ => ⟨1, [3]⟩, fun _ _ => some sampleMessage, fun _ _ => some ⟨0, []⟩⟩

def validatedMethods : List (Method Value) :=
  generateImplInfo sampleApplication (Vector.replicate 512 0) [samplePing]

theorem validatedMethods_count : [0].length = validatedMethods.length := rfl

theorem validatedMethods_indices : ∀ i ∈ [0], i < validatedMethods.length := by
  intro i hi
  cases List.mem_singleton.mp hi
  exact Nat.one_pos

theorem validatedMethods_length : validatedMethods.length < Wire.undefinedMethod := by decide

theorem validatedMethods_names : ∀ m ∈ validatedMethods, ∀ c ∈ m.name, c ≠ 0 := by
  intro m hm
  cases List.mem_singleton.mp hm
  decide +kernel

def validatedService : Service Value where
  methods := validatedMethods
  methodIndicesByName := [0]
  indices_length := validatedMethods_count
  indices_lt := validatedMethods_indices
  methods_lt := validatedMethods_length
  name_ne_zero := validatedMethods_names

theorem validatedService_generated :
    Generated sampleApplication (Vector.replicate 512 0) [samplePing] validatedService where
  wellFormed := sampleSchema_wellFormed
  table := rfl
  checkable := by
    intro m hm _
    cases List.mem_singleton.mp hm
    exact ⟨rfl, by decide +kernel⟩

def pingRequest : Request validatedService :=
  ⟨⟨0, Nat.one_pos⟩, cstr "ping", sampleMessage, fun _ => true⟩

/-- The level of the message is above its bound. -/
theorem sampleMessage_invalid : ¬ Valid samplePlatform sampleSchema sampleMessage sampleType := by
  have hdecided : Decided samplePlatform sampleSchema sampleMessage sampleType none _ :=
    callFunction_decided sampleSchema_wellFormed rfl (by decide +kernel) sampleMessage_conforms none
  cases hdecided with
  | inl h => exact absurd h.2 (by decide +kernel)
  | inr h =>
    obtain ⟨text, hfirst, -⟩ := h
    exact hfirst.not_valid

/-- The request is refused with the text of the constraint on the level. -/
theorem auto_validation_guards_ping :
    (∀ i : Fin validatedService.nMethods,
      (validatedService_generated.descriptor i).autoValidation = true → ∀ message,
      .invoked i.val message ∈ (serverStep (serverCreate validatedService true)
          (.receive pingRequest)).2 ++ [] →
        Valid samplePlatform sampleSchema message
          (validatedService_generated.descriptor i).inputType) ∧
    ∃ text, FirstFailure samplePlatform sampleSchema sampleMessage sampleType text ∧
      (serverStep (serverStep (serverCreate validatedService true) (.receive pingRequest)).1
        (.receive pingRequest)).2 =
        closure (serverStep (serverCreate validatedService true) (.receive pingRequest)).1
          .okToInvoke (cstr "ping") (fun _ => true)
          ((createAntResponse (some (cString (text.take 511))) antCodeInvalidArgument
            ⟨cstr "ant_result", false⟩).map sampleApplication.pack) := by
  have htyped : Typed validatedService_generated [.receive pingRequest] := by
    intro r hr
    cases List.mem_singleton.mp hr
    exact sampleMessage_conforms
  obtain ⟨honly, hrefused⟩ := auto_validation_guards validatedService_generated htyped rfl
  exact ⟨honly, hrefused pingRequest sampleMessage_conforms rfl (by decide +kernel)
    sampleMessage_invalid⟩

end Cmsg.Protoc
