import Cmsg.Client.Composite
import Cmsg.Protoc.HttpProxy

/-! # Calling a generated API

An API function that the generator writes hands the client, the descriptor of the API and
the index of the method to `cmsg_api_invoke`. The options of the method decide whether
the server is asked at all: the response may come from a file, or be an error where the
service is not supported. Such a response is written through `recv_msg`, which the
generated function leaves null for an output without fields. -/
namespace Cmsg.Client
open Cmsg.Base Cmsg.Wire
open Cmsg.Proxy (MessageDescriptor cstr)
open Cmsg.Protoc.HttpProxy (ApiDescriptor MethodClientExtensions MethodDescriptor
  ServiceDescriptor ServiceSupportParameters generateAtlApiImplementation
  generateAtlApiMethodExtensionsPtr generateAtlApiServiceSupportCheck)

/-- What an API call works with: the file system, the building of messages, and
`service->invoke` of the client with what it leaves in the closure data. -/
structure ApiBackend (In Out : Type) where
  accessible : CString → Bool
  getMsgFromFile : MessageDescriptor → CString → Option Out
  createAntResponse : Option CString → Int → MessageDescriptor → Option Out
  messageInit : MessageDescriptor → In
  invoke : Nat → Option In → RetCode × Option Out
  nFields : Out → Nat

/-- How a call of `cmsg_api_invoke` ends. What it returns comes with what `recv_msg` then
points to, the messages freed and what was sent. -/
inductive ApiOutcome (In Out : Type)
  | returned (ret : RetCode) (recvMsg : Option Out) (freed : List Out)
      (sent : Option (Nat × Option In))
  /-- `CMSG_RET_ERR`, with `recv_msg` as it was -/
  | noClient
  | nullWrite
  | outOfBounds
  | assertionFailed

variable {In Out : Type}

/-- A response that is not received, written to `recv_msg[0]`. -/
def ApiOutcome.respond (hasRecvMsg : Bool) (ret : RetCode) (response : Option Out) :
    ApiOutcome In Out :=
  if hasRecvMsg then .returned ret response [] none else .nullWrite

/-- `cmsg_api_file_response` -/
def apiFileResponse (b : ApiBackend In Out) (filename : CString) (outputDesc : MessageDescriptor)
    (hasRecvMsg : Bool) : ApiOutcome In Out :=
  if b.accessible filename then
    let response := b.getMsgFromFile outputDesc filename
    .respond hasRecvMsg (if response.isSome then .ok else .err) response
  else .respond hasRecvMsg .ok (b.createAntResponse none 0 outputDesc)

/-- `cmsg_api_process_closure_data` after a single client, which uses the first entry only:
what `recv_msg` then points to and what was freed, unless a null pointer was written to. -/
def apiProcessClosureData (nFields : Out → Nat) (message : Option Out) (hasRecvMsg : Bool) :
    Option (Option Out × List Out) :=
  let r := processClosureLoop nFields (fun i => if i = 0 then message else none)
    cmsgRecvArraySize 0
  if r.1.isEmpty || hasRecvMsg then some (r.1.head?.map (·.2), r.2.1) else none

/-- A message without fields stands in for one that is not there, where the input has none. -/
def sentMessage (b : ApiBackend In Out) (inputDesc : MessageDescriptor) (sendMsg : Option In) :
    Option In :=
  match sendMsg with
  | some msg => some msg
  | none => if inputDesc.fields.length = 0 then some (b.messageInit inputDesc) else none

/-- The last part of `cmsg_api_invoke`, the call of the client. -/
def apiSend (b : ApiBackend In Out) (methodIndex : Nat) (inputDesc : MessageDescriptor)
    (sendMsg : Option In) (hasRecvMsg : Bool) : ApiOutcome In Out :=
  let sent := sentMessage b inputDesc sendMsg
  match apiProcessClosureData b.nFields (b.invoke methodIndex sent).2 hasRecvMsg with
  | some (recvMsg, freed) =>
    .returned (b.invoke methodIndex sent).1 recvMsg freed (some (methodIndex, sent))
  | none => .nullWrite

/-- `cmsg_api_invoke` of a single client, given by the name of its service if there is
one. A `recv_msg` that is there is reset to null first. -/
def cmsgApiInvoke (b : ApiBackend In Out) (client : Option CString) (cmsgDesc : ApiDescriptor)
    (methodIndex : Nat) (sendMsg : Option In) (hasRecvMsg : Bool) : ApiOutcome In Out :=
  match cmsgDesc.methodExtensions[methodIndex]?, cmsgDesc.serviceDesc.methods[methodIndex]? with
  | some extensions, some method =>
    match client with
    | none => .noClient
    | some name =>
      if name ≠ cmsgDesc.serviceDesc.fullName then .assertionFailed
      else
        match extensions with
        | none => apiSend b methodIndex method.inputType sendMsg hasRecvMsg
        | some ext =>
          match ext.responseFilename, ext.serviceSupport with
          | some filename, _ => apiFileResponse b filename method.outputType hasRecvMsg
          | none, some check =>
            if b.accessible check.filename then
              apiSend b methodIndex method.inputType sendMsg hasRecvMsg
            else
              .respond hasRecvMsg .ok
                (b.createAntResponse (some check.msg) check.returnCode method.outputType)
          | none, none => apiSend b methodIndex method.inputType sendMsg hasRecvMsg
  | _, _ => .outOfBounds

/-- The function that `GenerateAtlApiDefinition` writes for a method. It has no argument
for an input or an output without fields. -/
def generatedApi (b : ApiBackend In Out) (client : Option CString) (cmsgDesc : ApiDescriptor)
    (m : MethodDescriptor) (index : Nat) (sendMsg : In) : ApiOutcome In Out :=
  cmsgApiInvoke b client cmsgDesc index
    (if m.inputType.fields.length > 0 then some sendMsg else none)
    (decide (m.outputType.fields.length > 0))

/-! ## What answers a call -/

/-- What answers a call of a method. -/
inductive Source
  | file (filename : CString)
  | unsupported (check : ServiceSupportParameters)
  | server

/-- The options of the service and the method decide, and the file that says whether the
service is supported. -/
def source (accessible : CString → Bool) (s : ServiceDescriptor) (m : MethodDescriptor) :
    Source :=
  match m.fileResponse with
  | some filename => .file filename
  | none =>
    match s.serviceSupportCheck.bind generateAtlApiServiceSupportCheck with
    | none => .server
    | some check =>
      if m.disableServiceSupportCheck || accessible check.filename then .server
      else .unsupported check

/-- What the source of a method answers, with the arguments of `cmsg_api_invoke`. -/
def answer (b : ApiBackend In Out) (s : ServiceDescriptor) (m : MethodDescriptor) (index : Nat)
    (sendMsg : Option In) (hasRecvMsg : Bool) : ApiOutcome In Out :=
  match source b.accessible s m with
  | .file filename => apiFileResponse b filename m.outputType hasRecvMsg
  | .unsupported check =>
    .respond hasRecvMsg .ok (b.createAntResponse (some check.msg) check.returnCode m.outputType)
  | .server => apiSend b index m.inputType sendMsg hasRecvMsg

section
variable {b : ApiBackend In Out} {s : ServiceDescriptor} {m : MethodDescriptor} {index : Nat}
variable {api : ApiDescriptor}

/-- The extensions of a method in the generated table. -/
theorem generated_extensions (hapi : generateAtlApiImplementation s = some api)
    (hm : s.methods[index]? = some m) :
    api.serviceDesc = s ∧ api.methodExtensions[index]? = some (generateAtlApiMethodExtensionsPtr
      (s.serviceSupportCheck.bind generateAtlApiServiceSupportCheck) m) := by
  unfold generateAtlApiImplementation at hapi
  cases hcheck : s.serviceSupportCheck with
  | none =>
    rw [hcheck] at hapi
    cases hapi
    exact ⟨rfl, by rw [List.getElem?_map, hm]; rfl⟩
  | some info =>
    rw [hcheck] at hapi
    obtain ⟨check, hgen, rfl⟩ := Option.map_eq_some_iff.mp hapi
    exact ⟨rfl, by rw [List.getElem?_map, hm, Option.bind_some, hgen]; rfl⟩

/-- With a client of its service, the API of a method is answered by its source. -/
theorem cmsgApiInvoke_generated (hapi : generateAtlApiImplementation s = some api)
    (hm : s.methods[index]? = some m) (sendMsg : Option In) (hasRecvMsg : Bool) :
    cmsgApiInvoke b (some s.fullName) api index sendMsg hasRecvMsg =
      answer b s m index sendMsg hasRecvMsg := by
  obtain ⟨hdesc, hext⟩ := generated_extensions hapi hm
  unfold cmsgApiInvoke answer source
  rw [hdesc, hext, hm]
  dsimp only
  rw [if_neg (fun h => h rfl)]
  unfold generateAtlApiMethodExtensionsPtr
  cases m.fileResponse with
  | some filename => rfl
  | none =>
    cases s.serviceSupportCheck.bind generateAtlApiServiceSupportCheck with
    | none => rfl
    | some check =>
      dsimp only
      cases m.disableServiceSupportCheck with
      | true => rfl
      | false =>
        cases hacc : b.accessible check.filename with
        | true => simp [hacc]
        | false => simp [hacc]

/-- A message is handed on where it has fields, and freed where not. -/
theorem apiProcessClosureData_eq (nFields : Out → Nat) (message : Option Out) (hasRecvMsg : Bool)
    (htype : ∀ out ∈ message, hasRecvMsg = false → nFields out = 0) :
    ∃ recvMsg freed, apiProcessClosureData nFields message hasRecvMsg = some (recvMsg, freed) ∧
      message.toList = recvMsg.toList ++ freed := by
  cases message with
  | none =>
    exact ⟨none, [], by simp [apiProcessClosureData, processClosureLoop, cmsgRecvArraySize], rfl⟩
  | some out =>
    cases hn : nFields out with
    | zero =>
      refine ⟨none, [out], ?_, rfl⟩
      simp [apiProcessClosureData, processClosureLoop, cmsgRecvArraySize, cmsgMaxClients, hn]
    | succ n =>
      have hptr : hasRecvMsg = true := by
        by_contra hnull
        have := htype out rfl (by simpa using hnull)
        omega
      refine ⟨some out, [], ?_, rfl⟩
      simp [apiProcessClosureData, processClosureLoop, cmsgRecvArraySize, cmsgMaxClients, hn, hptr]

end

/-- What is guaranteed of a call that was answered by the source. -/
structure Answers (b : ApiBackend In Out) (m : MethodDescriptor) (index : Nat) (source : Source)
    (outcome : ApiOutcome In Out) : Prop where
  nullWrite : outcome = .nullWrite ↔ m.outputType.fields = [] ∧ source ≠ .server
  returned : outcome ≠ .nullWrite → ∃ ret recvMsg freed sent,
    outcome = .returned ret recvMsg freed sent ∧
      ((source = .server ∧ ∃ msg, sent = some (index, msg) ∧ (b.invoke index msg).1 = ret ∧
          (b.invoke index msg).2.toList = recvMsg.toList ++ freed) ∨
        (source ≠ .server ∧ sent = none ∧ freed = []))

section
variable {b : ApiBackend In Out} {m : MethodDescriptor} {index : Nat}

theorem hasRecvMsg_eq_false :
    decide (m.outputType.fields.length > 0) = false ↔ m.outputType.fields = [] := by
  simp

theorem answers_respond {source : Source} (hsource : source ≠ .server) (ret : RetCode)
    (response : Option Out) : Answers b m index source
      (.respond (decide (m.outputType.fields.length > 0)) ret response) := by
  unfold ApiOutcome.respond
  cases hptr : decide (m.outputType.fields.length > 0) with
  | true =>
    have hfields : m.outputType.fields ≠ [] := fun h => by
      rw [hasRecvMsg_eq_false.mpr h] at hptr
      cases hptr
    exact ⟨by simp [hfields], fun _ => ⟨ret, response, [], none, rfl, .inr ⟨hsource, rfl, rfl⟩⟩⟩
  | false =>
    have hfields := hasRecvMsg_eq_false.mp hptr
    exact ⟨by simp [hfields, hsource], fun h => absurd rfl h⟩

theorem answers_send (htype : ∀ sent out, (b.invoke index sent).2 = some out →
      b.nFields out = m.outputType.fields.length) (sendMsg : Option In) :
    Answers b m index .server
      (apiSend b index m.inputType sendMsg (decide (m.outputType.fields.length > 0))) := by
  obtain ⟨recvMsg, freed, hproc, hlist⟩ := apiProcessClosureData_eq b.nFields
    (b.invoke index (sentMessage b m.inputType sendMsg)).2
    (decide (m.outputType.fields.length > 0)) fun out hout hnull => by
      rw [htype _ out hout, hasRecvMsg_eq_false.mp hnull]
      rfl
  simp only [apiSend, hproc]
  exact ⟨by simp, fun _ => ⟨_, recvMsg, freed, _, rfl, .inl ⟨rfl, _, rfl, rfl, hlist⟩⟩⟩

end

/-- The server is asked exactly where the options leave the answer to it, and what it sends
back is handed on or freed. The call writes through a null pointer exactly where something
else answers and the output has no fields. -/
theorem generated_api_exact (b : ApiBackend In Out) {s : ServiceDescriptor}
    {api : ApiDescriptor} {m : MethodDescriptor} {index : Nat}
    (hapi : generateAtlApiImplementation s = some api) (hm : s.methods[index]? = some m)
    (htype : ∀ sent out, (b.invoke index sent).2 = some out →
      b.nFields out = m.outputType.fields.length) (sendMsg : In) :
    Answers b m index (source b.accessible s m)
      (generatedApi b (some s.fullName) api m index sendMsg) := by
  unfold generatedApi
  rw [cmsgApiInvoke_generated hapi hm]
  unfold answer
  cases hsource : source b.accessible s m with
  | server => exact answers_send htype _
  | unsupported check => exact answers_respond (by simp) _ _
  | file filename =>
    dsimp only [apiFileResponse]
    split
    · exact answers_respond (by simp) _ _
    · exact answers_respond (by simp) _ _

/-! A method without output whose response is to come from a file. -/

def cachedReset : MethodDescriptor where
  name := cstr "reset"
  inputType := ⟨cstr "dummy", [], Proxy.noFields_distinct⟩
  outputType := ⟨cstr "dummy", [], Proxy.noFields_distinct⟩
  http := none
  fileResponse := some (cstr "/var/reset")
  disableServiceSupportCheck := false

def cachedService : ServiceDescriptor := ⟨cstr "test.cached", [cachedReset], none⟩

def emptyFiles : ApiBackend Unit Unit where
  accessible _ := false
  getMsgFromFile _ _ := none
  createAntResponse _ _ _ := some ()
  messageInit _ := ()
  invoke _ _ := (.ok, none)
  nFields _ := 0

theorem generated_api_exact_reset :
    Answers emptyFiles cachedReset 0 (source emptyFiles.accessible cachedService cachedReset)
      (generatedApi emptyFiles (some cachedService.fullName)
        ⟨cachedService, [some ⟨none, some (cstr "/var/reset")⟩]⟩ cachedReset 0 ()) :=
  generated_api_exact emptyFiles rfl rfl (fun _ _ h => by cases h) ()

end Cmsg.Client
