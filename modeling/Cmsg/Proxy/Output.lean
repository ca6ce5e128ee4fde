import Cmsg.Proxy.Input

/-! # From an output message to a response

The response of a request is made of the message that the API returned: its status is
the code in the message, its body the part of the message that is of interest. -/
namespace Cmsg.Proxy
open Cmsg.Base

/-- `cmsg_proxy_output`. -/
structure Output where
  responseBody : Option CString
  responseLength : Nat
  mimeType : CString
  streamResponse : Bool
  httpStatus : Nat

def httpCodeOk : Nat := 200

def httpCodeInternalServerError : Nat := 500

def antCodeOk : Int := 0

def antCodeToHttpCodeArray : List Nat :=
  [200, 408, 500, 400, 408, 404, 409, 403, 403, 400, 409, 400, 501, 500, 503, 500, 401, 200]

/-- `cmsg_proxy_ant_code_to_http_code`. -/
def antCodeToHttpCode (antCode : Int) : Nat :=
  if antCode < 0 then httpCodeInternalServerError
  else antCodeToHttpCodeArray.getD antCode.toNat httpCodeInternalServerError

/-- The number of a code in the messages. -/
def AntCode.number : AntCode → Int
  | .invalidArgument => 3
  | .unimplemented => 12
  | .internal => 13
  | .unavailable => 14

/-- What the proxy reads of a message that an API returned: the code in `_error_info`,
where it is set, the code of an `ant_result` and the text of `_body`; and the conversions
to JSON, which may fail. -/
structure OutputCodec (N : Type) where
  descriptor : N → MessageDescriptor
  errorInfo : N → Option (Option Int)
  code : N → Option Int
  dropErrorInfo : N → N
  body : N → Option CString
  protobuf2jsonObject : N → Option JsonObject
  antResultObject : Int → CString → Option JsonObject
  jsonDumps : Json → Option CString

section
variable {N : Type} (codec : OutputCodec N)

/-- `cmsg_proxy_json_t_to_output`. -/
def jsonToOutput (json : Json) (output : Output) : Output :=
  match codec.jsonDumps json with
  | some text => { output with responseBody := some text, responseLength := text.length }
  | none => { output with responseLength := 0 }

/-- `cmsg_proxy_strip_details_from_ant_result`. -/
def stripDetailsFromAntResult : Json → Json
  | .object members =>
    match Members.get members (cstr "details") with
    | some (.array []) => .object (members.filter (·.1 ≠ cstr "details"))
    | _ => .object members
  | json => json

/-- `cmsg_proxy_generate_ant_result_error`. -/
def generateAntResultError (result : AntResult) (output : Output) : Output :=
  match codec.antResultObject result.code.number result.message with
  | none => { output with httpStatus := httpCodeInternalServerError }
  | some object =>
    jsonToOutput codec (stripDetailsFromAntResult (.object object))
      { output with httpStatus := antCodeToHttpCode result.code.number }

/-- The status of a code, and whether the message that carries it is dropped. -/
def statusOf (verb : HttpVerb) (code : Int) : Nat × Bool :=
  (antCodeToHttpCode code, code == antCodeOk && verb == .get)

/-- `cmsg_proxy_set_http_status`: the status, the message that is left and whether the
message had a code. -/
def setHttpStatus (verb : HttpVerb) : Option N → Nat × Option N × Bool
  | none => (httpCodeInternalServerError, none, false)
  | some message =>
    let desc := codec.descriptor message
    if (desc.getFieldByName (cstr "_error_info")).isSome then
      match codec.errorInfo message with
      | some (some code) =>
        let (status, dropped) := statusOf verb code
        (status, some (if dropped then codec.dropErrorInfo message else message), true)
      | _ => (httpCodeInternalServerError, some message, false)
    else if desc.name = cstr "ant_result" then
      match codec.code message with
      | some code =>
        let (status, dropped) := statusOf verb code
        (status, if dropped then none else some message, true)
      | none => (httpCodeInternalServerError, some message, false)
    else (httpCodeInternalServerError, some message, false)

/-- `cmsg_proxy_generate_plaintext_response`; no output where it fails, but for the
length. -/
def generatePlaintextResponse (message : N) (output : Output) : Bool × Output :=
  let output := { output with responseLength := 0 }
  match (codec.descriptor message).getFieldByName (cstr "_body") with
  | none => (false, output)
  | some field =>
    if field.type = .string then
      match codec.body message with
      | some text =>
        (true, { output with responseBody := some text, responseLength := text.length,
                             mimeType := cstr "text/plain" })
      | none => (true, output)
    else (false, output)

/-- `cmsg_proxy_generate_response_body`. -/
def generateResponseBody (message : N) (output : Output) : Bool × Output :=
  let desc := codec.descriptor message
  if output.httpStatus = httpCodeOk ∧ (desc.getFieldByName (cstr "_body")).isSome then
    generatePlaintextResponse codec message output
  else
    match codec.protobuf2jsonObject message with
    | none => (false, output)
    | some object =>
      if desc.name = cstr "ant_result" then
        (true, jsonToOutput codec (stripDetailsFromAntResult (.object object)) output)
      else if output.httpStatus ≠ httpCodeOk then
        match object.find? (·.1 = cstr "_error_info") with
        | some (_, value) => (true, jsonToOutput codec (stripDetailsFromAntResult value) output)
        | none => (false, output)
      else if desc.fields.length ≤ 2 then
        match object.find? (·.1 ≠ cstr "_error_info") with
        | some (_, value) => (true, jsonToOutput codec value output)
        | none => (false, output)
      else
        let json :=
          if (Members.get object (cstr "_error_info")).isSome then
            stripDetailsFromAntResult (.object object)
          else .object object
        (true, jsonToOutput codec json output)

/-- The end of `cmsg_proxy_output_process`, where the response is not streamed. -/
def responseOf (message : Option N) (output : Output) : Output :=
  match message with
  | none => output
  | some message =>
    match generateResponseBody codec message output with
    | (true, output) => output
    | (false, output) =>
      generateAntResultError codec ⟨.internal, cstr "Internal CMSG response is malformed"⟩ output

/-! ## Whether the response is streamed -/

section
variable (output : Output)

@[simp] theorem streamResponse_jsonToOutput (json : Json) :
    (jsonToOutput codec json output).streamResponse = output.streamResponse := by
  unfold jsonToOutput
  split <;> rfl

@[simp] theorem streamResponse_generateAntResultError (result : AntResult) :
    (generateAntResultError codec result output).streamResponse = output.streamResponse := by
  unfold generateAntResultError
  split
  · rfl
  · rw [streamResponse_jsonToOutput]

theorem streamResponse_generatePlaintextResponse (message : N) :
    (generatePlaintextResponse codec message output).2.streamResponse = output.streamResponse := by
  unfold generatePlaintextResponse
  dsimp only
  split
  · rfl
  · split
    · split <;> rfl
    · rfl

theorem streamResponse_generateResponseBody (message : N) :
    (generateResponseBody codec message output).2.streamResponse = output.streamResponse := by
  unfold generateResponseBody
  dsimp only
  split
  · exact streamResponse_generatePlaintextResponse codec output message
  · split
    · rfl
    · split
      · exact streamResponse_jsonToOutput codec output _
      · split
        · split
          · exact streamResponse_jsonToOutput codec output _
          · rfl
        · split
          · split
            · exact streamResponse_jsonToOutput codec output _
            · rfl
          · exact streamResponse_jsonToOutput codec output _

/-- Making the body of a response leaves it open whether the response is streamed. -/
@[simp] theorem streamResponse_responseOf (message : Option N) :
    (responseOf codec message output).streamResponse = output.streamResponse := by
  unfold responseOf
  cases message with
  | none => rfl
  | some message =>
    have h := streamResponse_generateResponseBody codec output message
    dsimp only
    split
    · next heq =>
      rw [heq] at h
      exact h
    · next heq =>
      rw [heq] at h
      rw [streamResponse_generateAntResultError]
      exact h

end

end

end Cmsg.Proxy
