import Cmsg.Proxy.ResponseJson

/-! # The body of a response as a pointer

Two callers make response bodies: one hands the body of a request's response on to the HTTP
server, the other prints what it streams with a line feed behind it, from an output that it
did not initialise. -/
namespace Cmsg.Proxy
open Cmsg.Base

/-- A `char *`. -/
inductive CharPointer
  | uninitialised
  | null
  | string (s : CString)

/-- The part of `cmsg_proxy_output` that a response body is made in. -/
structure ResponseBuffer where
  responseBody : CharPointer
  responseLength : Nat
  httpStatus : Nat

/-- What the memory that a response is made in gives: whether `strdup`, the printing of
the streamed text and the allocation of its record succeed. -/
structure ResponseMemory where
  strdup : CString → Bool
  asprintf : CString → Bool
  calloc : Bool

section
variable {N : Type} (codec : OutputCodec N) (memory : ResponseMemory)

/-- `cmsg_proxy_json_t_to_output`. -/
def jsonToBuffer (json : Json) (output : ResponseBuffer) : ResponseBuffer :=
  match codec.jsonDumps json with
  | some text => { output with responseBody := .string text, responseLength := text.length }
  | none => { output with responseLength := 0 }

/-- `cmsg_proxy_generate_plaintext_response`. -/
def generatePlaintextBuffer (message : N) (output : ResponseBuffer) : Bool × ResponseBuffer :=
  let output := { output with responseLength := 0 }
  match (codec.descriptor message).getFieldByName (cstr "_body") with
  | none => (false, output)
  | some field =>
    if field.type = .string then
      match codec.body message with
      | some text =>
        if memory.strdup text then
          (true, { output with responseBody := .string text, responseLength := text.length })
        else (true, { output with responseBody := .null })
      | none => (true, output)
    else (false, output)

/-- `cmsg_proxy_generate_response_body`. -/
def generateResponseBuffer (message : N) (output : ResponseBuffer) : Bool × ResponseBuffer :=
  if output.httpStatus = httpCodeOk ∧ msgHasBodyOverride (codec.descriptor message) = true then
    generatePlaintextBuffer codec memory message output
  else
    match responseJson codec message output.httpStatus with
    | none => (false, output)
    | some json => (true, jsonToBuffer codec json output)

/-- What `http_streaming_impl_send_stream_data` makes of a message. -/
inductive StreamText
  | failed
  | printed (data : CString) (length : Nat)
  | badPointer (p : CharPointer)

/-- Printing the body with a line feed behind it; `output` is not initialised but for the
status. -/
def streamText (message : N) (length : Nat) : StreamText :=
  match generateResponseBuffer codec memory message ⟨.uninitialised, length, httpCodeOk⟩ with
  | (false, _) => .failed
  | (true, output) =>
    match output.responseBody with
    | .string s => .printed (s ++ [0x0a]) (output.responseLength + 1)
    | p => .badPointer p

/-- A call that returns `true` has set the body, and the length with it. -/
def BodySet (r : Bool × ResponseBuffer) : Prop :=
  r.1 = true → ∃ s, r.2.responseBody = .string s ∧ r.2.responseLength = s.length

/-- The part of it that is about the pointer. -/
def BodyIsString (r : Bool × ResponseBuffer) : Prop :=
  r.1 = true → ∃ s, r.2.responseBody = .string s

theorem BodySet.isString {r : Bool × ResponseBuffer} (h : BodySet r) : BodyIsString r :=
  fun hret => (h hret).imp fun _ => And.left

/-- What is streamed is printed from a string, and has its length. -/
def StreamText.Safe : StreamText → Prop
  | .failed => True
  | .printed data length => length = data.length
  | .badPointer _ => False

/-- What both callers rely on, whatever their output holds before the call. -/
structure ResponseBodySet (message : N) (httpStatus : Nat) : Prop where
  set : ∀ body length, BodySet (generateResponseBuffer codec memory message
    ⟨body, length, httpStatus⟩)
  stream : httpStatus = httpCodeOk → ∀ length, (streamText codec memory message length).Safe

/-- The text of `_body` is there, or the JSON can be printed. -/
def HasResponseText (message : N) (httpStatus : Nat) : Prop :=
  if httpStatus = httpCodeOk ∧ msgHasBodyOverride (codec.descriptor message) = true then
    ∀ field, (codec.descriptor message).getFieldByName (cstr "_body") = some field →
      field.type = .string → ∃ text, codec.body message = some text ∧ memory.strdup text = true
  else ∀ json, responseJson codec message httpStatus = some json → (codec.jsonDumps json).isSome

/-! ## The buffer and the output -/

/-- The output as a buffer; a body that is not set is a null pointer. -/
def Output.buffer (output : Output) : ResponseBuffer :=
  ⟨output.responseBody.elim .null .string, output.responseLength, output.httpStatus⟩

theorem jsonToBuffer_eq (json : Json) (output : Output) :
    jsonToBuffer codec json output.buffer = (jsonToOutput codec json output).buffer := by
  unfold jsonToBuffer jsonToOutput
  cases codec.jsonDumps json <;> rfl

/-- The buffer is what the output is made in, as long as `strdup` has memory. -/
theorem generateResponseBuffer_eq (hdup : ∀ s, memory.strdup s = true) (message : N)
    (output : Output) :
    generateResponseBuffer codec memory message output.buffer =
      ((generateResponseBody codec message output).1,
        (generateResponseBody codec message output).2.buffer) := by
  rw [generateResponseBody_eq, generateResponseBuffer]
  rw [show output.buffer.httpStatus = output.httpStatus from rfl]
  by_cases hbody : output.httpStatus = httpCodeOk ∧
      msgHasBodyOverride (codec.descriptor message) = true
  · rw [if_pos hbody, if_pos hbody, generatePlaintextBuffer, generatePlaintextResponse]
    dsimp only
    cases (codec.descriptor message).getFieldByName (cstr "_body") with
    | none => rfl
    | some field =>
      dsimp only
      by_cases htype : field.type = .string
      · rw [if_pos htype, if_pos htype]
        cases codec.body message with
        | none => rfl
        | some text => simp only [hdup, if_true]; rfl
      · rw [if_neg htype, if_neg htype]
        rfl
  · rw [if_neg hbody, if_neg hbody]
    cases responseJson codec message output.httpStatus with
    | none => rfl
    | some json =>
      dsimp only
      rw [jsonToBuffer_eq]

/-! ## When the body is set -/

theorem streamText_safe {message : N} {length : Nat}
    (h : BodySet (generateResponseBuffer codec memory message
      ⟨.uninitialised, length, httpCodeOk⟩)) : (streamText codec memory message length).Safe := by
  unfold streamText
  generalize generateResponseBuffer codec memory message
    ⟨.uninitialised, length, httpCodeOk⟩ = r at h
  obtain ⟨ret, output⟩ := r
  cases ret with
  | false => trivial
  | true =>
    obtain ⟨s, hs, hlength⟩ := h rfl
    dsimp only at hs hlength ⊢
    rw [hs, hlength]
    show s.length + 1 = (s ++ [0x0a]).length
    rw [List.length_append, List.length_singleton]

/-- The text of `_body` is set where it is there. -/
theorem bodySet_plaintext {message : N} {field : FieldDescriptor}
    (hfield : (codec.descriptor message).getFieldByName (cstr "_body") = some field)
    (h : field.type = .string →
      ∃ text, codec.body message = some text ∧ memory.strdup text = true)
    (output : ResponseBuffer) : BodySet (generatePlaintextBuffer codec memory message output) := by
  intro hret
  rw [generatePlaintextBuffer, hfield] at hret ⊢
  dsimp only at hret ⊢
  by_cases htype : field.type = .string
  · obtain ⟨text, hbody, hdup⟩ := h htype
    rw [if_pos htype, hbody]
    dsimp only
    rw [if_pos hdup]
    exact ⟨text, rfl, rfl⟩
  · rw [if_neg htype] at hret
    cases hret

/-- Nothing is set where it is missing. -/
theorem text_of_isString {message : N} {field : FieldDescriptor} {length httpStatus : Nat}
    (hfield : (codec.descriptor message).getFieldByName (cstr "_body") = some field)
    (hset : BodyIsString (generatePlaintextBuffer codec memory message
      ⟨.uninitialised, length, httpStatus⟩)) (htype : field.type = .string) :
    ∃ text, codec.body message = some text ∧ memory.strdup text = true := by
  rw [generatePlaintextBuffer, hfield] at hset
  dsimp only at hset
  rw [if_pos htype] at hset
  cases hbody : codec.body message with
  | none =>
    rw [hbody] at hset
    obtain ⟨s, hs⟩ := hset rfl
    cases hs
  | some text =>
    refine ⟨text, rfl, ?_⟩
    by_contra hdup
    rw [hbody] at hset
    dsimp only at hset
    rw [if_neg hdup] at hset
    obtain ⟨s, hs⟩ := hset rfl
    cases hs

/-- JSON that cannot be printed leaves the body as it was. -/
theorem dumps_of_isString {json : Json} {length httpStatus : Nat}
    (hset : BodyIsString (true, jsonToBuffer codec json ⟨.uninitialised, length, httpStatus⟩)) :
    (codec.jsonDumps json).isSome := by
  unfold jsonToBuffer at hset
  cases hdumps : codec.jsonDumps json with
  | some text => rfl
  | none =>
    rw [hdumps] at hset
    obtain ⟨s, hs⟩ := hset rfl
    cases hs

theorem bodySet_of_hasResponseText {message : N} {httpStatus : Nat}
    (h : HasResponseText codec memory message httpStatus) (body : CharPointer) (length : Nat) :
    BodySet (generateResponseBuffer codec memory message ⟨body, length, httpStatus⟩) := by
  unfold HasResponseText at h
  unfold generateResponseBuffer
  dsimp only
  by_cases hbody : httpStatus = httpCodeOk ∧
      msgHasBodyOverride (codec.descriptor message) = true
  · rw [if_pos hbody] at h ⊢
    obtain ⟨field, hfield⟩ := Option.isSome_iff_exists.mp hbody.2
    exact bodySet_plaintext codec memory hfield (h field hfield) _
  · rw [if_neg hbody] at h ⊢
    cases hjson : responseJson codec message httpStatus with
    | none =>
      intro hret
      cases hret
    | some json =>
      obtain ⟨text, htext⟩ := Option.isSome_iff_exists.mp (h json hjson)
      unfold jsonToBuffer
      dsimp only
      rw [htext]
      exact fun _ => ⟨text, rfl, rfl⟩

/-- A call on an output that is not initialised shows that there is a text. -/
theorem hasResponseText_of_isString {message : N} {length httpStatus : Nat}
    (hset : BodyIsString (generateResponseBuffer codec memory message
      ⟨.uninitialised, length, httpStatus⟩)) :
    HasResponseText codec memory message httpStatus := by
  unfold generateResponseBuffer at hset
  unfold HasResponseText
  dsimp only at hset
  by_cases hbody : httpStatus = httpCodeOk ∧
      msgHasBodyOverride (codec.descriptor message) = true
  · rw [if_pos hbody] at hset ⊢
    intro field hfield htype
    exact text_of_isString codec memory hfield hset htype
  · rw [if_neg hbody] at hset ⊢
    intro json hjson
    rw [hjson] at hset
    exact dumps_of_isString codec hset

/-- **The body is set** by each call that succeeds exactly when the message has a text for
it. -/
theorem responseBodySet_iff (message : N) (httpStatus : Nat) :
    ResponseBodySet codec memory message httpStatus ↔
      HasResponseText codec memory message httpStatus := by
  constructor
  · exact fun h => hasResponseText_of_isString codec memory (h.set .uninitialised 0).isString
  · intro h
    refine ⟨bodySet_of_hasResponseText codec memory h, ?_⟩
    intro hok length
    subst hok
    exact streamText_safe codec memory (bodySet_of_hasResponseText codec memory h _ _)

end

/-- Messages whose `_body` is their text, where they have one. -/
def bodyCodec : OutputCodec (Option CString) :=
  { descriptor := fun _ => ⟨cstr "page", [⟨cstr "_body", .optional, .string⟩], by decide⟩
    errorInfo := fun _ => none
    code := fun _ => none
    dropErrorInfo := id
    body := id
    protobuf2jsonObject := fun text => some (text.elim [] fun s => [(cstr "_body", .string s)])
    antResultObject := fun _ _ => none
    jsonDumps := fun _ => some (cstr "{}") }

/-- Memory that does not run out. -/
def fullMemory : ResponseMemory := ⟨fun _ => true, fun _ => true, true⟩

/-- A `_body` that is not set leaves the body of the response as it was, and `true` is
returned. -/
theorem unset_body_not_set :
    streamText bodyCodec fullMemory none 0 = .badPointer .uninitialised ∧
      ¬ ResponseBodySet bodyCodec fullMemory none httpCodeOk :=
  ⟨rfl, fun h => h.stream rfl 0⟩

end Cmsg.Proxy
