import Cmsg.Proxy.ResponseBody
import Cmsg.Proxy.Streaming

/-! # Streaming the data of a message

What a stream carries is what is left of a message once the result of the API is taken out
of it. Where the message is that result, nothing is left. -/
namespace Cmsg.Proxy
open Cmsg.Base Cmsg.Base.Runs

/-- What the streaming of a message needs of it besides: its unpacking and its `response`.
Taking its `_error_info` out leaves the rest of it. -/
structure StreamedCodec (N : Type) extends OutputCodec N where
  unpack : MessageDescriptor → List UInt8 → Option N
  response : N → Option N
  descriptor_drop : ∀ message, descriptor (dropErrorInfo message) = descriptor message
  response_drop : ∀ message, response (dropErrorInfo message) = response message

/-- What the stripping of a message leaves in the pointer to it, if it gets to its end. -/
inductive Stripped (N : Type)
  | nullDeref
  | left (message : Option N)

/-- What the handler does outside of its own memory. -/
inductive DataEvent (C : Type)
  | sent (connection : C) (data : Option CString) (length : Nat)
  | releaseConnInfo
  | reply (streamFound : Bool)

/-- Where the handler reads through a pointer to nothing. -/
inductive DataFault
  | nullMessage
  | nullData
  | badBody (p : CharPointer)

/-- The handler, up to its end or a fault. -/
structure DataRun (C : Type) where
  events : List (DataEvent C)
  fault : Option DataFault

section
variable {C N : Type} (codec : StreamedCodec N) (memory : ResponseMemory)

/-- The message without its `_error_info`, where that has a code. -/
def unsetErrorInfo (message : N) : N :=
  match codec.errorInfo message with
  | some (some _) => codec.dropErrorInfo message
  | _ => message

/-- `cmsg_proxy_streaming_strip_ant_result`. -/
def streamingStripAntResult : Option N → Stripped N
  | none => .left none
  | some message =>
    let desc := codec.descriptor message
    let withoutResult : Option (Option N) :=
      if (desc.getFieldByName (cstr "_error_info")).isSome then
        some (some (unsetErrorInfo codec message))
      else if desc.name = cstr "ant_result" then
        match codec.code message with
        | some _ => some none
        | none => some (some message)
      else none
    match withoutResult with
    | none => .left (some message)
    | some none => .nullDeref
    | some (some message) =>
      if (codec.descriptor message).name = cstr "streamed_ant_result" ∧
          ((codec.descriptor message).getFieldByName (cstr "response")).isSome then
        .left (codec.response message)
      else .left (some message)

/-- The end of `http_streaming_impl_send_stream_data`, given what the generation of the response
returned. -/
def streamResponse (c : StreamConnection C) : Bool × ResponseBuffer → DataRun C
  | (false, _) => ⟨[.reply true], none⟩
  | (true, output) =>
    if memory.calloc then
      match output.responseBody with
      | .string s =>
        let data : Option CString × Nat :=
          if memory.asprintf s then (some (s ++ [0x0a]), output.responseLength + 1) else (none, 0)
        ⟨[.sent c.connection data.1 data.2, .releaseConnInfo, .reply true], none⟩
      | p => ⟨[], some (.badBody p)⟩
    else ⟨[], some .nullData⟩

/-- `http_streaming_impl_send_stream_data` from where the message is stripped. -/
def streamStripped (c : StreamConnection C) (length : Nat) : Stripped N → DataRun C
  | .nullDeref | .left none => ⟨[], some .nullMessage⟩
  | .left (some message) =>
    streamResponse memory c (generateResponseBuffer codec.toOutputCodec memory message
      ⟨.uninitialised, length, httpCodeOk⟩)

/-- `http_streaming_impl_send_stream_data`, given the record that the look-up found and what
is in the length of an output that is not initialised. -/
def sendStreamData (connectionInfo : Option (StreamConnection C)) (messageData : List UInt8)
    (length : Nat) : DataRun C :=
  match connectionInfo with
  | none => ⟨[.reply false], none⟩
  | some c =>
    if msgHasFile c.outputMsgDescriptor then ⟨[.releaseConnInfo, .reply true], none⟩
    else if !c.headersSet then ⟨[.releaseConnInfo, .reply true], none⟩
    else
      match codec.unpack c.outputMsgDescriptor messageData with
      | none => ⟨[.reply true], none⟩
      | some message =>
        streamStripped codec memory c length (streamingStripAntResult codec (some message))

/-! ## One reply -/

def DataEvent.isReply : DataEvent C → Bool
  | .reply _ => true
  | _ => false

/-- No message that is gone is read, and there is one reply. -/
structure DataRun.RepliesOnce (run : DataRun C) : Prop where
  message : run.fault ≠ some .nullMessage
  reply : run.events.countP DataEvent.isReply = 1

/-- What is to be streamed of a message: the `response` of a `streamed_ant_result`, a message
without its result, and nothing of an `ant_result` that has a code. -/
def streamedMessage (message : N) : Option N :=
  let desc := codec.descriptor message
  if (desc.getFieldByName (cstr "_error_info")).isSome then
    if desc.name = cstr "streamed_ant_result" ∧
        (desc.getFieldByName (cstr "response")).isSome then codec.response message
    else some (unsetErrorInfo codec message)
  else if desc.name = cstr "ant_result" ∧ (codec.code message).isSome then none
  else some message

/-- There is a response to the message: its `_body` or the JSON. -/
def GivesResponse (message : N) : Prop :=
  if msgHasBodyOverride (codec.descriptor message) = true then
    ∃ field, (codec.descriptor message).getFieldByName (cstr "_body") = some field ∧
      field.type = .string
  else (responseJson codec.toOutputCodec message httpCodeOk).isSome

/-- What the handler needs to get to its end with what is to be streamed. -/
structure Streamable (message : N) : Prop where
  text : HasResponseText codec.toOutputCodec memory message httpCodeOk
  data : GivesResponse codec message → memory.calloc = true

@[simp] theorem descriptor_unsetErrorInfo (message : N) :
    codec.descriptor (unsetErrorInfo codec message) = codec.descriptor message := by
  unfold unsetErrorInfo
  split
  · exact codec.descriptor_drop message
  · rfl

@[simp] theorem response_unsetErrorInfo (message : N) :
    codec.response (unsetErrorInfo codec message) = codec.response message := by
  unfold unsetErrorInfo
  split
  · exact codec.response_drop message
  · rfl

/-- Stripping leaves what is to be streamed, or has read through a null pointer where that is
nothing. -/
theorem streamingStripAntResult_eq (message : N) :
    streamingStripAntResult codec (some message) = .left (streamedMessage codec message) ∨
      streamingStripAntResult codec (some message) = .nullDeref ∧
        streamedMessage codec message = none := by
  unfold streamingStripAntResult streamedMessage
  dsimp only
  by_cases herror : ((codec.descriptor message).getFieldByName (cstr "_error_info")).isSome
  · rw [if_pos herror, if_pos herror]
    left
    dsimp only
    rw [descriptor_unsetErrorInfo, response_unsetErrorInfo, apply_ite Stripped.left]
  · rw [if_neg herror, if_neg herror]
    by_cases hant : (codec.descriptor message).name = cstr "ant_result"
    · rw [if_pos hant]
      cases codec.code message with
      | some code => exact .inr ⟨rfl, if_pos ⟨hant, rfl⟩⟩
      | none =>
        have hname : (codec.descriptor message).name ≠ cstr "streamed_ant_result" := by
          rw [hant]
          decide
        dsimp only
        rw [if_neg fun h => hname h.1, if_neg fun h => by cases h.2]
        exact .inl rfl
    · rw [if_neg hant, if_neg fun h => hant h.1]
      exact .inl rfl

/-- A response is generated exactly where the message gives one. -/
theorem generateResponseBuffer_iff (message : N) (body : CharPointer) (length : Nat) :
    (generateResponseBuffer codec.toOutputCodec memory message ⟨body, length, httpCodeOk⟩).1 =
      true ↔ GivesResponse codec message := by
  unfold generateResponseBuffer GivesResponse
  by_cases hbody : msgHasBodyOverride (codec.descriptor message) = true
  · rw [if_pos ⟨rfl, hbody⟩, if_pos hbody]
    obtain ⟨field, hfield⟩ := Option.isSome_iff_exists.mp hbody
    unfold generatePlaintextBuffer
    dsimp only
    rw [hfield]
    by_cases htype : field.type = .string
    · dsimp only
      rw [if_pos htype]
      refine ⟨fun _ => ⟨field, rfl, htype⟩, fun _ => ?_⟩
      cases codec.body message with
      | none => rfl
      | some text =>
        dsimp only
        cases memory.strdup text <;> rfl
    · dsimp only
      rw [if_neg htype]
      refine ⟨fun h => (by cases h), fun ⟨other, hother, hstring⟩ => ?_⟩
      rw [Option.some.inj hother] at htype
      exact absurd hstring htype
  · rw [if_neg fun h => hbody h.2, if_neg hbody]
    dsimp only
    cases responseJson codec.toOutputCodec message httpCodeOk with
    | none => exact ⟨fun h => (by cases h), fun h => (by cases h)⟩
    | some json => exact ⟨fun _ => rfl, fun _ => rfl⟩

omit codec in
theorem streamResponse_repliesOnce_iff (c : StreamConnection C) (r : Bool × ResponseBuffer) :
    (streamResponse memory c r).RepliesOnce ↔
      BodyIsString r ∧ (r.1 = true → memory.calloc = true) := by
  obtain ⟨ret, output⟩ := r
  cases ret with
  | false =>
    refine ⟨fun _ => ⟨fun h => (by cases h), fun h => (by cases h)⟩, fun _ => ⟨?_, rfl⟩⟩
    exact fun h => (by cases h)
  | true =>
    unfold streamResponse BodyIsString
    dsimp only
    cases hcalloc : memory.calloc with
    | false => exact ⟨fun h => (by cases h.reply), fun h => (by cases h.2 rfl)⟩
    | true =>
      rw [if_pos rfl]
      cases output.responseBody with
      | string s => exact ⟨fun _ => ⟨fun _ => ⟨s, rfl⟩, id⟩, fun _ => ⟨fun h => (by cases h), rfl⟩⟩
      | _ =>
        refine ⟨fun h => (by cases h.reply), fun h => ?_⟩
        obtain ⟨s, hs⟩ := h.1 rfl
        cases hs

theorem streamStripped_repliesOnce_iff (c : StreamConnection C) (length : Nat) (left : Option N) :
    (streamStripped codec memory c length (.left left)).RepliesOnce ↔
      ∃ message, left = some message ∧ Streamable codec memory message := by
  cases left with
  | none => exact ⟨fun h => absurd rfl h.message, fun ⟨_, h, _⟩ => (by cases h)⟩
  | some message =>
    have hgives := generateResponseBuffer_iff codec memory message .uninitialised length
    unfold streamStripped
    rw [streamResponse_repliesOnce_iff, hgives]
    constructor
    · intro ⟨hset, hdata⟩
      exact ⟨message, rfl, hasResponseText_of_isString codec.toOutputCodec memory hset, hdata⟩
    · intro ⟨other, hother, htext, hdata⟩
      obtain rfl := Option.some.inj hother
      exact ⟨(bodySet_of_hasResponseText codec.toOutputCodec memory htext _ _).isString, hdata⟩

/-- Nothing to be streamed is the same fault, wherever it is read. -/
theorem streamStripped_strip (c : StreamConnection C) (length : Nat) (message : N) :
    streamStripped codec memory c length (streamingStripAntResult codec (some message)) =
      streamStripped codec memory c length (.left (streamedMessage codec message)) := by
  cases streamingStripAntResult_eq codec message with
  | inl h => rw [h]
  | inr h =>
    rw [h.1, h.2]
    rfl

/-- **One reply** is sent for what a stream is given exactly when, of a message that is unpacked,
there is something to be streamed and a text for it. -/
theorem sendStreamData_repliesOnce_iff (connectionInfo : Option (StreamConnection C))
    (messageData : List UInt8) (length : Nat) :
    (sendStreamData codec memory connectionInfo messageData length).RepliesOnce ↔
      ∀ c message, connectionInfo = some c → msgHasFile c.outputMsgDescriptor = false →
        c.headersSet = true → codec.unpack c.outputMsgDescriptor messageData = some message →
        ∃ left, streamedMessage codec message = some left ∧ Streamable codec memory left := by
  unfold sendStreamData
  cases connectionInfo with
  | none => exact ⟨fun _ _ _ h => (by cases h), fun _ => ⟨fun h => (by cases h), rfl⟩⟩
  | some c =>
    dsimp only
    cases hfile : msgHasFile c.outputMsgDescriptor with
    | true =>
      refine ⟨fun _ c' _ hc hno => ?_, fun _ => ⟨fun h => (by cases h), rfl⟩⟩
      rw [← Option.some.inj hc, hfile] at hno
      cases hno
    | false =>
      cases hheaders : c.headersSet with
      | false =>
        refine ⟨fun _ c' _ hc _ hset => ?_, fun _ => ⟨fun h => (by cases h), rfl⟩⟩
        rw [← Option.some.inj hc, hheaders] at hset
        cases hset
      | true =>
        rw [if_neg Bool.false_ne_true, Bool.not_true, if_neg Bool.false_ne_true]
        cases hunpack : codec.unpack c.outputMsgDescriptor messageData with
        | none =>
          refine ⟨fun _ c' message hc _ _ hsome => ?_, fun _ => ⟨fun h => (by cases h), rfl⟩⟩
          rw [← Option.some.inj hc, hunpack] at hsome
          cases hsome
        | some message =>
          dsimp only
          rw [streamStripped_strip, streamStripped_repliesOnce_iff]
          constructor
          · intro h c' message' hc _ _ hsome
            rw [← Option.some.inj hc, hunpack] at hsome
            rwa [← Option.some.inj hsome]
          · exact fun h => h c message rfl hfile hheaders hunpack

end

/-! ## The handler in the streaming server -/

section
variable {C N : Type} (codec : StreamedCodec N) (memory : ResponseMemory)

def streamBody : Bool × ResponseBuffer → Option CString
  | (true, ⟨.string s, _, _⟩) => some s
  | _ => none

/-- The messages of the streaming server. -/
def streamCodec (length : Nat) : StreamCodec N :=
  { unpack := codec.unpack
    responseBody := fun message => (streamedMessage codec message).bind fun left =>
      streamBody (generateResponseBuffer codec.toOutputCodec memory left
        ⟨.uninitialised, length, httpCodeOk⟩) }

/-- An event as the streaming server has it. -/
def DataEvent.stream : DataEvent C → Option (StreamEvent C)
  | .sent connection data _ => data.map (.sent connection)
  | .releaseConnInfo => none
  | .reply found => some (.reply found)

/-- The steps of the handler alone, from a state to the end of the call. -/
def HandlerRuns [DecidableEq C] (codec : StreamCodec N) (s : StreamState C N)
    (events : List (StreamEvent C)) : Prop :=
  ∃ n t, exec (streamStep codec) s (List.replicate n (.handlerStep false)) = some (t, events) ∧
    t.handler = none

/-- The stages that leave the record as it is. -/
def HandlerStage.IsPlain : HandlerStage N → Prop
  | .start | .checkHeaders | .unpack | .generate _ | .send _ | .setHeaders _ => True
  | _ => False

end

section
variable {C N : Type} [DecidableEq C] {codec : StreamCodec N} {s : StreamState C N}
variable {h : Handler N} {c : StreamConnection C} {events os : List (StreamEvent C)}

theorem HandlerRuns.step {s' : StreamState C N} (hh : s.handler = some h)
    (hstep : handlerStep codec s h false = some (s', events)) (hrest : HandlerRuns codec s' os) :
    HandlerRuns codec s (events ++ os) := by
  obtain ⟨n, t, hexec, ht⟩ := hrest
  refine ⟨n + 1, t, ?_, ht⟩
  rw [List.replicate_succ, exec_cons]
  refine ⟨s', events, os, ?_, hexec, rfl⟩
  show s.handler.bind (fun h => handlerStep codec s h false) = _
  rw [hh]
  exact hstep

/-- The handler goes on to the next stage. -/
theorem HandlerRuns.stage (stage : HandlerStage N) (events : List (StreamEvent C))
    (hh : s.handler = some h) (hconn : s.conns h.ref = some c)
    (hplain : h.stage.IsPlain) (hstage : stageStep codec h c false = (some stage, events))
    (hrest : HandlerRuns codec { s with handler := some { h with stage } } os) :
    HandlerRuns codec s (events ++ os) := by
  refine .step hh ?_ hrest
  obtain ⟨call, ref, current⟩ := h
  unfold handlerStep
  rw [hconn]
  cases current <;> first | exact absurd hplain id | (dsimp only; rw [hstage])

/-- The handler returns. -/
theorem HandlerRuns.return (hh : s.handler = some h) (hconn : s.conns h.ref = some c)
    (hplain : h.stage.IsPlain) (hstage : stageStep codec h c false = (none, events)) :
    HandlerRuns codec s events := by
  have hend : HandlerRuns codec { s with handler := none } [] := ⟨0, _, rfl, rfl⟩
  rw [← List.append_nil events]
  refine .step hh ?_ hend
  obtain ⟨call, ref, current⟩ := h
  unfold handlerStep
  rw [hconn]
  cases current <;> first | exact absurd hplain id | (dsimp only; rw [hstage])

/-- The handler lets go of a record that is kept, and replies. -/
theorem HandlerRuns.release {call : StreamCall} {ref : Nat}
    (hh : s.handler = some ⟨call, ref, .release false⟩) (hconn : s.conns ref = some c)
    (hkeep : c.toDelete = false) : HandlerRuns codec s [.reply true] := by
  have hend : HandlerRuns codec
      { s.setConn ref (some { c with inUse := false }) with handler := none } [] := ⟨0, _, rfl, rfl⟩
  rw [← List.append_nil [StreamEvent.reply true]]
  refine .step hh ?_ hend
  unfold handlerStep
  rw [hconn]
  dsimp only
  rw [hkeep]
  rfl

end

section
variable {C N : Type} [DecidableEq C] (codec : StreamedCodec N) (memory : ResponseMemory)

/-- Where nothing goes wrong the handler does what the streaming server does in the steps of the
call. -/
theorem sendStreamData_runs (hprint : ∀ text, memory.asprintf text = true) {length : Nat}
    {s : StreamState C N} {ref id : Nat} {c : StreamConnection C} {data : List UInt8}
    (hconn : s.conns ref = some c) (hkeep : c.toDelete = false)
    (hhandler : s.handler = some ⟨.sendStreamData id data, ref, .start⟩)
    (hfault : (sendStreamData codec memory (some c) data length).fault = none) :
    HandlerRuns (streamCodec codec memory length) s
      ((sendStreamData codec memory (some c) data length).events.filterMap DataEvent.stream) := by
  unfold sendStreamData at hfault ⊢
  dsimp only at hfault ⊢
  cases hfile : msgHasFile c.outputMsgDescriptor with
  | true =>
    refine .stage (.release false) [] hhandler hconn trivial ?_
      (.release rfl hconn hkeep)
    simp only [stageStep, hfile, if_true]
  | false =>
    rw [hfile, if_neg Bool.false_ne_true] at hfault
    rw [if_neg Bool.false_ne_true]
    refine .stage .checkHeaders [] hhandler hconn trivial ?_ ?_
    · simp only [stageStep, hfile, if_false, Bool.false_eq_true]
    cases hheaders : c.headersSet with
    | false =>
      refine .stage (.release false) [] rfl hconn trivial ?_
        (.release rfl hconn hkeep)
      simp only [stageStep, hheaders, Bool.not_false, if_true]
    | true =>
      rw [hheaders, Bool.not_true, if_neg Bool.false_ne_true] at hfault
      rw [Bool.not_true, if_neg Bool.false_ne_true]
      refine .stage .unpack [] rfl hconn trivial ?_ ?_
      · simp only [stageStep, hheaders, Bool.not_true, Bool.false_eq_true, if_false]
      cases hunpack : codec.unpack c.outputMsgDescriptor data with
      | none =>
        refine .return rfl hconn trivial ?_
        simp only [stageStep, streamCodec, hunpack]
        rfl
      | some message =>
        rw [hunpack] at hfault
        dsimp only at hfault ⊢
        rw [streamStripped_strip] at hfault ⊢
        refine .stage (.generate message) [] rfl hconn trivial ?_ ?_
        · simp only [stageStep, streamCodec, hunpack]
        cases hleft : streamedMessage codec message with
        | none =>
          rw [hleft] at hfault
          cases hfault
        | some left =>
          have hbody : (streamCodec codec memory length).responseBody message =
              streamBody (generateResponseBuffer codec.toOutputCodec memory left
                ⟨.uninitialised, length, httpCodeOk⟩) := by
            unfold streamCodec
            dsimp only
            rw [hleft, Option.bind_some]
          rw [hleft] at hfault
          unfold streamStripped at hfault ⊢
          dsimp only at hfault ⊢
          generalize generateResponseBuffer codec.toOutputCodec memory left
            ⟨.uninitialised, length, httpCodeOk⟩ = r at hfault hbody ⊢
          obtain ⟨ret, output⟩ := r
          cases ret with
          | false =>
            refine .return rfl hconn trivial ?_
            simp only [stageStep, hbody, streamBody]
            rfl
          | true =>
            obtain ⟨body, bodyLength, status⟩ := output
            unfold streamResponse at hfault ⊢
            dsimp only at hfault ⊢
            cases hcalloc : memory.calloc with
            | false =>
              rw [hcalloc] at hfault
              cases hfault
            | true =>
              rw [hcalloc, if_pos rfl] at hfault
              cases body with
              | string text =>
                rw [if_pos rfl]
                dsimp only
                rw [hprint, if_pos rfl]
                refine .stage (.send (text ++ [0x0a])) [] rfl hconn trivial ?_ ?_
                · simp only [stageStep, hbody, streamBody]
                · refine .stage (.release false) [.sent c.connection (text ++ [0x0a])] rfl hconn trivial
                    rfl ?_
                  exact .release rfl hconn hkeep
              | _ => cases hfault

end

/-- An `ant_result` with its code, or a `streamed_ant_result` with its `response`. -/
inductive ResultMessage
  | antResult (code : Option Int)
  | streamedAntResult (response : Option Int)

def antResultDesc : MessageDescriptor :=
  ⟨cstr "ant_result", [⟨cstr "code", .optional, .enum⟩, ⟨cstr "message", .optional, .string⟩,
    ⟨cstr "resource_id", .optional, .string⟩, ⟨cstr "details", .repeated, .message⟩], by decide⟩

def streamedAntResultDesc : MessageDescriptor :=
  ⟨cstr "streamed_ant_result", [⟨cstr "_error_info", .optional, .message⟩,
    ⟨cstr "response", .optional, .message⟩], by decide⟩

def resultCodec : StreamedCodec ResultMessage :=
  { descriptor := fun
      | .antResult _ => antResultDesc
      | .streamedAntResult _ => streamedAntResultDesc
    errorInfo := fun _ => none
    code := fun
      | .antResult code => code
      | .streamedAntResult _ => none
    dropErrorInfo := id
    body := fun _ => none
    protobuf2jsonObject := fun _ => some []
    antResultObject := fun _ _ => none
    jsonDumps := fun _ => some (cstr "{}")
    unpack := fun desc data =>
      if desc = antResultDesc ∧ data = [0x08, 0x00] then some (.antResult (some 0))
      else if desc = streamedAntResultDesc ∧ data = [] then some (.streamedAntResult none)
      else none
    response := fun
      | .antResult _ => none
      | .streamedAntResult response => response.map fun code => .antResult (some code)
    descriptor_drop := fun _ => rfl
    response_drop := fun _ => rfl }

/-- An `ant_result` with a code is gone, and so is the `response` that is not set; both are read
and no reply is sent. -/
theorem stripped_result_read :
    ¬ (sendStreamData resultCodec fullMemory (C := Unit)
        (some ⟨0, (), antResultDesc, true, false, true⟩) [0x08, 0x00] 0).RepliesOnce ∧
      ¬ (sendStreamData resultCodec fullMemory (C := Unit)
        (some ⟨0, (), streamedAntResultDesc, true, false, true⟩) [] 0).RepliesOnce :=
  ⟨fun h => absurd rfl h.message, fun h => absurd rfl h.message⟩

end Cmsg.Proxy
