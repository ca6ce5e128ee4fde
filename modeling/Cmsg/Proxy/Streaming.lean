import Cmsg.Base.Runs
import Cmsg.Proxy.Input

/-! # The connections of streamed responses

The handlers of the streaming server run one at a time in its thread. A timeout
runs in another thread under the mutex of the list, and between any two steps of
a handler. A record is known by the address it was allocated at, which is never
reused here, so that an access to a record that was freed shows. -/
namespace Cmsg.Proxy
open Cmsg.Base Cmsg.Base.Runs

/-- `cmsg_proxy_stream_connection`, over the connections of the web server. -/
structure StreamConnection (C : Type) where
  id : Nat
  connection : C
  outputMsgDescriptor : MessageDescriptor
  inUse : Bool
  toDelete : Bool
  headersSet : Bool

inductive ContentType
  | unset | json | file | plaintext
  deriving DecidableEq

structure FileInfo where
  fileName : CString
  fileSize : Nat

/-- The calls of the streaming server, each with its message. -/
inductive StreamCall
  | sendStreamData (id : Nat) (messageData : List UInt8)
  | sendStreamFileData (id : Nat) (messageData : List UInt8)
  | closeStreamConnection (id : Nat)
  | setStreamHeaders (id : Nat) (type : ContentType) (fileInfo : Option FileInfo)
  | abortStreamConnection (id : Nat)

def StreamCall.id : StreamCall → Nat
  | .sendStreamData id _ | .sendStreamFileData id _ | .closeStreamConnection id
  | .setStreamHeaders id _ _ | .abortStreamConnection id => id

abbrev Headers := List (CString × CString)

/-- What happened, to a record or to the outside. -/
inductive StreamEvent (C : Type)
  | released (ref : Nat) (connection : C)
  | freed (ref : Nat)
  | badAccess (ref : Nat)
  | timedOut (ref : Nat)
  | closed (ref : Nat) (connection : C)
  | aborted (ref : Nat) (connection : C)
  | sent (connection : C) (data : List UInt8)
  | headersSet (connection : C) (headers : Headers)
  | reply (streamFound : Bool)

/-- Where a handler is, after it looked its connection up. The last two stages hold whether
the reply was sent before the connection is let go of. -/
inductive HandlerStage (M : Type)
  | start
  | checkHeaders
  | unpack
  | generate (message : M)
  | send (data : List UInt8)
  | setHeaders (headers : Headers)
  | markHeaders
  | remove
  | markDelete
  | leave
  | release (replied : Bool)
  | delete (replied : Bool)

/-- A handler that runs: its call and the record that it looked up. -/
structure Handler (M : Type) where
  call : StreamCall
  ref : Nat
  stage : HandlerStage M

inductive TimeoutStage
  | check | delete | unlink
  deriving DecidableEq

/-- A timeout that holds the mutex of the list and found this record. -/
structure Timeout where
  ref : Nat
  stage : TimeoutStage

structure StreamState (C M : Type) where
  conns : Nat → Option (StreamConnection C)
  nextRef : Nat
  connectionsList : List Nat
  lastIdAssigned : Nat
  timeout : Option Timeout
  handler : Option (Handler M)

/-- The unpacking of a message of the output type, and the response body that is made
of it once the result of the API is stripped. -/
structure StreamCodec (M : Type) where
  unpack : MessageDescriptor → List UInt8 → Option M
  responseBody : M → Option CString

inductive StreamAction (C : Type)
  | createConn (connection : C) (outputMsgDescriptor : MessageDescriptor)
  | connTimeout (connection : C)
  | timeoutStep
  | call (c : StreamCall)
  | handlerStep (busy : Bool)

section
variable {C M : Type}

def streamInit : StreamState C M :=
  { conns := fun _ => none, nextRef := 0, connectionsList := [], lastIdAssigned := 0,
    timeout := none, handler := none }

def StreamState.setConn (s : StreamState C M) (ref : Nat) (c : Option (StreamConnection C)) :
    StreamState C M :=
  { s with conns := fun r => if r = ref then c else s.conns r }

/-- The first record of the list that meets the test, or the record that was freed and
that the search ran into. -/
def searchConns (conns : Nat → Option (StreamConnection C)) (p : StreamConnection C → Bool) :
    List Nat → Except Nat (Option (Nat × StreamConnection C))
  | [] => .ok none
  | ref :: refs =>
    match conns ref with
    | none => .error ref
    | some c => if p c then .ok (some (ref, c)) else searchConns conns p refs

/-- `stream_conn_release` and the freeing of the record. -/
def deleteConn (s : StreamState C M) (ref : Nat) (c : StreamConnection C) :
    StreamState C M × List (StreamEvent C) :=
  (s.setConn ref none, [.released ref c.connection, .freed ref])

/-! ## Requests and timeouts -/

/-- The part of `cmsg_proxy_streaming_create_conn` that makes the record. -/
def streamingCreateConn (s : StreamState C M) (connection : C) (desc : MessageDescriptor) :
    StreamState C M :=
  let c := { id := s.lastIdAssigned, connection, outputMsgDescriptor := desc, inUse := false,
             toDelete := false, headersSet := false }
  { s.setConn s.nextRef (some c) with
    nextRef := s.nextRef + 1
    connectionsList := s.nextRef :: s.connectionsList
    lastIdAssigned := wrap32 (s.lastIdAssigned + 1) }

/-- `cmsg_proxy_streaming_conn_timeout` as it takes the mutex and finds the record. -/
def streamingConnTimeout [DecidableEq C] (s : StreamState C M) (connection : C) :
    StreamState C M × List (StreamEvent C) :=
  match searchConns s.conns (fun c => c.connection = connection) s.connectionsList with
  | .error ref => (s, [.badAccess ref])
  | .ok none => (s, [])
  | .ok (some (ref, _)) => ({ s with timeout := some ⟨ref, .check⟩ }, [.timedOut ref])

/-- The rest of the timeout: `cmsg_proxy_streaming_delete_conn_info`, in two steps where
the record is not in use, and the removal from the list. -/
def timeoutStep (s : StreamState C M) (t : Timeout) : StreamState C M × List (StreamEvent C) :=
  match t.stage with
  | .check =>
    match s.conns t.ref with
    | none => (s, [.badAccess t.ref])
    | some c =>
      if c.inUse then
        ({ s.setConn t.ref (some { c with toDelete := true }) with
            timeout := some ⟨t.ref, .unlink⟩ }, [])
      else ({ s with timeout := some ⟨t.ref, .delete⟩ }, [])
  | .delete =>
    match s.conns t.ref with
    | none => (s, [.badAccess t.ref])
    | some c =>
      let (s, events) := deleteConn s t.ref c
      ({ s with timeout := some ⟨t.ref, .unlink⟩ }, events)
  | .unlink =>
    ({ s with connectionsList := s.connectionsList.erase t.ref, timeout := none }, [])

/-! ## Handlers -/

/-- A handler begins: `cmsg_proxy_streaming_lookup_conn_by_id` under the mutex. -/
def streamingLookup (s : StreamState C M) (call : StreamCall) :
    StreamState C M × List (StreamEvent C) :=
  match searchConns s.conns (fun c => c.id = call.id) s.connectionsList with
  | .error ref => (s, [.badAccess ref])
  | .ok none => (s, [.reply false])
  | .ok (some (ref, c)) =>
    ({ s.setConn ref (some { c with inUse := true }) with handler := some ⟨call, ref, .start⟩ }, [])

/-- The value of a number that `%d` prints. -/
def printInt (n : Int) : CString :=
  if n < 0 then cstr "-" ++ decimal n.natAbs else decimal n.natAbs

/-- The headers of a content type, where the message and the connection allow them. -/
def streamHeaders (desc : MessageDescriptor) (type : ContentType) (fileInfo : Option FileInfo) :
    Option Headers :=
  match type with
  | .json => some [(cstr "Content-Type", cstr "application/json")]
  | .file =>
    match fileInfo with
    | none => none
    | some info =>
      if msgHasFile desc then
        some [(cstr "Content-Type", cstr "application/octet-stream"),
          (cstr "Content-Transfer-Encoding", cstr "binary"),
          (cstr "Content-Disposition", cstr "attachment; filename=\"" ++ info.fileName ++ cstr "\""),
          (cstr "Content-Length", printInt (toInt32 info.fileSize))]
      else none
  | .plaintext => some [(cstr "Content-Type", cstr "text/plain")]
  | .unset => none

/-- The stage that follows, and what is done outside, for the stages that leave the
record as it is; no stage where the handler returns. -/
def stageStep (codec : StreamCodec M) (h : Handler M) (c : StreamConnection C) (busy : Bool) :
    Option (HandlerStage M) × List (StreamEvent C) :=
  let desc := c.outputMsgDescriptor
  match h.stage, h.call with
  | .start, .sendStreamData _ _ =>
    (some (if msgHasFile desc then .release false else .checkHeaders), [])
  | .start, .sendStreamFileData _ _ =>
    (some (if !msgHasFile desc then .release false else .checkHeaders), [])
  | .start, .closeStreamConnection _ => (some .remove, [.closed h.ref c.connection])
  | .start, .abortStreamConnection _ => (some .remove, [.aborted h.ref c.connection])
  | .start, .setStreamHeaders _ type fileInfo =>
    match streamHeaders desc type fileInfo with
    | none => (some (.release false), [])
    | some headers => (some (.setHeaders headers), [])
  | .checkHeaders, .sendStreamFileData _ data =>
    -- here, and nowhere else, the reply goes out before the connection is let go of
    if !c.headersSet then (some (.release true), [.reply true]) else (some (.send data), [])
  | .checkHeaders, _ => (some (if !c.headersSet then .release false else .unpack), [])
  | .unpack, .sendStreamData _ data =>
    match codec.unpack desc data with
    | none => (none, [.reply true])
    | some message => (some (.generate message), [])
  | .generate message, _ =>
    match codec.responseBody message with
    | none => (none, [.reply true])
    | some body => (some (.send (body ++ [0x0a])), [])
  | .send data, .sendStreamFileData _ _ =>
    if busy then (some (.send data), []) else (some (.release false), [.sent c.connection data])
  | .send data, _ => (some (.release false), [.sent c.connection data])
  | .setHeaders headers, _ => (some .markHeaders, [.headersSet c.connection headers])
  | stage, _ => (some stage, [])

/-- One step of the handler that runs. The steps that take the mutex of the list wait
for a timeout that holds it. -/
def handlerStep (codec : StreamCodec M) (s : StreamState C M) (h : Handler M) (busy : Bool) :
    Option (StreamState C M × List (StreamEvent C)) :=
  let goTo := fun (s : StreamState C M) stage => { s with handler := some { h with stage } }
  let setConn := fun c => s.setConn h.ref (some c)
  match s.conns h.ref with
  | none => some (s, [.badAccess h.ref])
  | some c =>
    match h.stage with
    | .markHeaders => some (goTo (setConn { c with headersSet := true }) (.release false), [])
    | .remove =>
      if s.timeout.isSome then none
      else some (goTo { s with connectionsList := s.connectionsList.erase h.ref } .markDelete, [])
    | .markDelete => some (goTo (setConn { c with toDelete := true }) .leave, [])
    | .leave => some (goTo (setConn { c with inUse := false }) (.release false), [])
    | .release replied =>
      if c.toDelete then some (goTo s (.delete replied), [])
      else
        some ({ setConn { c with inUse := false } with handler := none },
          if replied then [] else [.reply true])
    | .delete replied =>
      let (s, events) := deleteConn s h.ref c
      some ({ s with handler := none }, if replied then events else events ++ [.reply true])
    | _ =>
      match stageStep codec h c busy with
      | (none, events) => some ({ s with handler := none }, events)
      | (some stage, events) => some (goTo s stage, events)

/-! ## The machine -/

/-- One step of the requests, the timeouts and the streaming server. -/
def streamStep [DecidableEq C] (codec : StreamCodec M) :
    Machine (StreamState C M) (StreamAction C) (StreamEvent C)
  | s, .createConn connection desc =>
    if s.timeout.isSome then none else some (streamingCreateConn s connection desc, [])
  | s, .connTimeout connection =>
    if s.timeout.isSome then none else some (streamingConnTimeout s connection)
  | s, .timeoutStep => s.timeout.map (timeoutStep s)
  | s, .call c =>
    if s.timeout.isSome ∨ s.handler.isSome then none else some (streamingLookup s c)
  | s, .handlerStep busy => s.handler.bind fun h => handlerStep codec s h busy

end

end Cmsg.Proxy
