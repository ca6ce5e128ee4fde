import Cmsg.Sld.Registrations
import Cmsg.Sld.WaitForServer

/-! # A process that listens

The service-listener functions of one process, together with the daemon and what is on the
way between them. The process keeps a list of what it listens for; its one event server
receives the messages of the daemon on as many connections as there are registrations, and
queues each for the listener with its id, whose own thread handles it.

Requests to the daemon travel on a new client each, so they may arrive in any order or be
lost. The connections keep the order of what is sent on them. The daemon does whatever other
processes and hosts ask of it in between. -/
namespace Cmsg.Sld.Api
open Cmsg.Base Cmsg.Base.Runs

/-- The process, with the transport of its event server, which its pid is part of. -/
structure Process where
  eventServer : Transport
  pid : UInt32
  valid : transportInfoToTransport (transportInfoCreate eventServer) = some eventServer

/-- What a listener is for: the user data made of a configuration, the handler of events, and
what else the process does with the user data. -/
structure Application (Config UserData Action : Type) where
  start : Config → UserData
  handler : UserData → Wait.SlEvent → UserData × Bool
  act : UserData → Action → Option UserData

/-- `cmsg_sl_info`, known by its address `info`, with where its thread is: `processing` in the
loop of `cmsg_service_listener_event_queue_process`, `stopped` once the handler ended it. -/
structure SlInfo (UserData : Type) where
  info : Nat
  serviceName : CString
  id : UInt32
  queue : List Wait.SlEvent
  eventfd : Nat
  processing : Bool
  stopped : Bool
  userData : UserData

/-- A message of this process to the daemon. -/
structure Request where
  listen : Bool
  info : ListenerInfo

/-- A client of the daemon: what it was registered for, where it leads, and how many of the
messages sent on it have arrived. -/
structure Connection where
  registration : Registration
  transport : Transport
  received : Nat

/-- `connections` has a place for every client of the daemon. `created` is the static `id`
before it wraps around. The event server is to write to the descriptors of `toWrite` before
it gives back the mutex of the list. -/
structure System (UserData : Type) where
  daemon : Data
  connections : List Connection
  requests : List Request
  created : Nat
  listenerList : List (SlInfo UserData)
  toWrite : List Nat

inductive Input (Config Action : Type)
  | listen (serviceName : CString) (config : Config)
  | unlisten (info : Nat)
  | request (k : Nat) (sends : Nat → Nat → Bool)
  | requestLost (k : Nat)
  | other (op : Op) (sends : Nat → Nat → Bool)
  | receive (client : Nat)
  | eventfdWrite
  | process (info : Nat)
  | pop (info : Nat)
  | application (info : Nat) (action : Action)

/-- A call of a handler. -/
structure Handled where
  info : Nat
  event : Wait.SlEvent

section
variable {Config UserData Action : Type}

def systemInit : System UserData :=
  { daemon := dataInit, connections := [], requests := [], created := 0, listenerList := [],
    toWrite := [] }

/-! ## The daemon -/

/-- The client that an operation creates. -/
def connectionOf : Op → List Connection
  | .addListener info =>
    (transportInfoToTransport info.transportInfo).toList.map fun transport =>
      ⟨⟨info.service, info.id⟩, transport, 0⟩
  | _ => []

def System.daemonStep (s : System UserData) (op : Op) (sends : Nat → Nat → Bool) :
    Option (System UserData) :=
  (dataStep s.daemon (op, sends)).map fun r =>
    { s with daemon := r.1, connections := s.connections ++ connectionOf op }

/-- The requests of other processes carry the transports of their own event servers. -/
def Process.allows (p : Process) : Op → Bool
  | .addListener info => transportInfoToTransport info.transportInfo != some p.eventServer
  | _ => true

/-! ## The list of listeners -/

def System.lookup (s : System UserData) (info : Nat) : Option (SlInfo UserData) :=
  s.listenerList.find? fun entry => entry.info == info

/-- Changes the entry at an address. -/
def System.modify (s : System UserData) (info : Nat)
    (f : SlInfo UserData → SlInfo UserData) : System UserData :=
  { s with listenerList := s.listenerList.map fun entry => if entry.info == info then f entry
                                                           else entry }

/-- `cmsg_service_listener_info_create` -/
def serviceListenerInfoCreate (created : Nat) (serviceName : CString) (userData : UserData) :
    SlInfo UserData :=
  { info := created, serviceName, id := UInt32.ofNat created, queue := [], eventfd := 0,
    processing := false, stopped := false, userData }

/-- `cmsg_service_listener_listen` -/
def System.listen (p : Process) (s : System UserData) (serviceName : CString)
    (userData : UserData) : System UserData :=
  let info := serviceListenerInfoCreate s.created serviceName userData
  { s with
    created := s.created + 1
    listenerList := info :: s.listenerList
    requests := s.requests ++
      [⟨true, serviceListenerListen serviceName true p.eventServer info.id p.pid⟩] }

/-- What a connection has carried: everything sent on it so far. -/
def System.sent (s : System UserData) (client : Nat) (connection : Connection) :
    List (Change ServerEvent) :=
  sentTo client (s.daemon.trace connection.registration.service)

/-- `event_server_deinit`: what is on the way on its connections is lost. -/
def System.eventServerDeinit (s : System UserData) : System UserData :=
  { s with connections := s.connections.mapIdx fun client connection =>
      { connection with received := (s.sent client connection).length } }

/-- `cmsg_service_listener_unlisten` -/
def System.unlisten (p : Process) (s : System UserData) (info : Nat) : Option (System UserData) :=
  (s.lookup info).map fun entry =>
    let listenerList := s.listenerList.eraseP fun entry => entry.info == info
    let s := { s with
      listenerList
      requests := s.requests ++
        [⟨false, serviceListenerListen entry.serviceName false p.eventServer entry.id p.pid⟩] }
    if listenerList.isEmpty then s.eventServerDeinit else s

/-! ## Events -/

/-- `notify_listener`, up to the writes to the descriptors; undefined where there is no
transport to be made of the message, which the handlers read without a look. -/
def notifyListener (listenerList : List (SlInfo UserData)) (recvMsg : ServerEvent)
    (added : Bool) : Option (List (SlInfo UserData)) :=
  if listenerList.any fun entry => entry.id == recvMsg.id then
    (transportInfoToTransport recvMsg.serviceInfo.serverInfo).map fun transport =>
      listenerList.map fun entry =>
        if entry.id == recvMsg.id then { entry with queue := entry.queue ++ [⟨added, transport⟩] }
        else entry
  else some listenerList

/-- After the next message on a connection, with an id, was queued. -/
def System.advance (s : System UserData) (client : Nat) (connection : Connection) (id : UInt32)
    (listenerList : List (SlInfo UserData)) : System UserData :=
  { s with
    listenerList
    connections := s.connections.set client
      { connection with received := connection.received + 1 }
    toWrite := (s.listenerList.filter fun entry => entry.id == id).map (·.info) }

/-- The event server receives the next message on a connection to it. -/
def System.receive (p : Process) (s : System UserData) (client : Nat) :
    Option (System UserData) :=
  match s.connections[client]? with
  | none => none
  | some connection =>
    if connection.transport = p.eventServer ∧ s.listenerList.isEmpty = false ∧
        s.toWrite.isEmpty = true then
      match (s.sent client connection)[connection.received]? with
      | none => none
      | some change =>
        (notifyListener s.listenerList change.subject change.isAdded).map
          (s.advance client connection change.subject.id)
    else none

/-- The loop of `cmsg_service_listener_event_queue_process` tries to pop an event. -/
def System.pop (app : Application Config UserData Action) (s : System UserData)
    (entry : SlInfo UserData) : System UserData × List Handled :=
  match entry.queue with
  | [] => (s.modify entry.info fun entry => { entry with processing := false }, [])
  | event :: queue =>
    let r := app.handler entry.userData event
    (s.modify entry.info fun entry =>
      { entry with queue, userData := r.1, processing := r.2, stopped := !r.2 },
      [⟨entry.info, event⟩])

def step (p : Process) (app : Application Config UserData Action) :
    Machine (System UserData) (Input Config Action) Handled
  | s, .listen serviceName config =>
    if s.toWrite.isEmpty then some (s.listen p serviceName (app.start config), []) else none
  | s, .unlisten info =>
    if s.toWrite.isEmpty then (s.unlisten p info).map fun s => (s, []) else none
  | s, .request k sends =>
    match s.requests[k]? with
    | none => none
    | some request =>
      (({ s with requests := s.requests.eraseIdx k } : System UserData).daemonStep
        (if request.listen then .addListener request.info else .removeListener request.info)
        sends).map fun s => (s, [])
  | s, .requestLost k =>
    if k < s.requests.length then some ({ s with requests := s.requests.eraseIdx k }, []) else none
  | s, .other op sends =>
    if p.allows op then (s.daemonStep op sends).map fun s => (s, []) else none
  | s, .receive client => (s.receive p client).map fun s => (s, [])
  | s, .eventfdWrite =>
    match s.toWrite with
    | [] => none
    | info :: toWrite =>
      some (({ s with toWrite } : System UserData).modify info fun entry =>
        { entry with eventfd := entry.eventfd + 1 }, [])
  | s, .process info =>
    match s.lookup info with
    | none => none
    | some entry =>
      if entry.processing then none
      else some (s.modify info fun entry =>
        { entry with eventfd := 0, processing := true, stopped := false }, [])
  | s, .pop info =>
    match s.lookup info with
    | none => none
    | some entry => if entry.processing then some (s.pop app entry) else none
  | s, .application info action =>
    match s.lookup info with
    | none => none
    | some entry => (app.act entry.userData action).map fun userData =>
        (s.modify info fun entry => { entry with userData }, [])

end

end Cmsg.Sld.Api
