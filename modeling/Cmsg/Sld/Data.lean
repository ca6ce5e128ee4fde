import Cmsg.Base.HashTable
import Cmsg.Base.Runs
import Cmsg.Transport.Info

/-! # The services known to cmsg_sld

For each service the service-listener daemon records the servers that run it
and the listeners that want to hear of them. A hash table is iterated over in
no particular order, so what the daemon does is kept as one trace for each
service. Whether a send succeeds is up to the environment: `sends client k`
tells it for the `k`-th notification of an operation. -/
namespace Cmsg.Sld
open Cmsg.Base Cmsg.Base.Runs

/-- `cmsg_service_info` -/
structure ServiceInfo where
  service : CString
  serverInfo : TransportInfo
  pid : UInt32
  isLocal : Bool
deriving DecidableEq, Repr

/-- `cmsg_sld_listener_info` -/
structure ListenerInfo where
  service : CString
  transportInfo : TransportInfo
  id : UInt32
  pid : UInt32
deriving DecidableEq, Repr

/-- `listener_data`. The number of the client tells the registrations of one run
apart, as the addresses of their clients do. -/
structure ListenerData where
  client : Nat
  transport : Transport
  id : UInt32
  pid : UInt32
deriving DecidableEq, Repr

/-- `service_data_entry` -/
structure ServiceDataEntry where
  servers : List ServiceInfo
  listeners : List ListenerData
deriving DecidableEq, Repr

/-- `cmsg_sld_server_event` -/
structure ServerEvent where
  serviceInfo : ServiceInfo
  id : UInt32
deriving DecidableEq, Repr

/-- What the daemon does to the world around it. -/
inductive Effect
  | serverAdded (client : Nat) (event : ServerEvent)
  | serverRemoved (client : Nat) (event : ServerEvent)
  | remoteSyncServerAdded (serverInfo : ServiceInfo)
  | remoteSyncServerRemoved (serverInfo : ServiceInfo)
  | processWatchAdd (pid : UInt32)
  | processWatchRemove (pid : UInt32)
deriving DecidableEq, Repr

structure Data where
  hashTable : HashTable CString ServiceDataEntry
  nextClient : Nat
  trace : CString → List Effect

/-- `data_init` -/
def dataInit : Data := ⟨.empty, 0, fun _ => []⟩

/-- `get_service_entry_or_create` with `create` set: the entry to continue with. -/
def getServiceEntryOrCreate (d : Data) (service : CString) : ServiceDataEntry :=
  (d.hashTable.lookup service).getD ⟨[], []⟩

/-- Stores the entry of a service and appends to its trace. -/
def Data.setService (d : Data) (service : CString) (entry : ServiceDataEntry)
    (effects : List Effect) : Data :=
  { d with
    hashTable := d.hashTable.insert service entry
    trace := fun s => if s = service then d.trace s ++ effects else d.trace s }

/-- `notify_listeners`: the listeners that the event could not be sent to are
dropped. -/
def notifyListeners (sends : Nat → Bool) (serverInfo : ServiceInfo) (entry : ServiceDataEntry)
    (added : Bool) : ServiceDataEntry × List Effect :=
  ({ entry with listeners := entry.listeners.filter fun l => sends l.client },
    entry.listeners.map fun l =>
      if added then .serverAdded l.client ⟨serverInfo, l.id⟩
      else .serverRemoved l.client ⟨serverInfo, l.id⟩)

/-- `find_server` -/
def findServer (a b : ServiceInfo) : Bool := transportInfoCompare a.serverInfo b.serverInfo

/-- `data_remove_service_data_entry_if_empty` -/
def dataRemoveServiceDataEntryIfEmpty (d : Data) (service : CString) : Data :=
  match d.hashTable.lookup service with
  | some ⟨[], []⟩ => { d with hashTable := d.hashTable.remove service }
  | _ => d

/-! ## Servers -/

/-- `data_remove_server`; its one notification is the first of the operation. -/
def dataRemoveServer (sends : Nat → Nat → Bool) (d : Data) (serverInfo : ServiceInfo)
    (isLocal : Bool) : Data :=
  match d.hashTable.lookup serverInfo.service with
  | none => d
  | some entry =>
    if entry.servers.any (findServer · serverInfo) then
      let entry := { entry with servers := entry.servers.eraseP (findServer · serverInfo) }
      let r := notifyListeners (sends · 0) serverInfo entry false
      let effects := r.2 ++ .remoteSyncServerRemoved serverInfo ::
        if isLocal then [.processWatchRemove serverInfo.pid] else []
      dataRemoveServiceDataEntryIfEmpty (d.setService serverInfo.service r.1 effects)
        serverInfo.service
    else d

/-- `data_add_server`, for a process that is alive. -/
def dataAddServer (sends : Nat → Nat → Bool) (d : Data) (serverInfo : ServiceInfo)
    (isLocal : Bool) : Data :=
  let serverInfo := { serverInfo with isLocal }
  let d := dataRemoveServer sends d serverInfo isLocal
  let entry := getServiceEntryOrCreate d serverInfo.service
  let entry := { entry with servers := serverInfo :: entry.servers }
  let r := notifyListeners (sends · 1) serverInfo entry true
  d.setService serverInfo.service r.1 (r.2 ++ .remoteSyncServerAdded serverInfo ::
    if isLocal then [.processWatchAdd serverInfo.pid] else [])

/-- The loops that tell the listeners of a service, and the other hosts, that
servers are gone, from the `k`-th notification on. -/
def notifyRemoved (sends : Nat → Nat → Bool) :
    Nat → ServiceDataEntry → List ServiceInfo → ServiceDataEntry × List Effect
  | _, entry, [] => (entry, [])
  | k, entry, serviceInfo :: rest =>
    let r := notifyListeners (sends · k) serviceInfo entry false
    let q := notifyRemoved sends (k + 1) r.1 rest
    (q.1, r.2 ++ .remoteSyncServerRemoved serviceInfo :: q.2)

/-- A helper of `g_hash_table_foreach_remove` applied to every entry: it updates
the entry, which is dropped once it has neither servers nor listeners. -/
def Data.foreachRemove (d : Data) (f : ServiceDataEntry → ServiceDataEntry × List Effect) : Data :=
  { d with
    hashTable := (d.hashTable.foreach fun _ entry => (f entry).1).foreachRemove fun _ entry =>
      entry.servers.isEmpty && entry.listeners.isEmpty
    trace := fun s => match d.hashTable.lookup s with
      | none => d.trace s
      | some entry => d.trace s ++ (f entry).2 }

/-- The address test of `_delete_server_by_addr`. -/
def serverHasAddr (addr : UInt32) (serviceInfo : ServiceInfo) : Bool :=
  match serviceInfo.serverInfo.data with
  | .tcpInfo info => info.addr == .ipv4 addr
  | .unixInfo _ => false

/-- `_delete_server_by_addr` -/
def deleteServerByAddr (sends : Nat → Nat → Bool) (addr : UInt32) (entry : ServiceDataEntry) :
    ServiceDataEntry × List Effect :=
  let removalList := entry.servers.filter (serverHasAddr addr)
  let entry := { entry with servers := entry.servers.filter (!serverHasAddr addr ·) }
  notifyRemoved sends 0 entry removalList

/-- `data_remove_servers_by_addr` -/
def dataRemoveServersByAddr (sends : Nat → Nat → Bool) (d : Data) (addr : UInt32) : Data :=
  d.foreachRemove (deleteServerByAddr sends addr)

/-- `remove_by_pid`: the listeners of the process go first. -/
def removeByPid (sends : Nat → Nat → Bool) (pid : UInt32) (entry : ServiceDataEntry) :
    ServiceDataEntry × List Effect :=
  let gone := fun serviceInfo : ServiceInfo => serviceInfo.isLocal && serviceInfo.pid == pid
  let entry := { entry with listeners := entry.listeners.filter fun l => l.pid != pid }
  let r := notifyRemoved sends 0 entry (entry.servers.filter gone)
  ({ r.1 with servers := r.1.servers.filter (!gone ·) }, r.2)

/-- `data_remove_by_pid` -/
def dataRemoveByPid (sends : Nat → Nat → Bool) (d : Data) (pid : UInt32) : Data :=
  d.foreachRemove (removeByPid sends pid)

/-! ## Listeners -/

/-- The loop of `data_add_listener` over the servers already known, up to the
first event that cannot be sent. -/
def sendServers (sends : Nat → Bool) (listener : ListenerData) :
    Nat → List ServiceInfo → List Effect × Bool
  | _, [] => ([], true)
  | k, serverInfo :: rest =>
    let event := Effect.serverAdded listener.client ⟨serverInfo, listener.id⟩
    if sends k then
      let r := sendServers sends listener (k + 1) rest
      (event :: r.1, r.2)
    else ([event], false)

/-- `data_add_listener`, for a process that is alive; undefined where the
transport is. -/
def dataAddListener (sends : Nat → Nat → Bool) (d : Data) (info : ListenerInfo) : Option Data :=
  (transportInfoToTransport info.transportInfo).map fun transport =>
    let entry := getServiceEntryOrCreate d info.service
    let listener : ListenerData := ⟨d.nextClient, transport, info.id, info.pid⟩
    let r := sendServers (sends listener.client) listener 0 entry.servers
    let listeners := if r.2 then listener :: entry.listeners else entry.listeners
    let effects := .processWatchAdd info.pid :: r.1 ++
      if r.2 then [] else [.processWatchRemove info.pid]
    { d.setService info.service { entry with listeners } effects with
      nextClient := d.nextClient + 1 }

/-- `data_remove_listener` -/
def dataRemoveListener (d : Data) (info : ListenerInfo) : Data :=
  match d.hashTable.lookup info.service with
  | none => d
  | some entry =>
    let found := fun l : ListenerData =>
      transportInfoCompare info.transportInfo (transportInfoCreate l.transport)
    match entry.listeners.find? found with
    | none => d
    | some listener =>
      dataRemoveServiceDataEntryIfEmpty
        (d.setService info.service { entry with listeners := entry.listeners.eraseP found }
          [.processWatchRemove listener.pid]) info.service

/-! ## The machine -/

inductive Op
  | addServer (serverInfo : ServiceInfo) (isLocal : Bool)
  | removeServer (serverInfo : ServiceInfo) (isLocal : Bool)
  | removeServersByAddr (addr : UInt32)
  | removeByPid (pid : UInt32)
  | addListener (info : ListenerInfo)
  | removeListener (info : ListenerInfo)
deriving DecidableEq, Repr

/-- One operation on the data of the daemon, with the sends that succeed in it. -/
def dataStep : Machine Data (Op × (Nat → Nat → Bool)) Empty
  | d, (.addServer serverInfo isLocal, sends) => some (dataAddServer sends d serverInfo isLocal, [])
  | d, (.removeServer serverInfo isLocal, sends) =>
    some (dataRemoveServer sends d serverInfo isLocal, [])
  | d, (.removeServersByAddr addr, sends) => some (dataRemoveServersByAddr sends d addr, [])
  | d, (.removeByPid pid, sends) => some (dataRemoveByPid sends d pid, [])
  | d, (.addListener info, sends) => (dataAddListener sends d info).map fun d => (d, [])
  | d, (.removeListener info, _) => some (dataRemoveListener d info, [])

end Cmsg.Sld
