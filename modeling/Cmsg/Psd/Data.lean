import Cmsg.Base.HashTable
import Cmsg.Base.Lists
import Cmsg.Base.Runs
import Cmsg.Transport.Info

/-! # The subscriptions known to cmsg_psd

The local subscriptions are a hash table of services; the entry of a service
lists its methods with the transports subscribed to them, and holds the
composite client to the publishers of the service. Every change to the
transports of a method is sent to the children of that composite client. -/
namespace Cmsg.Psd
open Cmsg.Base Cmsg.Base.Runs

/-- The messages of the `update` service, from the daemon to a publisher. -/
inductive Update
  | subscriptionChange (methodName : CString) (transport : TransportInfo) (added : Bool)
  | hostRemoval (addr : UInt32)
deriving DecidableEq, Repr

/-- A client to the update server of a publisher. `id` tells the clients of one
run apart, as their addresses do, and `sent` is all that was sent on it. -/
structure UpdateClient where
  id : Nat
  transport : Transport
  sent : List Update
deriving DecidableEq, Repr

/-- `method_data_entry` -/
structure MethodDataEntry where
  methodName : CString
  transports : List TransportInfo
deriving DecidableEq, Repr

/-- `service_data_entry`, with the children of its composite client. -/
structure ServiceDataEntry where
  methods : List MethodDataEntry
  children : List UpdateClient
deriving DecidableEq, Repr

/-- `cmsg_subscription_info` -/
structure SubscriptionInfo where
  service : CString
  transportInfo : TransportInfo
  methodName : CString
  remoteAddr : Option UInt32
deriving DecidableEq, Repr

/-- What the daemon tells the psd of another host. -/
inductive RemoteSync
  | subscriptionAdded (info : SubscriptionInfo)
  | subscriptionRemoved (info : SubscriptionInfo)
deriving DecidableEq, Repr

structure Data where
  localSubscriptionsTable : HashTable CString ServiceDataEntry
  remoteSubscriptionsList : List SubscriptionInfo
  nextClient : Nat

/-- `data_init` -/
def dataInit : Data := ⟨.empty, [], 0⟩

/-! ## Service and method entries -/

/-- `get_service_entry_or_create` with `create` set: the entry to continue with. -/
def getServiceEntryOrCreate (d : Data) (service : CString) : ServiceDataEntry :=
  (d.localSubscriptionsTable.lookup service).getD ⟨[], []⟩

def Data.setService (d : Data) (service : CString) (entry : ServiceDataEntry) : Data :=
  { d with localSubscriptionsTable := d.localSubscriptionsTable.insert service entry }

def Data.destroyService (d : Data) (service : CString) : Data :=
  { d with localSubscriptionsTable := d.localSubscriptionsTable.remove service }

-- the composite client sends to all of its children
def ServiceDataEntry.send (entry : ServiceDataEntry) (update : Update) : ServiceDataEntry :=
  { entry with children := entry.children.map fun c => { c with sent := c.sent ++ [update] } }

/-- `update_publishers_with_method_change` -/
def updatePublishersWithMethodChange (entry : ServiceDataEntry) (methodName : CString)
    (transportInfo : TransportInfo) (added : Bool) : ServiceDataEntry :=
  entry.send (.subscriptionChange methodName transportInfo added)

/-- `update_publishers_with_host_removal` -/
def updatePublishersWithHostRemoval (entry : ServiceDataEntry) (addr : UInt32) : ServiceDataEntry :=
  entry.send (.hostRemoval addr)

/-- The method entry that `g_list_find_custom` finds under a name. -/
def ServiceDataEntry.method? (entry : ServiceDataEntry) (method : CString) :
    Option MethodDataEntry :=
  entry.methods.find? fun m => m.methodName == method

/-- `get_method_entry_or_create` with `create` set: the entry, with the method in it. -/
def getMethodEntryOrCreate (entry : ServiceDataEntry) (method : CString) : ServiceDataEntry :=
  match entry.method? method with
  | some _ => entry
  | none => { entry with methods := ⟨method, []⟩ :: entry.methods }

/-- Rewrites the transports of the method found under a name. -/
def ServiceDataEntry.setTransports (entry : ServiceDataEntry) (method : CString)
    (transports : List TransportInfo) : ServiceDataEntry :=
  { entry with
    methods := entry.methods.modifyFirst (fun m => m.methodName == method)
      fun m => { m with transports } }

/-! ## Adding and removing subscriptions -/

/-- `data_add_local_subscription`, undefined where the transport cannot be copied. -/
def dataAddLocalSubscription (d : Data) (info : SubscriptionInfo) : Option Data :=
  (transportInfoCopy info.transportInfo).map fun transportCopy =>
    let entry := getMethodEntryOrCreate (getServiceEntryOrCreate d info.service) info.methodName
    let transports := ((entry.method? info.methodName).map (·.transports)).getD []
    let entry := entry.setTransports info.methodName (transportCopy :: transports)
    d.setService info.service
      (updatePublishersWithMethodChange entry info.methodName info.transportInfo true)

/-- `data_remove_transport_from_method`: the first transport that compares equal. -/
def dataRemoveTransportFromMethod (entry : ServiceDataEntry) (method : MethodDataEntry)
    (transportInfo : TransportInfo) : ServiceDataEntry :=
  if method.transports.any (transportInfoCompare · transportInfo) then
    let entry := entry.setTransports method.methodName
      (method.transports.eraseP (transportInfoCompare · transportInfo))
    updatePublishersWithMethodChange entry method.methodName transportInfo false
  else entry

/-- `data_remove_local_subscription` -/
def dataRemoveLocalSubscription (d : Data) (info : SubscriptionInfo) : Data :=
  match d.localSubscriptionsTable.lookup info.service with
  | none => d
  | some entry =>
    match entry.method? info.methodName with
    | none => d
    | some method =>
      let entry := dataRemoveTransportFromMethod entry method info.transportInfo
      let transports := ((entry.method? info.methodName).map (·.transports)).getD []
      if transports.length = 0 then
        let entry := { entry with
          methods := entry.methods.eraseP fun m => m.methodName == info.methodName }
        if entry.methods.length = 0 then d.destroyService info.service
        else d.setService info.service entry
      else d.setService info.service entry

/-- `remote_subscription_compare` -/
def remoteSubscriptionCompare (a b : SubscriptionInfo) : Bool :=
  a.service == b.service && a.methodName == b.methodName && a.remoteAddr == b.remoteAddr &&
    transportInfoCompare a.transportInfo b.transportInfo

/-- `data_add_subscription` -/
def dataAddSubscription (d : Data) (info : SubscriptionInfo) : Option (Data × List RemoteSync) :=
  match info.remoteAddr with
  | some _ => some ({ d with remoteSubscriptionsList := info :: d.remoteSubscriptionsList },
      [.subscriptionAdded info])
  | none => (dataAddLocalSubscription d info).map fun d => (d, [])

/-- `data_remove_remote_subscription` -/
def dataRemoveRemoteSubscription (d : Data) (info : SubscriptionInfo) : Data × List RemoteSync :=
  if d.remoteSubscriptionsList.any (remoteSubscriptionCompare · info) then
    ({ d with
        remoteSubscriptionsList :=
          d.remoteSubscriptionsList.eraseP (remoteSubscriptionCompare · info) },
      [.subscriptionRemoved info])
  else (d, [])

/-- `data_remove_subscription` -/
def dataRemoveSubscription (d : Data) (info : SubscriptionInfo) : Data × List RemoteSync :=
  match info.remoteAddr with
  | some _ => dataRemoveRemoteSubscription d info
  | none => (dataRemoveLocalSubscription d info, [])

/-! ## Removing a subscriber or a host -/

/-- `data_prune_empty_methods` -/
def dataPruneEmptyMethods (entry : ServiceDataEntry) : ServiceDataEntry :=
  { entry with methods := entry.methods.filter fun m => m.transports.length != 0 }

/-- The test for a service entry that nobody needs any more. -/
def dataRemoveEmptyServices (entry : ServiceDataEntry) : Bool :=
  entry.methods.length == 0 && entry.children.length == 0

/-- `data_remove_remote_entries_for_subscriber` -/
def dataRemoveRemoteEntriesForSubscriber (d : Data) (service : CString)
    (transportInfo : TransportInfo) : Data × List RemoteSync :=
  let removed := fun info : SubscriptionInfo =>
    info.service == service && transportInfoCompare info.transportInfo transportInfo
  ({ d with remoteSubscriptionsList := d.remoteSubscriptionsList.filter (!removed ·) },
    (d.remoteSubscriptionsList.filter removed).reverse.map .subscriptionRemoved)

/-- `data_remove_subscriber` -/
def dataRemoveSubscriber (d : Data) (service : CString) (transportInfo : TransportInfo) :
    Data × List RemoteSync :=
  let d := match d.localSubscriptionsTable.lookup service with
    | none => d
    | some entry =>
      let entry := entry.methods.foldl
        (fun entry method => dataRemoveTransportFromMethod entry method transportInfo) entry
      let entry := dataPruneEmptyMethods entry
      if dataRemoveEmptyServices entry then d.destroyService service
      else d.setService service entry
  dataRemoveRemoteEntriesForSubscriber d service transportInfo

/-- Whether the transport of a message has the given `s_addr`; only transports
of type tcp are looked at. -/
def hasAddr (addr : UInt32) (transportInfo : TransportInfo) : Bool :=
  match transportInfoToTransport transportInfo with
  | some (.tcp _ sockaddr _) => sockaddr.sinAddr == addr
  | _ => false

/-- `data_remove_clients_with_addr_from_method` -/
def dataRemoveClientsWithAddrFromMethod (method : MethodDataEntry) (addr : UInt32) :
    MethodDataEntry × Bool :=
  ({ method with transports := method.transports.filter (!hasAddr addr ·) },
    method.transports.any (hasAddr addr))

/-- `data_remove_local_entries_for_addr` -/
def dataRemoveLocalEntriesForAddr (entry : ServiceDataEntry) (addr : UInt32) : ServiceDataEntry :=
  let subscriberRemoved := entry.methods.any fun m => (dataRemoveClientsWithAddrFromMethod m addr).2
  let entry := { entry with
    methods := entry.methods.map fun m => (dataRemoveClientsWithAddrFromMethod m addr).1 }
  let entry := dataPruneEmptyMethods entry
  if subscriberRemoved then updatePublishersWithHostRemoval entry addr else entry

/-- `data_remove_local_subscriptions_for_addr` -/
def dataRemoveLocalSubscriptionsForAddr (d : Data) (addr : UInt32) : Data :=
  let table := d.localSubscriptionsTable.foreach fun _ entry =>
    dataRemoveLocalEntriesForAddr entry addr
  { d with
    localSubscriptionsTable := table.foreachRemove fun _ entry => dataRemoveEmptyServices entry }

/-! ## Publishers -/

/-- `data_add_publisher` -/
def dataAddPublisher (d : Data) (service : CString) (transportInfo : TransportInfo) : Option Data :=
  (transportInfoToTransport transportInfo).map fun transport =>
    let entry := getServiceEntryOrCreate d service
    let client : UpdateClient := ⟨d.nextClient, transport, []⟩
    let d := d.setService service { entry with children := client :: entry.children }
    { d with nextClient := d.nextClient + 1 }

/-- `data_remove_publisher` -/
def dataRemovePublisher (d : Data) (service : CString) (transportInfo : TransportInfo) :
    Option Data :=
  match d.localSubscriptionsTable.lookup service with
  | none => some d
  | some entry =>
    (transportInfoToTransport transportInfo).map fun transport =>
      d.setService service { entry with
        children := entry.children.eraseP (transportCompare ·.transport transport) }

/-- `data_get_subscription_info_for_service` -/
def dataGetSubscriptionInfoForService (d : Data) (service : CString) : List MethodDataEntry :=
  match d.localSubscriptionsTable.lookup service with
  | none => []
  | some entry => entry.methods

/-! ## The machine -/

inductive Op
  | addSubscription (info : SubscriptionInfo)
  | removeSubscription (info : SubscriptionInfo)
  | addLocalSubscription (info : SubscriptionInfo)
  | removeLocalSubscription (info : SubscriptionInfo)
  | removeSubscriber (service : CString) (transportInfo : TransportInfo)
  | removeLocalSubscriptionsForAddr (addr : UInt32)
  | addPublisher (service : CString) (transportInfo : TransportInfo)
  | removePublisher (service : CString) (transportInfo : TransportInfo)
deriving DecidableEq, Repr

/-- One operation on the data of the daemon. -/
def dataStep : Machine Data Op RemoteSync
  | d, .addSubscription info => dataAddSubscription d info
  | d, .removeSubscription info => some (dataRemoveSubscription d info)
  | d, .addLocalSubscription info => (dataAddLocalSubscription d info).map fun d => (d, [])
  | d, .removeLocalSubscription info => some (dataRemoveLocalSubscription d info, [])
  | d, .removeSubscriber service transportInfo =>
    some (dataRemoveSubscriber d service transportInfo)
  | d, .removeLocalSubscriptionsForAddr addr =>
    some (dataRemoveLocalSubscriptionsForAddr d addr, [])
  | d, .addPublisher service transportInfo =>
    (dataAddPublisher d service transportInfo).map fun d => (d, [])
  | d, .removePublisher service transportInfo =>
    (dataRemovePublisher d service transportInfo).map fun d => (d, [])

end Cmsg.Psd
