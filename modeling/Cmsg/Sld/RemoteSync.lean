import Cmsg.Sld.EntryRun

/-! # Telling other hosts

The daemon of one host tells those of other hosts about the servers that use the
address it syncs with: all of them when a host is added, and every change from
then on. A message that arrives is applied to the table, whoever sent it. -/
namespace Cmsg.Sld
open Cmsg.Base Cmsg.Base.Runs

/-- The calls of the service `remote_sync`. -/
inductive SyncMessage
  | bulkSync (data : List ServiceInfo)
  | addServer (serverInfo : ServiceInfo)
  | removeServer (serverInfo : ServiceInfo)
deriving DecidableEq, Repr

/-- The state of one daemon: the data, whether `remote_sync_server` exists,
`local_ip_addr`, and the addresses of the children of `comp_client`. -/
structure Host where
  data : Data
  remoteSyncServer : Bool
  localIpAddr : UInt32
  compClient : Option (List UInt32)

def hostInit : Host := ⟨dataInit, false, 0, none⟩

/-- `CMSG_TRANSPORT_INFO_TYPE_TCP` -/
def isTcp (serverInfo : ServiceInfo) : Bool :=
  match serverInfo.serverInfo.data with
  | .tcpInfo _ => true
  | .unixInfo _ => false

/-! ## Messages to the other hosts -/

/-- `remote_sync_server_added_removed`: one message to each child. -/
def remoteSyncServerAddedRemoved (t : Host) (serverInfo : ServiceInfo) (added : Bool) :
    List (UInt32 × SyncMessage) :=
  match t.compClient, serverInfo.serverInfo.data with
  | none, _ => []
  | _, .unixInfo _ => []
  | some children, .tcpInfo info =>
    match info.addr with
    | .ipv6 _ => []
    | .ipv4 addr =>
      if addr ≠ t.localIpAddr then []
      else children.map fun child =>
        (child, if added then .addServer serverInfo else .removeServer serverInfo)

/-- The messages that an effect on the data comes with. -/
def effectMessages (t : Host) : Effect → List (UInt32 × SyncMessage)
  | .remoteSyncServerAdded serverInfo => remoteSyncServerAddedRemoved t serverInfo true
  | .remoteSyncServerRemoved serverInfo => remoteSyncServerAddedRemoved t serverInfo false
  | _ => []

/-- What was added to the trace of a service. -/
def newEffects (d d' : Data) (service : CString) : List Effect :=
  (d'.trace service).drop (d.trace service).length

/-- The end of an operation on the data, which came to the services in the given
order. -/
def Host.update (t : Host) (d : Data) (order : List CString) :
    Host × List (UInt32 × SyncMessage) :=
  ({ t with data := d },
    order.flatMap fun s => (newEffects t.data d s).flatMap (effectMessages t))

/-- `data_get_servers_by_addr` -/
def dataGetServersByAddr (d : Data) (addr : UInt32) (order : List CString) : List ServiceInfo :=
  (order.flatMap fun s => (getServiceEntryOrCreate d s).servers.filter (serverHasAddr addr)).reverse

/-- `remote_sync_address_set`; `created` tells whether the server could be created. -/
def remoteSyncAddressSet (t : Host) (addr : UInt32) (created : Bool) : Host :=
  if t.remoteSyncServer then t
  else { t with remoteSyncServer := created, localIpAddr := addr }

/-- `remote_sync_add_host`, with `remote_sync_bulk_sync_services` -/
def remoteSyncAddHost (t : Host) (addr : UInt32) (order : List CString) :
    Host × List (UInt32 × SyncMessage) :=
  ({ t with compClient := some (addr :: t.compClient.getD []) },
    [(addr, .bulkSync (dataGetServersByAddr t.data t.localIpAddr order))])

/-- `remote_sync_delete_host` -/
def remoteSyncDeleteHost (t : Host) (addr : UInt32) : Host :=
  match t.compClient with
  | none => t
  | some children =>
    let children := children.erase addr
    { t with compClient := if children = [] then none else some children }

/-! ## Messages from the other hosts -/

/-- The loop of `cmsg_sld_remote_sync_impl_bulk_sync`; an entry is added with the
two notifications from the `k`-th on. -/
def bulkSyncLoop (sends : Nat → Nat → Bool) :
    Nat → Host → List ServiceInfo → Host × List (UInt32 × SyncMessage)
  | _, t, [] => (t, [])
  | k, t, info :: rest =>
    if isTcp info then
      let r := t.update (dataAddServer (fun client j => sends client (k + j)) t.data info false)
        [info.service]
      let q := bulkSyncLoop sends (k + 2) r.1 rest
      (q.1, r.2 ++ q.2)
    else bulkSyncLoop sends k t rest

/-- `cmsg_sld_remote_sync_impl_bulk_sync`, `_add_server` and `_remove_server` -/
def remoteSyncImpl (sends : Nat → Nat → Bool) (t : Host) :
    SyncMessage → Host × List (UInt32 × SyncMessage)
  | .bulkSync data => bulkSyncLoop sends 0 t data
  | .addServer info =>
    if isTcp info then t.update (dataAddServer sends t.data info false) [info.service] else (t, [])
  | .removeServer info =>
    if isTcp info then t.update (dataRemoveServer sends t.data info false) [info.service]
    else (t, [])

/-! ## The machine -/

/-- The operations of a host. Where one comes to all services, `order` is the order
in which the hash table is iterated over. -/
inductive HostOp
  | addressSet (addr : UInt32) (created : Bool)
  | addHost (addr : UInt32) (order : List CString)
  | deleteHost (addr : UInt32) (sends : Nat → Nat → Bool) (order : List CString)
  | onData (op : Op) (sends : Nat → Nat → Bool) (order : List CString)
  | receive (message : SyncMessage) (sends : Nat → Nat → Bool)

/-- The services that an operation on the data comes to. -/
def Op.services : Op → List CString → List CString
  | .addServer serverInfo _, _ => [serverInfo.service]
  | .removeServer serverInfo _, _ => [serverInfo.service]
  | .addListener info, _ => [info.service]
  | .removeListener info, _ => [info.service]
  | .removeServersByAddr _, order => order
  | .removeByPid _, order => order

/-- `cmsg_sld_configuration_impl_delete_host` -/
def configurationImplDeleteHost (sends : Nat → Nat → Bool) (t : Host) (addr : UInt32)
    (order : List CString) : Host × List (UInt32 × SyncMessage) :=
  let t := remoteSyncDeleteHost t addr
  t.update (dataRemoveServersByAddr sends t.data addr) order

/-- One operation of a host; the outputs are the messages it sends, and to whom. -/
def hostStep : Machine Host HostOp (UInt32 × SyncMessage)
  | t, .addressSet addr created => some (remoteSyncAddressSet t addr created, [])
  | t, .addHost addr order => some (remoteSyncAddHost t addr order)
  | t, .deleteHost addr sends order => some (configurationImplDeleteHost sends t addr order)
  | t, .onData op sends order =>
    (dataStep t.data (op, sends)).map fun r => t.update r.1 (op.services order)
  | t, .receive message sends => some (remoteSyncImpl sends t message)

/-! ## What a host's data goes through -/

/-- The servers that a message adds. -/
def SyncMessage.Adds : SyncMessage → ServiceInfo → Prop
  | .bulkSync data, x => ∃ info ∈ data, isTcp info = true ∧ x = { info with isLocal := false }
  | .addServer info, x => isTcp info = true ∧ x = { info with isLocal := false }
  | .removeServer _, _ => False

/-- The servers that an operation adds. -/
def HostOp.Adds : HostOp → ServiceInfo → Prop
  | .onData op _ _, x => op.Adds x
  | .receive message _, x => message.Adds x
  | _, _ => False

section
variable {t t' : Host} {P : ServiceInfo → Prop}

@[simp] theorem update_fst (t : Host) (d : Data) (order : List CString) :
    (t.update d order).1 = { t with data := d } := rfl

@[simp] theorem remoteSyncDeleteHost_data (t : Host) (addr : UInt32) :
    (remoteSyncDeleteHost t addr).data = t.data := by
  unfold remoteSyncDeleteHost
  split
  · rfl
  · rfl

theorem remoteSyncImpl_addServer (sends : Nat → Nat → Bool) (t : Host) (info : ServiceInfo) :
    remoteSyncImpl sends t (.addServer info) =
      if isTcp info then t.update (dataAddServer sends t.data info false) [info.service]
      else (t, []) := rfl

theorem remoteSyncImpl_removeServer (sends : Nat → Nat → Bool) (t : Host) (info : ServiceInfo) :
    remoteSyncImpl sends t (.removeServer info) =
      if isTcp info then t.update (dataRemoveServer sends t.data info false) [info.service]
      else (t, []) := rfl

theorem runs_bulkSyncLoop (sends : Nat → Nat → Bool) {data : List ServiceInfo} (k : Nat)
    (hok : DataOk t.data) (hP : ∀ info ∈ data, isTcp info = true → P { info with isLocal := false }) :
    DataOk (bulkSyncLoop sends k t data).1.data ∧
      Runs P t.data (bulkSyncLoop sends k t data).1.data := by
  induction data generalizing k t with
  | nil => exact ⟨hok, runs_refl t.data⟩
  | cons info rest ih =>
    have hrest : ∀ info' ∈ rest, isTcp info' = true → P { info' with isLocal := false } :=
      fun info' hmem => hP info' (List.mem_cons_of_mem _ hmem)
    unfold bulkSyncLoop
    split
    · next htcp =>
      have hadded := hP info List.mem_cons_self htcp
      have hok₁ := dataOk_addServer hok (fun client j => sends client (k + j)) info false
      have hrun := runs_addServer hok (fun client j => sends client (k + j)) info false hadded
      obtain ⟨hok₂, hrun₂⟩ := ih (t := { t with data := _ }) (k + 2) hok₁ hrest
      exact ⟨hok₂, hrun.trans hrun₂⟩
    · exact ih k hok hrest

/-- One operation of a host is a run of every service. -/
theorem runs_hostStep {op : HostOp} {o : List (UInt32 × SyncMessage)} (hok : DataOk t.data)
    (hs : hostStep t op = some (t', o)) : DataOk t'.data ∧ Runs op.Adds t.data t'.data := by
  cases op with
  | addressSet addr created =>
    obtain ⟨rfl, _⟩ := Prod.mk.inj (Option.some.inj hs)
    unfold remoteSyncAddressSet
    split
    · exact ⟨hok, runs_refl t.data⟩
    · exact ⟨hok, runs_refl t.data⟩
  | addHost addr order =>
    obtain ⟨rfl, _⟩ := Prod.mk.inj (Option.some.inj hs)
    exact ⟨hok, runs_refl t.data⟩
  | deleteHost addr sends order =>
    obtain ⟨rfl, _⟩ := Prod.mk.inj (Option.some.inj hs)
    simp only [remoteSyncDeleteHost_data]
    exact ⟨dataOk_removeServersByAddr hok sends addr, runs_removeServersByAddr sends addr⟩
  | onData op sends order =>
    obtain ⟨⟨d, o'⟩, hd, he⟩ := Option.map_eq_some_iff.mp hs
    obtain ⟨rfl, _⟩ := Prod.mk.inj he
    exact ⟨dataOk_step hok hd, runs_step hok hd⟩
  | receive message sends =>
    have he := congrArg Prod.fst (Option.some.inj hs)
    cases message with
    | bulkSync data =>
      subst he
      exact runs_bulkSyncLoop sends 0 hok fun info hmem htcp => ⟨info, hmem, htcp, rfl⟩
    | addServer info =>
      rw [remoteSyncImpl_addServer] at he
      split at he
      · next htcp =>
        subst he
        exact ⟨dataOk_addServer hok sends info false,
          runs_addServer hok sends info false ⟨htcp, rfl⟩⟩
      · subst he
        exact ⟨hok, runs_refl t.data⟩
    | removeServer info =>
      rw [remoteSyncImpl_removeServer] at he
      split at he
      · subst he
        exact ⟨dataOk_removeServer hok sends info false, runs_removeServer sends info false⟩
      · subst he
        exact ⟨hok, runs_refl t.data⟩

end

end Cmsg.Sld
