import Cmsg.Sld.EntryRun
import Cmsg.Sld.ProcessWatch

/-! # Listening for a process that has exited

`data_add_listener` with every outcome of opening the watch. Where the process does
not exist any more, `create_process_watch` removes everything recorded of it, while
its caller still holds pointers to the entry and to the listener. -/
namespace Cmsg.Sld
open Cmsg.Base Cmsg.Base.Runs

/-! ## The watch -/

/-- What `pidfd_open` comes to: a descriptor, `ESRCH`, or another error. -/
inductive PidfdOpen
  | opened
  | esrch
  | failed
deriving DecidableEq, Repr

/-- `create_process_watch`, for any process -/
def Daemon.createProcessWatch (pidfd : PidfdOpen) (sends : Nat → Nat → Bool) (t : Daemon)
    (pid : UInt32) : Daemon :=
  match pidfd with
  | .opened => { t with watches := Function.update t.watches pid (some 1) }
  | .esrch => { t with data := dataRemoveByPid sends t.data pid }
  | .failed => t

/-- `process_watch_add`, for any process -/
def Daemon.processWatchAdd (pidfd : PidfdOpen) (sends : Nat → Nat → Bool) (t : Daemon)
    (pid : UInt32) : Daemon :=
  match t.watches pid with
  | some ref => { t with watches := Function.update t.watches pid (some (ref + 1)) }
  | none => t.createProcessWatch pidfd sends pid

/-! ## The listener -/

/-- How `data_add_listener` ends: with the events that its loop sends on the new client,
or at the first use of an entry or of a listener that has been freed. -/
inductive Added
  | done (t : Daemon) (sent : List Effect)
  | entryFreed
  | listenerFreed

/-- The loop of `data_add_listener`, with the pointers to the entry and to the listener
from before the watch. -/
def Daemon.sendKnownServers (sends : Nat → Nat → Bool) (t : Daemon) (service : CString)
    (listener : ListenerData) : Added :=
  match t.data.hashTable.lookup service with
  | none => .entryFreed
  | some entry =>
    if entry.servers = [] then .done t []
    else if listener ∈ entry.listeners then
      let r := sendServers (sends listener.client) listener 0 entry.servers
      let listeners := if r.2 then entry.listeners else entry.listeners.erase listener
      .done
        ⟨t.data.setService service { entry with listeners }
            (r.1 ++ if r.2 then [] else [.processWatchRemove listener.pid]),
          if r.2 then t.watches else processWatchRemove t.watches listener.pid⟩ r.1
    else .listenerFreed

/-- The listener is recorded in the entry of its service. -/
def Daemon.recordListener (t : Daemon) (service : CString) (listener : ListenerData) : Daemon :=
  let entry := getServiceEntryOrCreate t.data service
  let d := t.data.setService service { entry with listeners := listener :: entry.listeners }
    [.processWatchAdd listener.pid]
  { t with data := { d with nextClient := d.nextClient + 1 } }

/-- `data_add_listener`, for any process -/
def Daemon.dataAddListener (pidfd : PidfdOpen) (sends : Nat → Nat → Bool) (t : Daemon)
    (info : ListenerInfo) : Option Added :=
  (transportInfoToTransport info.transportInfo).map fun transport =>
    let listener : ListenerData := ⟨t.data.nextClient, transport, info.id, info.pid⟩
    let t := (t.recordListener info.service listener).processWatchAdd pidfd sends info.pid
    t.sendKnownServers sends info.service listener

/-- The process has no watch yet and does not exist any more. -/
def ReportedGone (pidfd : PidfdOpen) (t : Daemon) (pid : UInt32) : Prop :=
  t.watches pid = none ∧ pidfd = .esrch

/-- Nothing that was freed is used. Of a process that is reported gone no listener
remains, and nothing was sent to it. -/
def Added.Settled (gone : Prop) (pid : UInt32) : Added → Prop
  | .done t sent => gone → (∀ service, ∀ l ∈ listenersOf t.data service, l.pid ≠ pid) ∧ sent = []
  | .entryFreed => False
  | .listenerFreed => False

/-- All servers of the entry are of the process itself, and a listener of another process
can be told that they are gone. -/
def Outlived (sends : Nat → Nat → Bool) (entry : ServiceDataEntry) (pid : UInt32) : Prop :=
  (∀ x ∈ entry.servers, serverOf pid x = true) ∧
    ∃ l ∈ entry.listeners, l.pid ≠ pid ∧ ∀ k < entry.servers.length, sends l.client k = true

/-! ## What the removal leaves -/

section
variable {sends : Nat → Nat → Bool} {pid : UInt32}

/-- The listeners that could be told of every server that is gone. -/
theorem mem_listeners_notifyRemoved (gone : List ServiceInfo) :
    ∀ (k : Nat) (entry : ServiceDataEntry) (l : ListenerData),
      l ∈ (notifyRemoved sends k entry gone).1.listeners ↔
        l ∈ entry.listeners ∧ ∀ i < gone.length, sends l.client (k + i) = true := by
  induction gone with
  | nil => simp [notifyRemoved]
  | cons serviceInfo gone ih =>
    intro k entry l
    have htold : l ∈ (notifyListeners (sends · k) serviceInfo entry false).1.listeners ↔
        l ∈ entry.listeners ∧ sends l.client k = true := List.mem_filter
    have hrest := ih (k + 1) (notifyListeners (sends · k) serviceInfo entry false).1 l
    rw [notifyRemoved, hrest, htold, and_assoc]
    refine and_congr_right fun _ => ⟨?_, fun hall => ⟨?_, fun i hi => ?_⟩⟩
    · rintro ⟨hfirst, hall⟩ i hi
      cases i with
      | zero => exact hfirst
      | succ i =>
        have hnext := hall i (Nat.lt_of_succ_lt_succ hi)
        rwa [Nat.add_assoc, Nat.add_comm 1] at hnext
    · exact hall 0 (Nat.succ_pos _)
    · have hnext := hall (i + 1) (Nat.succ_lt_succ hi)
      rwa [← Nat.add_assoc, Nat.add_right_comm] at hnext

theorem servers_removeByPid (entry : ServiceDataEntry) :
    (removeByPid sends pid entry).1.servers = entry.servers.filter (!serverOf pid ·) := by
  unfold removeByPid
  dsimp only
  rw [notifyRemoved_servers]
  rfl

theorem mem_listeners_removeByPid {entry : ServiceDataEntry} {l : ListenerData} :
    l ∈ (removeByPid sends pid entry).1.listeners ↔ l ∈ entry.listeners ∧ l.pid ≠ pid ∧
      ∀ k < (entry.servers.filter (serverOf pid)).length, sends l.client k = true := by
  have hmem := @mem_listeners_notifyRemoved sends (entry.servers.filter (serverOf pid)) 0
    { entry with listeners := entry.listeners.filter fun l => l.pid != pid } l
  rw [List.mem_filter, bne_iff_ne, and_assoc] at hmem
  simp only [Nat.zero_add] at hmem
  exact hmem

/-- What is left in use with the new listener, where all servers are of its process. -/
theorem outlived_iff {entry : ServiceDataEntry} {listener : ListenerData}
    (hpid : listener.pid = pid) :
    let left := (removeByPid sends pid
      { entry with listeners := listener :: entry.listeners }).1
    left.servers = [] ∧ left.listeners ≠ [] ↔ Outlived sends entry pid := by
  intro left
  have hservers : left.servers = [] ↔ ∀ x ∈ entry.servers, serverOf pid x = true := by
    rw [show left.servers = _ from servers_removeByPid _, List.filter_eq_nil_iff]
    simp
  rw [hservers, Outlived]
  refine and_congr_right fun hall => ?_
  have hgone : entry.servers.filter (serverOf pid) = entry.servers := List.filter_eq_self.mpr hall
  have hmem : ∀ l, l ∈ left.listeners ↔ l ∈ listener :: entry.listeners ∧ l.pid ≠ pid ∧
      ∀ k < entry.servers.length, sends l.client k = true := by
    intro l
    rw [← hgone]
    exact mem_listeners_removeByPid
  constructor
  · intro hne
    obtain ⟨l, hl⟩ := List.exists_mem_of_ne_nil _ hne
    obtain ⟨hlisteners, hother, hsends⟩ := (hmem l).mp hl
    rcases List.mem_cons.mp hlisteners with rfl | hlisteners
    · exact absurd hpid hother
    · exact ⟨l, hlisteners, hother, hsends⟩
  · intro ⟨l, hlisteners, hother, hsends⟩
    exact List.ne_nil_of_mem ((hmem l).mpr ⟨List.mem_cons_of_mem _ hlisteners, hother, hsends⟩)

/-- An entry survives with what is left in it, or is freed. -/
theorem lookup_dataRemoveByPid {d : Data} {s : CString} {entry : ServiceDataEntry}
    (hl : d.hashTable.lookup s = some entry) :
    let left := (removeByPid sends pid entry).1
    (dataRemoveByPid sends d pid).hashTable.lookup s =
      if left.servers = [] ∧ left.listeners = [] then none else some left := by
  intro left
  have hlookup : (dataRemoveByPid sends d pid).hashTable.lookup s =
      (some left).filter fun e => !(e.servers.isEmpty && e.listeners.isEmpty) := by
    rw [dataRemoveByPid, Data.foreachRemove, HashTable.lookup_foreachRemove,
      HashTable.lookup_foreach, hl]
    rfl
  rw [hlookup]
  cases hservers : left.servers with
  | nil =>
    cases hlisteners : left.listeners with
    | nil => simp [Option.filter, hservers, hlisteners]
    | cons l listeners => simp [Option.filter, hservers, hlisteners]
  | cons x servers => simp [Option.filter, hservers]

/-- No listener of the process is in any entry. -/
theorem listenersOf_dataRemoveByPid (d : Data) (service : CString) :
    ∀ l ∈ listenersOf (dataRemoveByPid sends d pid) service, l.pid ≠ pid := by
  intro l hl
  cases hentry : d.hashTable.lookup service with
  | none =>
    have hnone : (dataRemoveByPid sends d pid).hashTable.lookup service = none := by
      simp [dataRemoveByPid, Data.foreachRemove, hentry]
    rw [listenersOf, getServiceEntryOrCreate, hnone] at hl
    cases hl
  | some entry =>
    rw [listenersOf, dataRemoveByPid, getServiceEntryOrCreate_foreachRemove hentry] at hl
    exact (mem_listeners_removeByPid.mp hl).2.1

end

/-! ## Settling a listener -/

section
variable {pidfd : PidfdOpen} {sends : Nat → Nat → Bool} {t : Daemon} {info : ListenerInfo}

theorem lookup_recordListener (t : Daemon) (service : CString) (listener : ListenerData) :
    let entry := getServiceEntryOrCreate t.data service
    (t.recordListener service listener).data.hashTable.lookup service =
      some { entry with listeners := listener :: entry.listeners } :=
  HashTable.lookup_insert_self _ _ _

/-- A watch that finds the process leaves the data alone. -/
theorem processWatchAdd_of_not_gone (hgone : ¬ ReportedGone pidfd t info.pid) :
    t.processWatchAdd pidfd sends info.pid =
      ⟨t.data, processWatchAdd (pidfd = .opened) t.watches info.pid⟩ := by
  unfold Daemon.processWatchAdd processWatchAdd
  cases hwatch : t.watches info.pid with
  | some ref => rfl
  | none =>
    cases pidfd with
    | opened => rfl
    | esrch => exact absurd ⟨hwatch, rfl⟩ hgone
    | failed => rfl

theorem setService_setService (d : Data) (service : CString) (entry entry' : ServiceDataEntry)
    (effects effects' : List Effect) (n : Nat) :
    Data.setService { d.setService service entry effects with nextClient := n } service entry'
        effects' =
      { d.setService service entry' (effects ++ effects') with nextClient := n } := by
  unfold Data.setService
  congr 1
  · refine HashTable.ext fun k => ?_
    by_cases hk : k = service
    · simp [hk]
    · simp [hk]
  · funext s
    by_cases hs : s = service
    · simp [hs]
    · simp [hs]

/-- The watches follow what an operation on one service appends to its trace. -/
theorem watch_setService (t : Daemon) (opens : Bool) (service : CString) (entry : ServiceDataEntry)
    (effects : List Effect) (n : Nat) :
    t.watch opens service { t.data.setService service entry effects with nextClient := n } =
      ⟨{ t.data.setService service entry effects with nextClient := n },
        effects.foldl (watchStep opens) t.watches⟩ := by
  have htrace : (t.data.setService service entry effects).trace service =
      t.data.trace service ++ effects := if_pos rfl
  unfold Daemon.watch
  dsimp only
  rw [htrace, List.drop_left]

theorem setService_self {d : Data} {service : CString} {entry : ServiceDataEntry}
    (hl : d.hashTable.lookup service = some entry) : d.setService service entry [] = d := by
  have htable : d.hashTable.insert service entry = d.hashTable := by
    refine HashTable.ext fun k => ?_
    by_cases hk : k = service
    · rw [hk, HashTable.lookup_insert_self, hl]
    · exact HashTable.lookup_insert_of_ne _ hk _
  have htrace : (fun s => if s = service then d.trace s ++ [] else d.trace s) = d.trace := by
    funext s
    rw [List.append_nil, ite_self]
  unfold Data.setService
  rw [htable, htrace]

/-- The loop over the servers, while the entry and the listener are there. -/
theorem sendKnownServers_of_live {t : Daemon} {service : CString} {listener : ListenerData}
    {servers : List ServiceInfo} {listeners : List ListenerData} (opens : Bool)
    (hl : t.data.hashTable.lookup service = some ⟨servers, listener :: listeners⟩) :
    let r := sendServers (sends listener.client) listener 0 servers
    let removed := if r.2 then [] else [Effect.processWatchRemove listener.pid]
    t.sendKnownServers sends service listener =
      .done ⟨t.data.setService service
          ⟨servers, if r.2 then listener :: listeners else listeners⟩ (r.1 ++ removed),
        removed.foldl (watchStep opens) t.watches⟩ r.1 := by
  intro r removed
  unfold Daemon.sendKnownServers
  rw [hl]
  dsimp only
  cases hservers : servers with
  | nil =>
    have hr : r = ([], true) := by
      show sendServers (sends listener.client) listener 0 servers = _
      rw [hservers]
      rfl
    rw [hservers] at hl
    have hself := setService_self hl
    simp only [removed, hr, if_true]
    rw [List.append_nil, hself]
    rfl
  | cons serverInfo rest =>
    rw [← hservers, if_neg (by simp [hservers]), if_pos List.mem_cons_self, List.erase_cons_head]
    show Added.done ⟨_, if r.2 then _ else _⟩ r.1 = _
    cases hr : r.2 with
    | true => simp only [removed, hr, if_true]; rfl
    | false => simp only [removed, hr, Bool.false_eq_true, if_false]; rfl

/-- Where the process is not reported gone, this is the operation of the daemon whose
watches count its records. -/
theorem dataAddListener_of_not_gone (hgone : ¬ ReportedGone pidfd t info.pid) {r : Added}
    (hr : t.dataAddListener pidfd sends info = some r) :
    ∃ t' sent, r = .done t' sent ∧
      daemonStep t (.addListener info, ⟨sends, pidfd = .opened⟩) = some (t', []) := by
  obtain ⟨transport, htransport, rfl⟩ := Option.map_eq_some_iff.mp hr
  let listener : ListenerData := ⟨t.data.nextClient, transport, info.id, info.pid⟩
  let entry := getServiceEntryOrCreate t.data info.service
  have hadded := @processWatchAdd_of_not_gone pidfd sends (t.recordListener info.service listener)
    info hgone
  have hlive := @sendKnownServers_of_live sends
    ⟨(t.recordListener info.service listener).data,
      processWatchAdd (pidfd = .opened) (t.recordListener info.service listener).watches info.pid⟩
    info.service listener _ _ (pidfd = .opened) (lookup_recordListener t info.service listener)
  have hdata : (t.recordListener info.service listener).data =
      { t.data.setService info.service { entry with listeners := listener :: entry.listeners }
          [.processWatchAdd info.pid] with nextClient := t.data.nextClient + 1 } := rfl
  dsimp only at hlive ⊢
  rw [hadded, hlive, hdata, setService_setService]
  refine ⟨_, _, rfl, ?_⟩
  rw [daemonStep, dataAddListener, htransport, Option.map_some, Option.map_some, watch_setService,
    List.foldl_append, List.foldl_cons, watch_sendServers]
  rfl

/-- The rest of the function, once everything of the process has been removed. -/
theorem settled_of_gone (hgone : ReportedGone pidfd t info.pid) {r : Added}
    (hr : t.dataAddListener pidfd sends info = some r) :
    r.Settled (ReportedGone pidfd t info.pid) info.pid ↔
      Outlived sends (getServiceEntryOrCreate t.data info.service) info.pid := by
  obtain ⟨transport, htransport, rfl⟩ := Option.map_eq_some_iff.mp hr
  obtain ⟨hwatch, rfl⟩ := hgone
  let listener : ListenerData := ⟨t.data.nextClient, transport, info.id, info.pid⟩
  have hleft := @outlived_iff sends info.pid (getServiceEntryOrCreate t.data info.service)
    listener rfl
  have hlookup := @lookup_dataRemoveByPid sends info.pid _ _ _
    (lookup_recordListener t info.service listener)
  have hcreated : (t.recordListener info.service listener).processWatchAdd .esrch sends info.pid =
      { t.recordListener info.service listener with
        data := dataRemoveByPid sends (t.recordListener info.service listener).data info.pid } := by
    have hnone : (t.recordListener info.service listener).watches info.pid = none := hwatch
    unfold Daemon.processWatchAdd
    rw [hnone]
    rfl
  dsimp only at hlookup hleft ⊢
  rw [hcreated, ← hleft]
  unfold Daemon.sendKnownServers
  rw [hlookup]
  have hfreed : listener ∉ (removeByPid sends info.pid
      { getServiceEntryOrCreate t.data info.service with
        listeners := listener :: (getServiceEntryOrCreate t.data info.service).listeners }).1.listeners :=
    fun hmem => (mem_listeners_removeByPid.mp hmem).2.1 rfl
  generalize (removeByPid sends info.pid
    { getServiceEntryOrCreate t.data info.service with
      listeners := listener :: (getServiceEntryOrCreate t.data info.service).listeners }).1 = left
    at hfreed ⊢
  by_cases hservers : left.servers = []
  · by_cases hlisteners : left.listeners = []
    · -- the entry went with the last listener
      rw [if_pos ⟨hservers, hlisteners⟩]
      exact ⟨False.elim, fun h => h.2 hlisteners⟩
    · rw [if_neg fun h => hlisteners h.2]
      dsimp only
      rw [if_pos hservers]
      exact ⟨fun _ => ⟨hservers, hlisteners⟩,
        fun _ _ => ⟨listenersOf_dataRemoveByPid _, rfl⟩⟩
  · rw [if_neg fun h => hservers h.1]
    dsimp only
    rw [if_neg hservers, if_neg hfreed]
    exact ⟨False.elim, fun h => hservers h.1⟩

/-- **A listener of a process that has exited**: whatever the tables hold and however the
watch is opened, nothing that was freed is used and nothing of the process is left, exactly
where the process is not reported gone or the entry of the service outlives it without a
server. -/
theorem added_settled_iff :
    (∀ r, t.dataAddListener pidfd sends info = some r →
        r.Settled (ReportedGone pidfd t info.pid) info.pid) ↔
      (transportInfoToTransport info.transportInfo ≠ none → ReportedGone pidfd t info.pid →
        Outlived sends (getServiceEntryOrCreate t.data info.service) info.pid) := by
  constructor
  · intro hsettled htransport hgone
    obtain ⟨transport, htransport⟩ := Option.ne_none_iff_exists'.mp htransport
    obtain ⟨r, hr⟩ : ∃ r, t.dataAddListener pidfd sends info = some r := by
      rw [Daemon.dataAddListener, htransport]
      exact ⟨_, rfl⟩
    exact (settled_of_gone hgone hr).mp (hsettled _ hr)
  · intro houtlived r hr
    by_cases hgone : ReportedGone pidfd t info.pid
    · have htransport : transportInfoToTransport info.transportInfo ≠ none := by
        obtain ⟨transport, htransport, _⟩ := Option.map_eq_some_iff.mp hr
        simp [htransport]
      exact (settled_of_gone hgone hr).mpr (houtlived htransport hgone)
    · obtain ⟨t', sent, rfl, _⟩ := dataAddListener_of_not_gone hgone hr
      exact fun h => absurd h hgone

end

/-- A service with one server of another process -/
def servedDaemon : Daemon :=
  ⟨⟨HashTable.empty.insert [0x73] ⟨[sampleService 8], []⟩, 0, fun _ => []⟩, fun _ => none⟩

/-- The first listener of a service leaves a freed entry behind, and one of a service with
a server is told of it after it was freed. -/
theorem exited_listener_used :
    (∀ r, daemonInit.dataAddListener .esrch allSent.sends (sampleListener 7) = some r →
        ¬ r.Settled (ReportedGone .esrch daemonInit 7) 7) ∧
      servedDaemon.dataAddListener .esrch allSent.sends (sampleListener 7) = some .listenerFreed ∧
      daemonInit.dataAddListener .esrch allSent.sends (sampleListener 7) = some .entryFreed := by
  have hentry : daemonInit.dataAddListener .esrch allSent.sends (sampleListener 7) =
      some .entryFreed := rfl
  refine ⟨fun r hr => ?_, rfl, hentry⟩
  rw [hentry] at hr
  obtain rfl := Option.some.inj hr
  exact id

end Cmsg.Sld
