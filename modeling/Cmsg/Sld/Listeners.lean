import Cmsg.Base.Changes
import Cmsg.Sld.Data

/-! # What listeners know

The purpose of the events: whoever replays the events sent on the client of a
listener knows the servers of its service. Servers are told apart by their
endpoints. -/
namespace Cmsg.Sld
open Cmsg.Base Cmsg.Base.Runs Cmsg.Base.Change

/-- What `cmsg_transport_info_compare` tells servers apart by. -/
def serverKey (serviceInfo : ServiceInfo) : Endpoint := serviceInfo.serverInfo.endpoint

/-- The events sent to one client, as changes of the set of servers. -/
def eventsTo (client : Nat) (trace : List Effect) : List (Change ServiceInfo) :=
  trace.filterMap fun
    | .serverAdded c event => if c = client then some (.added event.serviceInfo) else none
    | .serverRemoved c event => if c = client then some (.removed event.serviceInfo) else none
    | _ => none

/-- The servers and listeners of one service and the trace that led to them. -/
structure ServiceOk (next : Nat) (servers : List ServiceInfo) (listeners : List ListenerData)
    (trace : List Effect) : Prop where
  distinct : (servers.map serverKey).Nodup
  clients : (listeners.map (·.client)).Nodup
  known : ∀ l ∈ listeners, l.client < next
  fresh : ∀ c, next ≤ c → eventsTo c trace = []
  alternates : ∀ c, Alternates serverKey (eventsTo c trace)
  followed : ∀ l ∈ listeners, Followed serverKey (eventsTo l.client trace) servers

theorem findServer_eq (a b : ServiceInfo) : findServer a b = (serverKey a == serverKey b) := by
  rw [Bool.eq_iff_iff, beq_iff_eq]
  exact transportInfoCompare_iff _ _

@[simp] theorem eventsTo_append (c : Nat) (t t' : List Effect) :
    eventsTo c (t ++ t') = eventsTo c t ++ eventsTo c t' :=
  List.filterMap_append ..

theorem serviceOk_nil (next : Nat) : ServiceOk next [] [] [] where
  distinct := List.nodup_nil
  clients := List.nodup_nil
  known _ h := by cases h
  fresh _ _ := rfl
  alternates _ := alternates_nil
  followed _ h := by cases h

section
variable {next : Nat} {servers : List ServiceInfo} {listeners : List ListenerData}
  {trace : List Effect}

/-! ## Steps that tell the listeners nothing -/

theorem ServiceOk.quiet (h : ServiceOk next servers listeners trace) {effects : List Effect}
    (hq : ∀ c, eventsTo c effects = []) : ServiceOk next servers listeners (trace ++ effects) where
  distinct := h.distinct
  clients := h.clients
  known := h.known
  fresh c hc := by rw [eventsTo_append, h.fresh c hc, hq, List.append_nil]
  alternates c := by rw [eventsTo_append, hq, List.append_nil]; exact h.alternates c
  followed l hl := by rw [eventsTo_append, hq, List.append_nil]; exact h.followed l hl

theorem ServiceOk.drop (h : ServiceOk next servers listeners trace) {listeners' : List ListenerData}
    (hs : listeners'.Sublist listeners) : ServiceOk next servers listeners' trace where
  distinct := h.distinct
  clients := (hs.map _).nodup h.clients
  known l hl := h.known l (hs.mem hl)
  fresh := h.fresh
  alternates := h.alternates
  followed l hl := h.followed l (hs.mem hl)

theorem ServiceOk.congr (h : ServiceOk next servers listeners trace) {servers' : List ServiceInfo}
    (hp : servers.Perm servers') : ServiceOk next servers' listeners trace where
  distinct := (hp.map _).nodup_iff.mp h.distinct
  clients := h.clients
  known := h.known
  fresh := h.fresh
  alternates := h.alternates
  followed l hl := (h.followed l hl).congr hp

theorem ServiceOk.mono (h : ServiceOk next servers listeners trace) {next' : Nat}
    (hn : next ≤ next') : ServiceOk next' servers listeners trace where
  distinct := h.distinct
  clients := h.clients
  known l hl := Nat.lt_of_lt_of_le (h.known l hl) hn
  fresh c hc := h.fresh c (Nat.le_trans hn hc)
  alternates := h.alternates
  followed := h.followed

/-! ## Notifications -/

/-- A notification is one event for every listener of the service. -/
theorem eventsTo_notifyListeners (sends : Nat → Bool) (serverInfo : ServiceInfo)
    (entry : ServiceDataEntry) (added : Bool) (c : Nat)
    (hu : (entry.listeners.map (·.client)).Nodup) :
    eventsTo c (notifyListeners sends serverInfo entry added).2 =
      if c ∈ entry.listeners.map (·.client) then
        [if added then .added serverInfo else .removed serverInfo]
      else [] := by
  obtain ⟨servers, listeners⟩ := entry
  simp only [notifyListeners]
  induction listeners with
  | nil => rfl
  | cons l listeners ih =>
    rw [List.map_cons, List.nodup_cons] at hu
    have hhead : eventsTo c [if added then Effect.serverAdded l.client ⟨serverInfo, l.id⟩
        else .serverRemoved l.client ⟨serverInfo, l.id⟩] =
          if l.client = c then [if added then .added serverInfo else .removed serverInfo]
          else [] := by
      by_cases hc : l.client = c
      · cases added <;> simp [eventsTo, hc]
      · cases added <;> simp [eventsTo, hc]
    rw [List.map_cons, ← List.singleton_append, eventsTo_append, ih hu.2, hhead]
    by_cases hc : l.client = c
    · subst hc
      simp [hu.1]
    · simp [hc, Ne.symm hc]

/-- What a notification does to all the listeners of a service. -/
theorem ServiceOk.notify (h : ServiceOk next servers listeners trace) (sends : Nat → Bool)
    (serverInfo : ServiceInfo) (added : Bool) (stored : List ServiceInfo) {servers' : List ServiceInfo}
    (hs : (servers'.map serverKey).Nodup)
    (hf : ∀ log, Followed serverKey log servers →
      Followed serverKey (log ++ [if added then .added serverInfo else .removed serverInfo])
        servers') :
    ServiceOk next servers'
      (notifyListeners sends serverInfo ⟨stored, listeners⟩ added).1.listeners
      (trace ++ (notifyListeners sends serverInfo ⟨stored, listeners⟩ added).2) := by
  have hevents := fun c =>
    eventsTo_notifyListeners sends serverInfo ⟨stored, listeners⟩ added c h.clients
  have hsub : ((notifyListeners sends serverInfo ⟨stored, listeners⟩ added).1.listeners).Sublist
      listeners := List.filter_sublist
  have htold : ∀ l ∈ listeners, Followed serverKey (eventsTo l.client
      (trace ++ (notifyListeners sends serverInfo ⟨stored, listeners⟩ added).2)) servers' := by
    intro l hl
    rw [eventsTo_append, hevents, if_pos (List.mem_map_of_mem hl)]
    exact hf _ (h.followed l hl)
  refine ⟨hs, (hsub.map _).nodup h.clients, fun l hl => h.known l (hsub.mem hl), fun c hc => ?_,
    fun c => ?_, fun l hl => htold l (hsub.mem hl)⟩
  · have hnot : c ∉ listeners.map (·.client) := by
      intro hmem
      obtain ⟨l, hl, rfl⟩ := List.mem_map.mp hmem
      exact absurd (h.known l hl) (Nat.not_lt.mpr hc)
    rw [eventsTo_append, h.fresh c hc, hevents, if_neg hnot]
    rfl
  · by_cases hc : c ∈ listeners.map (·.client)
    · obtain ⟨l, hl, rfl⟩ := List.mem_map.mp hc
      exact (htold l hl).alternates
    · rw [eventsTo_append, hevents, if_neg hc, List.append_nil]
      exact h.alternates c

theorem ServiceOk.notifyAdded (h : ServiceOk next servers listeners trace) (sends : Nat → Bool)
    {serverInfo : ServiceInfo} (stored : List ServiceInfo)
    (hnew : serverKey serverInfo ∉ servers.map serverKey) :
    ServiceOk next (serverInfo :: servers)
      (notifyListeners sends serverInfo ⟨stored, listeners⟩ true).1.listeners
      (trace ++ (notifyListeners sends serverInfo ⟨stored, listeners⟩ true).2) :=
  h.notify sends serverInfo true stored (List.nodup_cons.mpr ⟨hnew, h.distinct⟩) fun _ hf => hf.add hnew

theorem ServiceOk.notifyRemoved (h : ServiceOk next servers listeners trace) (sends : Nat → Bool)
    {serverInfo : ServiceInfo} (stored : List ServiceInfo)
    (hold : serverKey serverInfo ∈ servers.map serverKey) :
    ServiceOk next (servers.eraseP (findServer · serverInfo))
      (notifyListeners sends serverInfo ⟨stored, listeners⟩ false).1.listeners
      (trace ++ (notifyListeners sends serverInfo ⟨stored, listeners⟩ false).2) := by
  have hfind : (findServer · serverInfo) = fun b => serverKey b == serverKey serverInfo :=
    funext fun b => findServer_eq b serverInfo
  rw [hfind]
  exact h.notify sends serverInfo false stored ((List.eraseP_sublist.map _).nodup h.distinct)
    fun _ hf => hf.remove h.distinct hold

/-- The loops over servers that are gone. -/
theorem ServiceOk.notifyAllRemoved (sends : Nat → Nat → Bool) (k : Nat)
    (stored : List ServiceInfo) {gone : List ServiceInfo} (h : ServiceOk next (gone ++ servers) listeners trace) :
    (Sld.notifyRemoved sends k ⟨stored, listeners⟩ gone).1.servers = stored ∧
      ServiceOk next servers (Sld.notifyRemoved sends k ⟨stored, listeners⟩ gone).1.listeners
        (trace ++ (Sld.notifyRemoved sends k ⟨stored, listeners⟩ gone).2) := by
  induction gone generalizing k listeners trace with
  | nil => exact ⟨rfl, by simpa [Sld.notifyRemoved] using h⟩
  | cons serviceInfo gone ih =>
    have hmem : serverKey serviceInfo ∈ (serviceInfo :: gone ++ servers).map serverKey := by simp
    have h₁ := h.notifyRemoved (sends · k) stored hmem
    have hself : findServer serviceInfo serviceInfo = true := by simp [findServer_eq]
    rw [List.cons_append, List.eraseP_cons_of_pos (p := (findServer · serviceInfo)) hself] at h₁
    have hquiet : ∀ c, eventsTo c [.remoteSyncServerRemoved serviceInfo] = [] := fun _ => rfl
    have h₂ := h₁.quiet hquiet
    obtain ⟨hstored, h₃⟩ := ih (k + 1) h₂
    refine ⟨hstored, ?_⟩
    rw [List.append_assoc, List.append_assoc] at h₃
    exact h₃

/-! ## Registering a listener -/

theorem eventsTo_sendServers (sends : Nat → Bool) (listener : ListenerData) (c : Nat) :
    ∀ (k : Nat) (servers : List ServiceInfo), ∃ told,
      told <+: servers ∧ ((sendServers sends listener k servers).2 = true → told = servers) ∧
      eventsTo c (sendServers sends listener k servers).1 =
        if listener.client = c then told.map .added else [] := by
  intro k servers
  induction servers generalizing k with
  | nil => exact ⟨[], List.prefix_rfl, fun _ => rfl, by simp [sendServers, eventsTo]⟩
  | cons serverInfo servers ih =>
    unfold sendServers
    by_cases hk : sends k = true
    · obtain ⟨told, htold, hall, hevents⟩ := ih (k + 1)
      refine ⟨serverInfo :: told, (List.prefix_cons_inj serverInfo).mpr htold, ?_, ?_⟩
      · intro hok
        simp only [if_pos hk] at hok
        rw [hall hok]
      · simp only [if_pos hk]
        rw [← List.singleton_append, eventsTo_append, hevents]
        by_cases hc : listener.client = c
        · simp [eventsTo, hc]
        · simp [eventsTo, hc]
    · refine ⟨[serverInfo], ⟨servers, rfl⟩, ?_, ?_⟩
      · intro hok
        simp [hk] at hok
      · simp only [if_neg hk]
        by_cases hc : listener.client = c
        · simp [eventsTo, hc]
        · simp [eventsTo, hc]

theorem ServiceOk.addListener (h : ServiceOk next servers listeners trace)
    (sends : Nat → Bool) {listener : ListenerData} (hclient : listener.client = next) :
    ServiceOk (next + 1) servers
      (if (sendServers sends listener 0 servers).2 then listener :: listeners else listeners)
      (trace ++ (sendServers sends listener 0 servers).1) := by
  have hnot : ∀ l ∈ listeners, l.client ≠ next := fun l hl => Nat.ne_of_lt (h.known l hl)
  have hevents := fun c => eventsTo_sendServers sends listener c 0 servers
  -- the new listener is told a prefix of the servers, the others nothing
  obtain ⟨told, htold, hall, hnew⟩ := hevents next
  rw [if_pos hclient] at hnew
  have hothers : ∀ c, c ≠ next → eventsTo c (sendServers sends listener 0 servers).1 = [] := by
    intro c hc
    obtain ⟨_, _, _, he⟩ := hevents c
    rw [he, if_neg (hclient ▸ Ne.symm hc)]
  have hfollowed : Followed serverKey (told.map .added) told := by
    have hnodup : ((told ++ []).map serverKey).Nodup := by
      rw [List.append_nil]
      exact (htold.sublist.map _).nodup h.distinct
    simpa using followed_nil.addAll hnodup
  have hbase : ServiceOk (next + 1) servers listeners
      (trace ++ (sendServers sends listener 0 servers).1) := by
    refine ⟨h.distinct, h.clients, fun l hl => Nat.lt_succ_of_lt (h.known l hl), fun c hc => ?_,
      fun c => ?_, fun l hl => ?_⟩
    · rw [eventsTo_append, h.fresh c (Nat.le_of_succ_le hc), hothers c (by omega)]
      rfl
    · by_cases hc : c = next
      · rw [hc, eventsTo_append, h.fresh next (Nat.le_refl _), hnew]
        exact hfollowed.alternates
      · rw [eventsTo_append, hothers c hc, List.append_nil]
        exact h.alternates c
    · rw [eventsTo_append, hothers _ (hnot l hl), List.append_nil]
      exact h.followed l hl
  split
  · next hok =>
    refine ⟨hbase.distinct, ?_, ?_, hbase.fresh, hbase.alternates, ?_⟩
    · refine List.nodup_cons.mpr ⟨fun hmem => ?_, h.clients⟩
      obtain ⟨l, hl, he⟩ := List.mem_map.mp hmem
      exact hnot l hl (he.trans hclient)
    · intro l hl
      rcases List.mem_cons.mp hl with rfl | hl
      · omega
      · exact hbase.known l hl
    · intro l hl
      rcases List.mem_cons.mp hl with rfl | hl
      · rw [hclient, eventsTo_append, h.fresh next (Nat.le_refl _), hnew]
        exact hall hok ▸ hfollowed
      · exact hbase.followed l hl
  · exact hbase

end

/-! ## The operations -/

def DataOk (d : Data) : Prop := ∀ s, ServiceOk d.nextClient (getServiceEntryOrCreate d s).servers
  (getServiceEntryOrCreate d s).listeners (d.trace s)

theorem dataOk_init : DataOk dataInit := fun _ => serviceOk_nil 0

theorem getServiceEntryOrCreate_of_lookup {d : Data} {s : CString} {e : ServiceDataEntry}
    (h : d.hashTable.lookup s = some e) : getServiceEntryOrCreate d s = e := by
  rw [getServiceEntryOrCreate, h]
  rfl

theorem DataOk.setServiceNext {d : Data} (h : DataOk d) {service : CString}
    {entry : ServiceDataEntry} {effects : List Effect} {next : Nat} (hn : d.nextClient ≤ next)
    (he : ServiceOk next entry.servers entry.listeners (d.trace service ++ effects)) :
    DataOk { d.setService service entry effects with nextClient := next } := by
  intro s
  by_cases hs : s = service
  · subst hs
    simpa [getServiceEntryOrCreate, Data.setService] using he
  · simpa [getServiceEntryOrCreate, Data.setService, hs] using (h s).mono hn

theorem DataOk.setService {d : Data} (h : DataOk d) {service : CString} {entry : ServiceDataEntry}
    {effects : List Effect}
    (he : ServiceOk d.nextClient entry.servers entry.listeners (d.trace service ++ effects)) :
    DataOk (d.setService service entry effects) :=
  h.setServiceNext (Nat.le_refl _) he

/-- Destroying an empty entry is not noticed. -/
theorem getServiceEntryOrCreate_removeIfEmpty (d : Data) (service s : CString) :
    getServiceEntryOrCreate (dataRemoveServiceDataEntryIfEmpty d service) s =
      getServiceEntryOrCreate d s := by
  unfold dataRemoveServiceDataEntryIfEmpty
  split
  · next hl =>
    by_cases hs : s = service
    · subst hs
      rw [getServiceEntryOrCreate_of_lookup hl]
      simp [getServiceEntryOrCreate]
    · simp [getServiceEntryOrCreate, hs]
  · rfl

theorem DataOk.removeIfEmpty {d : Data} (h : DataOk d) (service : CString) :
    DataOk (dataRemoveServiceDataEntryIfEmpty d service) := by
  intro s
  rw [getServiceEntryOrCreate_removeIfEmpty]
  unfold dataRemoveServiceDataEntryIfEmpty
  split
  · exact h s
  · exact h s

theorem getServiceEntryOrCreate_foreachRemove {d : Data} {s : CString} {entry : ServiceDataEntry}
    (hl : d.hashTable.lookup s = some entry) (f : ServiceDataEntry → ServiceDataEntry × List Effect) :
    getServiceEntryOrCreate (d.foreachRemove f) s = (f entry).1 := by
  cases hfe : (f entry).1 with
  | mk servers listeners =>
    cases servers <;> cases listeners <;>
      simp [getServiceEntryOrCreate, Data.foreachRemove, hl, hfe, Option.filter]

theorem DataOk.foreachRemove {d : Data} (h : DataOk d)
    {f : ServiceDataEntry → ServiceDataEntry × List Effect}
    (hf : ∀ entry trace, ServiceOk d.nextClient entry.servers entry.listeners trace →
      ServiceOk d.nextClient (f entry).1.servers (f entry).1.listeners (trace ++ (f entry).2)) :
    DataOk (d.foreachRemove f) := by
  intro s
  have hs := h s
  cases hl : d.hashTable.lookup s with
  | none => simpa [getServiceEntryOrCreate, Data.foreachRemove, hl] using hs
  | some entry =>
    rw [getServiceEntryOrCreate_of_lookup hl] at hs
    have htrace : (d.foreachRemove f).trace s = d.trace s ++ (f entry).2 := by
      simp [Data.foreachRemove, hl]
    rw [getServiceEntryOrCreate_foreachRemove hl, htrace]
    exact hf entry (d.trace s) hs

theorem dataOk_removeServer {d : Data} (h : DataOk d) (sends : Nat → Nat → Bool)
    (serverInfo : ServiceInfo) (isLocal : Bool) :
    DataOk (dataRemoveServer sends d serverInfo isLocal) := by
  unfold dataRemoveServer
  cases hl : d.hashTable.lookup serverInfo.service with
  | none => exact h
  | some entry =>
    dsimp only
    split
    · next hany =>
      have hs := h serverInfo.service
      rw [getServiceEntryOrCreate_of_lookup hl] at hs
      have hmem : serverKey serverInfo ∈ entry.servers.map serverKey := by
        obtain ⟨b, hb, hfound⟩ := List.any_eq_true.mp hany
        rw [findServer_eq, beq_iff_eq] at hfound
        exact List.mem_map.mpr ⟨b, hb, hfound⟩
      refine (h.setService ?_).removeIfEmpty _
      rw [← List.append_assoc]
      refine (hs.notifyRemoved (sends · 0) _ hmem).quiet fun c => ?_
      split <;> rfl
    · exact h

/-- No server equal to one that was just removed is recorded. -/
theorem removeServer_fresh {d : Data} (h : DataOk d) (sends : Nat → Nat → Bool)
    (serverInfo : ServiceInfo) (isLocal : Bool) :
    serverKey serverInfo ∉ (getServiceEntryOrCreate (dataRemoveServer sends d serverInfo isLocal)
      serverInfo.service).servers.map serverKey := by
  unfold dataRemoveServer
  cases hl : d.hashTable.lookup serverInfo.service with
  | none => simp [getServiceEntryOrCreate, hl]
  | some entry =>
    have hs := h serverInfo.service
    rw [getServiceEntryOrCreate_of_lookup hl] at hs
    dsimp only
    split
    · rw [getServiceEntryOrCreate_removeIfEmpty]
      have hservers : ((entry.servers.eraseP (findServer · serverInfo)).map serverKey) =
          (entry.servers.map serverKey).erase (serverKey serverInfo) :=
        List.map_eraseP_eq_erase fun a _ => by rw [findServer_eq, beq_iff_eq]
      have hgone := hs.distinct.not_mem_erase (a := serverKey serverInfo)
      rw [← hservers] at hgone
      simpa [getServiceEntryOrCreate, Data.setService, notifyListeners] using hgone
    · next hnone =>
      rw [getServiceEntryOrCreate_of_lookup hl]
      intro hmem
      obtain ⟨b, hb, he⟩ := List.mem_map.mp hmem
      exact hnone (List.any_eq_true.mpr ⟨b, hb, by rw [findServer_eq, he, beq_self_eq_true]⟩)

theorem dataOk_addServer {d : Data} (h : DataOk d) (sends : Nat → Nat → Bool)
    (serverInfo : ServiceInfo) (isLocal : Bool) :
    DataOk (dataAddServer sends d serverInfo isLocal) := by
  have hremoved := dataOk_removeServer h sends { serverInfo with isLocal } isLocal
  have hfresh := removeServer_fresh h sends { serverInfo with isLocal } isLocal
  refine hremoved.setService ?_
  rw [← List.append_assoc]
  refine ((hremoved serverInfo.service).notifyAdded (sends · 1) _ hfresh).quiet fun c => ?_
  split <;> rfl

theorem dataOk_removeServersByAddr {d : Data} (h : DataOk d) (sends : Nat → Nat → Bool)
    (addr : UInt32) : DataOk (dataRemoveServersByAddr sends d addr) := by
  refine h.foreachRemove fun entry trace hs => ?_
  have hsplit := hs.congr (List.filter_append_perm (serverHasAddr addr) entry.servers).symm
  obtain ⟨hstored, hgone⟩ := hsplit.notifyAllRemoved sends 0
    (entry.servers.filter (!serverHasAddr addr ·))
  unfold deleteServerByAddr
  dsimp only
  rw [hstored]
  exact hgone

theorem dataOk_removeByPid {d : Data} (h : DataOk d) (sends : Nat → Nat → Bool) (pid : UInt32) :
    DataOk (dataRemoveByPid sends d pid) := by
  refine h.foreachRemove fun entry trace hs => ?_
  have hleft : ServiceOk d.nextClient entry.servers
      (entry.listeners.filter fun l => l.pid != pid) trace := hs.drop List.filter_sublist
  have hsplit := hleft.congr (List.filter_append_perm
    (fun serviceInfo => serviceInfo.isLocal && serviceInfo.pid == pid) entry.servers).symm
  obtain ⟨hstored, hgone⟩ := hsplit.notifyAllRemoved sends 0 entry.servers
  unfold removeByPid
  dsimp only
  rw [hstored]
  exact hgone

theorem dataOk_addListener {d d' : Data} (h : DataOk d) {sends : Nat → Nat → Bool}
    {info : ListenerInfo} (hs : dataAddListener sends d info = some d') : DataOk d' := by
  obtain ⟨transport, _, rfl⟩ := Option.map_eq_some_iff.mp hs
  refine h.setServiceNext (Nat.le_succ _) ?_
  let listener : ListenerData := ⟨d.nextClient, transport, info.id, info.pid⟩
  let r := sendServers (sends d.nextClient) listener 0
    (getServiceEntryOrCreate d info.service).servers
  have hwatched : ServiceOk d.nextClient (getServiceEntryOrCreate d info.service).servers
      (getServiceEntryOrCreate d info.service).listeners
      (d.trace info.service ++ [.processWatchAdd info.pid]) :=
    (h info.service).quiet fun _ => rfl
  have hadded := hwatched.addListener (sends d.nextClient) (show listener.client = _ from rfl)
  have hquiet : ∀ c, eventsTo c (if r.2 then [] else [.processWatchRemove info.pid]) = [] :=
    fun c => by split <;> rfl
  have hdone := hadded.quiet hquiet
  rw [List.append_assoc, List.append_assoc] at hdone
  exact hdone

theorem dataOk_removeListener {d : Data} (h : DataOk d) (info : ListenerInfo) :
    DataOk (dataRemoveListener d info) := by
  unfold dataRemoveListener
  cases hl : d.hashTable.lookup info.service with
  | none => exact h
  | some entry =>
    have hs := h info.service
    rw [getServiceEntryOrCreate_of_lookup hl] at hs
    dsimp only
    split
    · exact h
    · refine (h.setService ?_).removeIfEmpty _
      exact (hs.drop List.eraseP_sublist).quiet fun _ => rfl

theorem dataOk_step {d d' : Data} {op : Op × (Nat → Nat → Bool)} {o : List Empty} (h : DataOk d)
    (hs : dataStep d op = some (d', o)) : DataOk d' := by
  obtain ⟨op, sends⟩ := op
  cases op with
  | addServer serverInfo isLocal =>
    obtain ⟨rfl, _⟩ := Prod.mk.inj (Option.some.inj hs)
    exact dataOk_addServer h sends serverInfo isLocal
  | removeServer serverInfo isLocal =>
    obtain ⟨rfl, _⟩ := Prod.mk.inj (Option.some.inj hs)
    exact dataOk_removeServer h sends serverInfo isLocal
  | removeServersByAddr addr =>
    obtain ⟨rfl, _⟩ := Prod.mk.inj (Option.some.inj hs)
    exact dataOk_removeServersByAddr h sends addr
  | removeByPid pid =>
    obtain ⟨rfl, _⟩ := Prod.mk.inj (Option.some.inj hs)
    exact dataOk_removeByPid h sends pid
  | addListener info =>
    obtain ⟨d₁, ha, he⟩ := Option.map_eq_some_iff.mp hs
    obtain ⟨rfl, _⟩ := Prod.mk.inj he
    exact dataOk_addListener h ha
  | removeListener info =>
    obtain ⟨rfl, _⟩ := Prod.mk.inj (Option.some.inj hs)
    exact dataOk_removeListener h info

/-- **Listeners know the servers.** In every run, whatever sends fail, the
events sent on any client about any one server alternate between added and
removed, and replaying those sent to a listener that is still registered gives
the servers recorded for its service. -/
theorem listeners_follow_servers (ops : List (Op × (Nat → Nat → Bool))) {d : Data} {o : List Empty}
    (he : exec dataStep dataInit ops = some (d, o)) :
    (∀ service client, Alternates serverKey (eventsTo client (d.trace service))) ∧
      ∀ service entry, d.hashTable.lookup service = some entry → ∀ l ∈ entry.listeners,
        (replay serverKey (eventsTo l.client (d.trace service))).Perm entry.servers ∧
          (entry.servers.map serverKey).Nodup := by
  have hok : DataOk d := exec_invariant (fun _ _ _ _ h hs => dataOk_step h hs) dataOk_init he
  refine ⟨fun service => (hok service).alternates, fun service entry hl l hmem => ?_⟩
  have hs := hok service
  rw [getServiceEntryOrCreate_of_lookup hl] at hs
  exact ⟨(hs.followed l hmem).replay, hs.distinct⟩

theorem listeners_follow_servers_restart :
    let server (pid : UInt32) : ServiceInfo := ⟨[0x73], ⟨false, .unixInfo [0x61]⟩, pid, false⟩
    ∃ d o entry, exec dataStep dataInit
        [(.addListener ⟨[0x73], ⟨false, .unixInfo [0x6c]⟩, 0, 1⟩, fun _ _ => true),
          (.addServer (server 2) true, fun _ _ => true),
          (.addServer (server 3) true, fun _ _ => true)] = some (d, o) ∧
      d.hashTable.lookup [0x73] = some entry ∧
      (replay serverKey (eventsTo 0 (d.trace [0x73]))).Perm entry.servers := by
  intro server
  have h := listeners_follow_servers
    [(.addListener ⟨[0x73], ⟨false, .unixInfo [0x6c]⟩, 0, 1⟩, fun _ _ => true),
      (.addServer (server 2) true, fun _ _ => true),
      (.addServer (server 3) true, fun _ _ => true)] rfl
  exact ⟨_, _, _, rfl, rfl, (h.2 [0x73] _ rfl _ (List.mem_singleton_self _)).1⟩

end Cmsg.Sld
