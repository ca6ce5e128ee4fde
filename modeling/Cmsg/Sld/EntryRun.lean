import Cmsg.Sld.Unlisten

/-! # What happens to one service

Whatever the daemon does, the entry of one service only ever sees servers come
and go, one at a time, each with the events and the message to the other hosts
that belong to it. In between listeners come and go and hear of the servers
that are there. -/
namespace Cmsg.Sld
open Cmsg.Base Cmsg.Base.Runs

/-- Effects that leave the servers alone: a new listener is told of them. -/
def Heard (servers : List ServiceInfo) : Effect → Prop
  | .processWatchAdd _ => True
  | .processWatchRemove _ => True
  | .serverAdded _ event => event.serviceInfo ∈ servers
  | _ => False

/-- One thing that happens to the entry of a service, where the servers that are
added have `P`. -/
inductive EntryStep (service : CString) (P : ServiceInfo → Prop) :
    ServiceDataEntry → List Effect → ServiceDataEntry → Prop
  | heard {servers servers' listeners listeners' effects} (hservers : servers.Perm servers')
      (heffects : ∀ effect ∈ effects, Heard servers effect) :
      EntryStep service P ⟨servers, listeners⟩ effects ⟨servers', listeners'⟩
  | removed {servers servers' listeners listeners' events} {x y : ServiceInfo}
      (hservers : servers.Perm (y :: servers')) (hkey : serverKey y = serverKey x)
      (hservice : x.service = service ∨ x = y)
      (hevents : ∀ e ∈ events, ∃ c id, e = .serverRemoved c ⟨x, id⟩) :
      EntryStep service P ⟨servers, listeners⟩ (events ++ [.remoteSyncServerRemoved x])
        ⟨servers', listeners'⟩
  | added {servers listeners listeners' events} {x : ServiceInfo} (hx : P x)
      (hservice : x.service = service) (hfresh : serverKey x ∉ servers.map serverKey)
      (hevents : ∀ e ∈ events, ∃ c id, e = .serverAdded c ⟨x, id⟩) :
      EntryStep service P ⟨servers, listeners⟩ (events ++ [.remoteSyncServerAdded x])
        ⟨x :: servers, listeners'⟩

/-- And one after the other. -/
inductive EntryRun (service : CString) (P : ServiceInfo → Prop) :
    ServiceDataEntry → List Effect → ServiceDataEntry → Prop
  | refl (entry) : EntryRun service P entry [] entry
  | step {entry entry₁ entry₂ effects effects₁} (hrun : EntryRun service P entry effects entry₁)
      (hstep : EntryStep service P entry₁ effects₁ entry₂) :
      EntryRun service P entry (effects ++ effects₁) entry₂

section
variable {service : CString} {P Q : ServiceInfo → Prop} {entry entry₁ entry₂ : ServiceDataEntry}
  {effects effects₁ effects₂ : List Effect}

theorem EntryStep.run (h : EntryStep service P entry effects entry₁) :
    EntryRun service P entry effects entry₁ :=
  .step (.refl entry) h

theorem EntryRun.trans (h : EntryRun service P entry effects entry₁)
    (h₁ : EntryRun service P entry₁ effects₁ entry₂) :
    EntryRun service P entry (effects ++ effects₁) entry₂ := by
  induction h₁ with
  | refl =>
    rw [List.append_nil]
    exact h
  | step _ hstep ih =>
    rw [← List.append_assoc]
    exact ih.step hstep

theorem EntryStep.mono (hPQ : ∀ x, P x → Q x) (h : EntryStep service P entry effects entry₁) :
    EntryStep service Q entry effects entry₁ := by
  cases h with
  | heard hservers heffects => exact .heard hservers heffects
  | removed hservers hkey hservice hevents => exact .removed hservers hkey hservice hevents
  | added hx hservice hfresh hevents => exact .added (hPQ _ hx) hservice hfresh hevents

theorem EntryRun.mono (hPQ : ∀ x, P x → Q x) (h : EntryRun service P entry effects entry₁) :
    EntryRun service Q entry effects entry₁ := by
  induction h with
  | refl => exact .refl _
  | step _ hstep ih => exact ih.step (hstep.mono hPQ)

/-- What the servers have at the start and what is added has, the servers have at
the end, and every server that anyone is told was added. -/
theorem EntryRun.all (hPQ : ∀ x, P x → Q x) (h : EntryRun service P entry effects entry₁)
    (hQ : ∀ x ∈ entry.servers, Q x) :
    (∀ x ∈ entry₁.servers, Q x) ∧
      ∀ c event, .serverAdded c event ∈ effects → Q event.serviceInfo := by
  induction h with
  | refl => exact ⟨hQ, fun _ _ hmem => by cases hmem⟩
  | step _ hstep ih =>
    obtain ⟨hservers₁, htold⟩ := ih
    cases hstep with
    | heard hservers heffects =>
      refine ⟨fun x hx => hservers₁ x (hservers.mem_iff.mpr hx), fun c event hmem => ?_⟩
      rcases List.mem_append.mp hmem with hmem | hmem
      · exact htold c event hmem
      · exact hservers₁ _ (heffects _ hmem)
    | removed hservers _ _ hevents =>
      refine ⟨fun x hx => hservers₁ x (hservers.mem_iff.mpr (List.mem_cons_of_mem _ hx)),
        fun c event hmem => ?_⟩
      rcases List.mem_append.mp hmem with hmem | hmem
      · exact htold c event hmem
      · rcases List.mem_append.mp hmem with hmem | hmem
        · obtain ⟨_, _, he⟩ := hevents _ hmem
          cases he
        · cases List.mem_singleton.mp hmem
    | added hx _ _ hevents =>
      refine ⟨fun x hmem => ?_, fun c event hmem => ?_⟩
      · rcases List.mem_cons.mp hmem with rfl | hmem
        · exact hPQ _ hx
        · exact hservers₁ x hmem
      · rcases List.mem_append.mp hmem with hmem | hmem
        · exact htold c event hmem
        · rcases List.mem_append.mp hmem with hmem | hmem
          · obtain ⟨_, _, he⟩ := hevents _ hmem
            cases he
            exact hPQ _ hx
          · cases List.mem_singleton.mp hmem

end

/-! ## The parts of an operation -/

section
variable {service : CString} {P : ServiceInfo → Prop} {servers kept : List ServiceInfo}
  {listeners listeners' : List ListenerData}

theorem entryRun_quiet {effects : List Effect} (heffects : ∀ effect ∈ effects, Heard servers effect) :
    EntryRun service P ⟨servers, listeners⟩ effects ⟨servers, listeners'⟩ :=
  (EntryStep.heard (.refl servers) heffects).run

theorem mem_notifyListeners {sends : Nat → Bool} {serverInfo : ServiceInfo}
    {entry : ServiceDataEntry} {added : Bool} {e : Effect}
    (h : e ∈ (notifyListeners sends serverInfo entry added).2) :
    ∃ c id, e = if added then .serverAdded c ⟨serverInfo, id⟩
      else .serverRemoved c ⟨serverInfo, id⟩ := by
  obtain ⟨l, _, rfl⟩ := List.mem_map.mp h
  exact ⟨l.client, l.id, rfl⟩

theorem heard_ite {b : Bool} {effect₁ : Effect} (h : Heard servers effect₁) :
    ∀ effect ∈ (if b then [effect₁] else []), Heard servers effect := by
  intro effect he
  split at he
  · obtain rfl := List.mem_singleton.mp he
    exact h
  · cases he

/-- A server comes, and every listener is told. -/
theorem entryRun_added (sends : Nat → Bool) {entry : ServiceDataEntry} {x : ServiceInfo} (hx : P x)
    (hfresh : serverKey x ∉ entry.servers.map serverKey) {b : Bool} {watch : Effect}
    (hwatch : Heard (x :: entry.servers) watch) :
    EntryRun x.service P entry
      ((notifyListeners sends x { entry with servers := x :: entry.servers } true).2 ++
        .remoteSyncServerAdded x :: if b then [watch] else [])
      (notifyListeners sends x { entry with servers := x :: entry.servers } true).1 := by
  have hadded : EntryStep x.service P entry
      ((notifyListeners sends x { entry with servers := x :: entry.servers } true).2 ++
        [.remoteSyncServerAdded x])
      (notifyListeners sends x { entry with servers := x :: entry.servers } true).1 :=
    .added hx rfl hfresh fun _ he => mem_notifyListeners he
  have hquiet : EntryRun x.service P
      (notifyListeners sends x { entry with servers := x :: entry.servers } true).1
      (if b then [watch] else [])
      (notifyListeners sends x { entry with servers := x :: entry.servers } true).1 :=
    entryRun_quiet (heard_ite hwatch)
  have hrun := hadded.run.trans hquiet
  rw [List.append_assoc] at hrun
  exact hrun

/-- The server that is found is the one that goes. -/
theorem exists_removed {servers : List ServiceInfo} {x : ServiceInfo}
    (hany : servers.any (findServer · x)) :
    ∃ y, serverKey y = serverKey x ∧ servers.Perm (y :: servers.eraseP (findServer · x)) := by
  obtain ⟨z, hz, hfound⟩ := List.any_eq_true.mp hany
  obtain ⟨y, before, after, _, hy, hsplit, herase⟩ :=
    List.exists_of_eraseP (p := (findServer · x)) hz hfound
  rw [findServer_eq, beq_iff_eq] at hy
  refine ⟨y, hy, ?_⟩
  rw [herase, hsplit]
  exact List.perm_middle

/-- A server goes, and every listener that is left is told of the request. -/
theorem entryRun_removed (sends : Nat → Bool) {entry : ServiceDataEntry} {x : ServiceInfo}
    (hany : entry.servers.any (findServer · x)) {b : Bool} {watch : Effect}
    (hwatch : ∀ servers, Heard servers watch) :
    EntryRun x.service P entry
      ((notifyListeners sends x
          { entry with servers := entry.servers.eraseP (findServer · x) } false).2 ++
        .remoteSyncServerRemoved x :: if b then [watch] else [])
      (notifyListeners sends x
        { entry with servers := entry.servers.eraseP (findServer · x) } false).1 := by
  obtain ⟨y, hy, hservers⟩ := exists_removed hany
  have hremoved : EntryStep x.service P entry
      ((notifyListeners sends x
          { entry with servers := entry.servers.eraseP (findServer · x) } false).2 ++
        [.remoteSyncServerRemoved x])
      (notifyListeners sends x
        { entry with servers := entry.servers.eraseP (findServer · x) } false).1 :=
    .removed hservers hy (.inl rfl) fun _ he => mem_notifyListeners he
  have hquiet : EntryRun x.service P
      (notifyListeners sends x
        { entry with servers := entry.servers.eraseP (findServer · x) } false).1
      (if b then [watch] else [])
      (notifyListeners sends x
        { entry with servers := entry.servers.eraseP (findServer · x) } false).1 :=
    entryRun_quiet (heard_ite (hwatch _))
  have hrun := hremoved.run.trans hquiet
  rw [List.append_assoc] at hrun
  exact hrun

/-- The loops that tell the listeners that servers are gone. -/
theorem entryRun_notifyRemoved (sends : Nat → Nat → Bool) (stored : List ServiceInfo)
    {gone : List ServiceInfo} (k : Nat) (hservers : servers.Perm (gone ++ kept)) :
    EntryRun service P ⟨servers, listeners⟩ (notifyRemoved sends k ⟨stored, listeners⟩ gone).2
      ⟨kept, (notifyRemoved sends k ⟨stored, listeners⟩ gone).1.listeners⟩ := by
  induction gone generalizing k servers listeners with
  | nil => exact (EntryStep.heard hservers fun _ h => by cases h).run
  | cons serviceInfo gone ih =>
    have hfirst : EntryStep service P ⟨servers, listeners⟩
        ((notifyListeners (sends · k) serviceInfo ⟨stored, listeners⟩ false).2 ++
          [.remoteSyncServerRemoved serviceInfo])
        ⟨gone ++ kept,
          (notifyListeners (sends · k) serviceInfo ⟨stored, listeners⟩ false).1.listeners⟩ :=
      .removed hservers rfl (.inr rfl) fun _ he => mem_notifyListeners he
    have hrun := hfirst.run.trans (ih (k + 1) (.refl _))
    rw [List.append_assoc] at hrun
    exact hrun

theorem notifyRemoved_servers (sends : Nat → Nat → Bool) (k : Nat) (entry : ServiceDataEntry)
    (gone : List ServiceInfo) : (notifyRemoved sends k entry gone).1.servers = entry.servers := by
  induction gone generalizing k entry with
  | nil => rfl
  | cons serviceInfo gone ih => exact ih (k + 1) _

theorem heard_sendServers (sends : Nat → Bool) (listener : ListenerData) (k : Nat) :
    ∀ effect ∈ (sendServers sends listener k servers).1, Heard servers effect := by
  induction servers generalizing k with
  | nil => exact fun _ h => by cases h
  | cons serverInfo servers ih =>
    have hfirst : Heard (serverInfo :: servers)
        (.serverAdded listener.client ⟨serverInfo, listener.id⟩) := List.mem_cons_self
    unfold sendServers
    split
    · intro effect hmem
      rcases List.mem_cons.mp hmem with rfl | hmem
      · exact hfirst
      · have hrest := ih (k + 1) effect hmem
        cases effect with
        | serverAdded c event => exact List.mem_cons_of_mem _ hrest
        | processWatchAdd pid => trivial
        | processWatchRemove pid => trivial
        | serverRemoved c event => exact hrest
        | remoteSyncServerAdded x => exact hrest
        | remoteSyncServerRemoved x => exact hrest
    · intro effect hmem
      obtain rfl := List.mem_singleton.mp hmem
      exact hfirst

end

/-! ## The servers of a service -/

def serversOf (d : Data) (service : CString) : List ServiceInfo :=
  (getServiceEntryOrCreate d service).servers

/-- Servers that compare equal have the same address. -/
theorem serverHasAddr_congr {x y : ServiceInfo} (h : serverKey x = serverKey y) (addr : UInt32) :
    serverHasAddr addr x = serverHasAddr addr y := by
  unfold serverKey TransportInfo.endpoint at h
  unfold serverHasAddr
  cases hx : x.serverInfo.data with
  | unixInfo path =>
    cases hy : y.serverInfo.data with
    | unixInfo path' => rfl
    | tcpInfo info' => simp [hx, hy] at h
  | tcpInfo info =>
    cases hy : y.serverInfo.data with
    | unixInfo path' => simp [hx, hy] at h
    | tcpInfo info' =>
      simp only [hx, hy, Endpoint.tcp.injEq] at h
      dsimp only
      rw [h.2.1]

theorem serversOf_setService (d : Data) (service s : CString) (entry : ServiceDataEntry)
    (effects : List Effect) : serversOf (d.setService service entry effects) s =
      if s = service then entry.servers else serversOf d s := by
  by_cases hs : s = service
  · subst hs
    simp [serversOf, getServiceEntryOrCreate, Data.setService]
  · simp [serversOf, getServiceEntryOrCreate, Data.setService, hs]

theorem serversOf_removeServer (d : Data) (sends : Nat → Nat → Bool) (x : ServiceInfo)
    (isLocal : Bool) (s : CString) : serversOf (dataRemoveServer sends d x isLocal) s =
      if s = x.service then (serversOf d s).eraseP (findServer · x) else serversOf d s := by
  unfold dataRemoveServer
  cases hl : d.hashTable.lookup x.service with
  | none =>
    by_cases hs : s = x.service
    · subst hs
      simp [serversOf, getServiceEntryOrCreate, hl]
    · rw [if_neg hs]
  | some entry =>
    have hentry : serversOf d x.service = entry.servers :=
      congrArg ServiceDataEntry.servers (getServiceEntryOrCreate_of_lookup hl)
    dsimp only
    split
    · rw [serversOf, getServiceEntryOrCreate_removeIfEmpty]
      refine (serversOf_setService d x.service s _ _).trans ?_
      by_cases hs : s = x.service
      · subst hs
        rw [if_pos rfl, if_pos rfl, hentry]
        rfl
      · rw [if_neg hs, if_neg hs]
    · next hnone =>
      by_cases hs : s = x.service
      · subst hs
        rw [if_pos rfl, hentry, List.eraseP_of_forall_not]
        intro y hy hfound
        exact hnone (List.any_eq_true.mpr ⟨y, hy, hfound⟩)
      · rw [if_neg hs]

theorem serversOf_addServer (d : Data) (sends : Nat → Nat → Bool) (x : ServiceInfo)
    (isLocal : Bool) (s : CString) : serversOf (dataAddServer sends d x isLocal) s =
      if s = x.service then { x with isLocal } :: (serversOf d s).eraseP (findServer · x)
      else serversOf d s := by
  unfold dataAddServer
  dsimp only
  rw [serversOf_setService]
  by_cases hs : s = x.service
  · subst hs
    rw [if_pos rfl, if_pos rfl]
    have hremoved := serversOf_removeServer d sends { x with isLocal } isLocal x.service
    rw [if_pos rfl] at hremoved
    exact congrArg ({ x with isLocal } :: ·) hremoved
  · have hremoved := serversOf_removeServer d sends { x with isLocal } isLocal s
    rw [if_neg hs] at hremoved
    rw [if_neg hs, if_neg hs, hremoved]

theorem serversOf_foreachRemove (d : Data) {f : ServiceDataEntry → ServiceDataEntry × List Effect}
    {p : ServiceInfo → Bool} (hf : ∀ entry, (f entry).1.servers = entry.servers.filter p)
    (s : CString) : serversOf (d.foreachRemove f) s = (serversOf d s).filter p := by
  unfold serversOf
  cases hl : d.hashTable.lookup s with
  | none => simp [getServiceEntryOrCreate, Data.foreachRemove, hl]
  | some entry =>
    rw [getServiceEntryOrCreate_foreachRemove hl, getServiceEntryOrCreate_of_lookup hl, hf]

theorem serversOf_removeServersByAddr (d : Data) (sends : Nat → Nat → Bool) (addr : UInt32)
    (s : CString) : serversOf (dataRemoveServersByAddr sends d addr) s =
      (serversOf d s).filter (!serverHasAddr addr ·) :=
  serversOf_foreachRemove d (fun _ => notifyRemoved_servers sends 0 _ _) s

theorem serversOf_removeByPid (d : Data) (sends : Nat → Nat → Bool) (pid : UInt32) (s : CString) :
    serversOf (dataRemoveByPid sends d pid) s =
      (serversOf d s).filter fun x => !(x.isLocal && x.pid == pid) := by
  refine serversOf_foreachRemove d (fun entry => ?_) s
  unfold removeByPid
  dsimp only
  rw [notifyRemoved_servers]

theorem serversOf_addListener {d d' : Data} {sends : Nat → Nat → Bool} {info : ListenerInfo}
    (h : dataAddListener sends d info = some d') (s : CString) : serversOf d' s = serversOf d s := by
  obtain ⟨transport, _, rfl⟩ := Option.map_eq_some_iff.mp h
  by_cases hs : s = info.service
  · subst hs
    simp [serversOf, getServiceEntryOrCreate, Data.setService]
  · simp [serversOf, getServiceEntryOrCreate, Data.setService, hs]

theorem serversOf_removeListener (d : Data) (info : ListenerInfo) (s : CString) :
    serversOf (dataRemoveListener d info) s = serversOf d s := by
  unfold dataRemoveListener
  cases hl : d.hashTable.lookup info.service with
  | none => rfl
  | some entry =>
    dsimp only
    split
    · rfl
    · rw [serversOf, getServiceEntryOrCreate_removeIfEmpty]
      refine (serversOf_setService d info.service s _ _).trans ?_
      by_cases hs : s = info.service
      · rw [if_pos hs, hs]
        exact (congrArg ServiceDataEntry.servers (getServiceEntryOrCreate_of_lookup hl)).symm
      · rw [if_neg hs]

/-! ## The operations -/

/-- What an operation does to each service. -/
def Runs (P : ServiceInfo → Prop) (d d' : Data) : Prop := ∀ s, ∃ effects,
  d'.trace s = d.trace s ++ effects ∧
    EntryRun s P (getServiceEntryOrCreate d s) effects (getServiceEntryOrCreate d' s)

section
variable {P : ServiceInfo → Prop} {d d₁ d₂ : Data}

theorem runs_refl (d : Data) : Runs P d d :=
  fun _ => ⟨[], (List.append_nil _).symm, .refl _⟩

theorem Runs.trans (h : Runs P d d₁) (h₁ : Runs P d₁ d₂) : Runs P d d₂ := by
  intro s
  obtain ⟨effects, htrace, hrun⟩ := h s
  obtain ⟨effects₁, htrace₁, hrun₁⟩ := h₁ s
  exact ⟨effects ++ effects₁, by rw [htrace₁, htrace, List.append_assoc], hrun.trans hrun₁⟩

theorem runs_setService {service : CString} {entry : ServiceDataEntry} {effects : List Effect}
    (h : EntryRun service P (getServiceEntryOrCreate d service) effects entry) :
    Runs P d (d.setService service entry effects) := by
  intro s
  by_cases hs : s = service
  · subst hs
    refine ⟨effects, by simp [Data.setService], ?_⟩
    simpa [getServiceEntryOrCreate, Data.setService] using h
  · refine ⟨[], by simp [Data.setService, hs], ?_⟩
    have hother : getServiceEntryOrCreate (d.setService service entry effects) s =
        getServiceEntryOrCreate d s := by simp [getServiceEntryOrCreate, Data.setService, hs]
    rw [hother]
    exact .refl _

theorem Runs.removeIfEmpty (h : Runs P d d₁) (service : CString) :
    Runs P d (dataRemoveServiceDataEntryIfEmpty d₁ service) := by
  intro s
  obtain ⟨effects, htrace, hrun⟩ := h s
  refine ⟨effects, by rw [(trace_removeIfEmpty d₁ service).1, htrace], ?_⟩
  rw [getServiceEntryOrCreate_removeIfEmpty]
  exact hrun

theorem runs_foreachRemove {f : ServiceDataEntry → ServiceDataEntry × List Effect}
    (hf : ∀ s entry, EntryRun s P entry (f entry).2 (f entry).1) : Runs P d (d.foreachRemove f) := by
  intro s
  cases hl : d.hashTable.lookup s with
  | none =>
    refine ⟨[], by simp [Data.foreachRemove, hl], ?_⟩
    have hsame : getServiceEntryOrCreate (d.foreachRemove f) s = getServiceEntryOrCreate d s := by
      simp [getServiceEntryOrCreate, Data.foreachRemove, hl]
    rw [hsame]
    exact .refl _
  | some entry =>
    refine ⟨(f entry).2, by simp [Data.foreachRemove, hl], ?_⟩
    rw [getServiceEntryOrCreate_foreachRemove hl, getServiceEntryOrCreate_of_lookup hl]
    exact hf s entry

theorem runs_removeServer (sends : Nat → Nat → Bool) (serverInfo : ServiceInfo) (isLocal : Bool) :
    Runs P d (dataRemoveServer sends d serverInfo isLocal) := by
  unfold dataRemoveServer
  cases hl : d.hashTable.lookup serverInfo.service with
  | none => exact runs_refl d
  | some entry =>
    dsimp only
    split
    · next hany =>
      refine (runs_setService ?_).removeIfEmpty _
      rw [getServiceEntryOrCreate_of_lookup hl]
      exact entryRun_removed (sends · 0) hany fun _ => trivial
    · exact runs_refl d

theorem runs_addServer (hok : DataOk d) (sends : Nat → Nat → Bool) (serverInfo : ServiceInfo)
    (isLocal : Bool) (hP : P { serverInfo with isLocal }) :
    Runs P d (dataAddServer sends d serverInfo isLocal) := by
  have hfresh := removeServer_fresh hok sends { serverInfo with isLocal } isLocal
  refine (runs_removeServer sends { serverInfo with isLocal } isLocal).trans (runs_setService ?_)
  exact entryRun_added (sends · 1) hP hfresh trivial

theorem runs_removeServersByAddr (sends : Nat → Nat → Bool) (addr : UInt32) :
    Runs P d (dataRemoveServersByAddr sends d addr) := by
  refine runs_foreachRemove fun s entry => ?_
  have hsplit := (List.filter_append_perm (serverHasAddr addr) entry.servers).symm
  have hrun := @entryRun_notifyRemoved s P _ _ entry.listeners sends
    (entry.servers.filter (!serverHasAddr addr ·)) _ 0 hsplit
  have hkept := notifyRemoved_servers sends 0
    { entry with servers := entry.servers.filter (!serverHasAddr addr ·) }
    (entry.servers.filter (serverHasAddr addr))
  unfold deleteServerByAddr
  generalize notifyRemoved sends 0 _ _ = r at hrun hkept ⊢
  obtain ⟨⟨servers, listeners⟩, effects⟩ := r
  obtain rfl := hkept
  exact hrun

theorem runs_removeByPid (sends : Nat → Nat → Bool) (pid : UInt32) :
    Runs P d (dataRemoveByPid sends d pid) := by
  refine runs_foreachRemove fun s entry => ?_
  have hsplit := (List.filter_append_perm
    (fun serviceInfo => serviceInfo.isLocal && serviceInfo.pid == pid) entry.servers).symm
  have hdropped : EntryRun s P entry []
      { entry with listeners := entry.listeners.filter fun l => l.pid != pid } :=
    entryRun_quiet fun _ h => by cases h
  have hrun := hdropped.trans (entryRun_notifyRemoved sends entry.servers 0 hsplit)
  unfold removeByPid
  dsimp only
  rw [notifyRemoved_servers]
  exact hrun

theorem runs_addListener {sends : Nat → Nat → Bool} {info : ListenerInfo}
    (h : dataAddListener sends d info = some d₁) : Runs P d d₁ := by
  obtain ⟨transport, _, rfl⟩ := Option.map_eq_some_iff.mp h
  let listener : ListenerData := ⟨d.nextClient, transport, info.id, info.pid⟩
  let entry := getServiceEntryOrCreate d info.service
  let r := sendServers (sends d.nextClient) listener 0 entry.servers
  have hset : Runs P d (d.setService info.service
      { entry with listeners := if r.2 then listener :: entry.listeners else entry.listeners }
      (.processWatchAdd info.pid :: r.1 ++ if r.2 then [] else [.processWatchRemove info.pid])) := by
    refine runs_setService (entryRun_quiet fun effect he => ?_)
    rcases List.mem_append.mp he with he | he
    · rcases List.mem_cons.mp he with rfl | he
      · trivial
      · exact heard_sendServers (sends d.nextClient) listener 0 effect he
    · split at he
      · cases he
      · obtain rfl := List.mem_singleton.mp he
        trivial
  exact hset

theorem runs_removeListener (info : ListenerInfo) : Runs P d (dataRemoveListener d info) := by
  unfold dataRemoveListener
  cases hl : d.hashTable.lookup info.service with
  | none => exact runs_refl d
  | some entry =>
    dsimp only
    split
    · exact runs_refl d
    · refine (runs_setService ?_).removeIfEmpty _
      rw [getServiceEntryOrCreate_of_lookup hl]
      exact entryRun_quiet fun effect he => by
        obtain rfl := List.mem_singleton.mp he
        trivial

/-- The server that an operation adds. -/
def Op.Adds : Op → ServiceInfo → Prop
  | .addServer serverInfo isLocal, x => x = { serverInfo with isLocal }
  | _, _ => False

/-- Every operation is a run of every service, and adds what it says. -/
theorem runs_step {op : Op × (Nat → Nat → Bool)} {o : List Empty} (hok : DataOk d)
    (hs : dataStep d op = some (d₁, o)) : Runs op.1.Adds d d₁ := by
  obtain ⟨op, sends⟩ := op
  cases op with
  | addServer serverInfo isLocal =>
    obtain ⟨rfl, _⟩ := Prod.mk.inj (Option.some.inj hs)
    exact runs_addServer hok sends serverInfo isLocal rfl
  | removeServer serverInfo isLocal =>
    obtain ⟨rfl, _⟩ := Prod.mk.inj (Option.some.inj hs)
    exact runs_removeServer sends serverInfo isLocal
  | removeServersByAddr addr =>
    obtain ⟨rfl, _⟩ := Prod.mk.inj (Option.some.inj hs)
    exact runs_removeServersByAddr sends addr
  | removeByPid pid =>
    obtain ⟨rfl, _⟩ := Prod.mk.inj (Option.some.inj hs)
    exact runs_removeByPid sends pid
  | addListener info =>
    obtain ⟨d', ha, he⟩ := Option.map_eq_some_iff.mp hs
    obtain ⟨rfl, _⟩ := Prod.mk.inj he
    exact runs_addListener ha
  | removeListener info =>
    obtain ⟨rfl, _⟩ := Prod.mk.inj (Option.some.inj hs)
    exact runs_removeListener info

end

end Cmsg.Sld
