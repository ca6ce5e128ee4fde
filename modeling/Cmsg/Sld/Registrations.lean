import Cmsg.Sld.EntryRun

/-! # What the clients of the daemon carry

Every registration of a listener gets a client of its own. The messages on that client are
about the service that was registered for, they carry the id of the registration, and the
servers they name are servers that the daemon was told of. -/
namespace Cmsg.Sld
open Cmsg.Base Cmsg.Base.Runs

/-- The service and the id of a registration. -/
structure Registration where
  service : CString
  id : UInt32
deriving DecidableEq, Repr

/-- The registration that an operation makes. -/
def registrationOf : Op → List Registration
  | .addListener info => [⟨info.service, info.id⟩]
  | _ => []

/-- The servers that an operation names. -/
def NamesServer (P : TransportInfo → Prop) : Op → Prop
  | .addServer serverInfo _ => P serverInfo.serverInfo
  | .removeServer serverInfo _ => P serverInfo.serverInfo
  | _ => True

/-- One service: its servers have the property `P`, its listeners are registered for it, and
so are the clients that its events were sent on. -/
structure ServiceRegistered (registrations : List Registration) (P : TransportInfo → Prop)
    (service : CString) (servers : List ServiceInfo) (listeners : List ListenerData)
    (trace : List Effect) : Prop where
  servers : ∀ serverInfo ∈ servers, P serverInfo.serverInfo
  listeners : ∀ l ∈ listeners, registrations[l.client]? = some ⟨service, l.id⟩
  sent : ∀ c, ∀ event ∈ sentTo c trace,
    registrations[c]? = some ⟨service, event.subject.id⟩ ∧ P event.subject.serviceInfo.serverInfo

/-- The registrations are numbered as the clients are. -/
structure DataRegistered (registrations : List Registration) (P : TransportInfo → Prop) (d : Data) :
    Prop where
  clients : registrations.length = d.nextClient
  services : ∀ s, ServiceRegistered registrations P s (getServiceEntryOrCreate d s).servers
    (listenersOf d s) (d.trace s)

theorem change_subject (serverInfo : ServiceInfo) (added : Bool) (id : UInt32) :
    (change serverInfo added id).subject = ⟨serverInfo, id⟩ := by
  cases added with
  | true => rfl
  | false => rfl

/-- Whoever is sent a notification is one of the listeners, under its own id. -/
theorem mem_sentTo_notifications {serverInfo : ServiceInfo} {added : Bool} {c : Nat}
    {listeners : List ListenerData} {event : Change ServerEvent}
    (h : event ∈ sentTo c (listeners.map (notification serverInfo added))) :
    ∃ l ∈ listeners, l.client = c ∧ event.subject = ⟨serverInfo, l.id⟩ := by
  induction listeners with
  | nil => cases h
  | cons l listeners ih =>
    rw [List.map_cons, ← List.singleton_append, sentTo_append, List.mem_append,
      sentTo_notification] at h
    cases h with
    | inl h =>
      by_cases hc : l.client = c
      · rw [if_pos hc, List.mem_singleton] at h
        exact ⟨l, List.mem_cons_self, hc, by rw [h, change_subject]⟩
      · rw [if_neg hc] at h
        cases h
    | inr h =>
      obtain ⟨l', hl', hclient, hsubject⟩ := ih h
      exact ⟨l', List.mem_cons_of_mem _ hl', hclient, hsubject⟩

section
variable {registrations : List Registration} {P : TransportInfo → Prop} {service : CString}
  {servers servers' : List ServiceInfo} {listeners listeners' : List ListenerData}
  {trace effects : List Effect}

/-! ## One service -/

theorem serviceRegistered_nil (service : CString) :
    ServiceRegistered registrations P service [] [] [] :=
  ⟨fun _ h => (by cases h), fun _ h => (by cases h), fun _ _ h => (by cases h)⟩

/-- Later registrations do not change the earlier ones. -/
theorem ServiceRegistered.grow
    (h : ServiceRegistered registrations P service servers listeners trace)
    (more : List Registration) :
    ServiceRegistered (registrations ++ more) P service servers listeners trace := by
  have hold : ∀ {c : Nat} {r : Registration}, registrations[c]? = some r →
      (registrations ++ more)[c]? = some r := by
    intro c r hc
    rw [List.getElem?_append_left (List.getElem?_eq_some_iff.mp hc).1, hc]
  exact ⟨h.servers, fun l hl => hold (h.listeners l hl),
    fun c event he => ⟨hold (h.sent c event he).1, (h.sent c event he).2⟩⟩

theorem ServiceRegistered.quiet
    (h : ServiceRegistered registrations P service servers listeners trace)
    (hq : ∀ c, sentTo c effects = []) :
    ServiceRegistered registrations P service servers listeners (trace ++ effects) := by
  refine ⟨h.servers, h.listeners, fun c event he => h.sent c event ?_⟩
  rw [sentTo_append, hq, List.append_nil] at he
  exact he

theorem ServiceRegistered.subset
    (h : ServiceRegistered registrations P service servers listeners trace)
    (hservers : servers' ⊆ servers) (hlisteners : listeners' ⊆ listeners) :
    ServiceRegistered registrations P service servers' listeners' trace :=
  ⟨fun a ha => h.servers a (hservers ha), fun l hl => h.listeners l (hlisteners hl), h.sent⟩

theorem ServiceRegistered.add
    (h : ServiceRegistered registrations P service servers listeners trace)
    (serverInfo : ServiceInfo) (hP : P serverInfo.serverInfo) :
    ServiceRegistered registrations P service (serverInfo :: servers) listeners trace := by
  refine ⟨fun a ha => ?_, h.listeners, h.sent⟩
  cases List.mem_cons.mp ha with
  | inl ha => rw [ha]; exact hP
  | inr ha => exact h.servers a ha

theorem ServiceRegistered.notify
    (h : ServiceRegistered registrations P service servers listeners trace) (sends : Nat → Bool)
    (serverInfo : ServiceInfo) (hP : P serverInfo.serverInfo) (stored : List ServiceInfo)
    (added : Bool) :
    ServiceRegistered registrations P service servers
      (notifyListeners sends serverInfo ⟨stored, listeners⟩ added).1.listeners
      (trace ++ (notifyListeners sends serverInfo ⟨stored, listeners⟩ added).2) := by
  have hnotified : (notifyListeners sends serverInfo ⟨stored, listeners⟩ added).2 =
      listeners.map (notification serverInfo added) := rfl
  refine ⟨h.servers, fun l hl => h.listeners l (List.mem_of_mem_filter hl), fun c event he => ?_⟩
  rw [hnotified, sentTo_append, List.mem_append] at he
  cases he with
  | inl he => exact h.sent c event he
  | inr he =>
    obtain ⟨l, hl, hclient, hsubject⟩ := mem_sentTo_notifications he
    rw [hsubject, ← hclient]
    exact ⟨h.listeners l hl, hP⟩

/-- The loops over servers that are gone. -/
theorem serviceRegistered_notifyRemoved (sends : Nat → Nat → Bool) (stored : List ServiceInfo) :
    ∀ (gone : List ServiceInfo) (k : Nat) {listeners : List ListenerData} {trace : List Effect},
      (∀ serverInfo ∈ gone, P serverInfo.serverInfo) →
      ServiceRegistered registrations P service servers listeners trace →
      ServiceRegistered registrations P service servers
        (Sld.notifyRemoved sends k ⟨stored, listeners⟩ gone).1.listeners
        (trace ++ (Sld.notifyRemoved sends k ⟨stored, listeners⟩ gone).2) := by
  intro gone
  induction gone with
  | nil =>
    intro k listeners trace _ h
    simpa [Sld.notifyRemoved] using h
  | cons serverInfo gone ih =>
    intro k listeners trace hgone h
    have hfirst := h.notify (sends · k) serverInfo (hgone serverInfo List.mem_cons_self) stored
      false
    have hquiet : ∀ c, sentTo c [Effect.remoteSyncServerRemoved serverInfo] = [] := fun _ => rfl
    have hrest := ih (k + 1) (fun a ha => hgone a (List.mem_cons_of_mem _ ha))
      (hfirst.quiet hquiet)
    rw [List.append_assoc, List.append_assoc] at hrest
    exact hrest

/-- A new listener is sent servers of the list, under its own id. -/
theorem mem_sentTo_sendServers {sends : Nat → Bool} {listener : ListenerData} {c : Nat}
    {event : Change ServerEvent} : ∀ {servers : List ServiceInfo} {k : Nat},
    event ∈ sentTo c (sendServers sends listener k servers).1 →
      listener.client = c ∧ event.subject.id = listener.id ∧
        event.subject.serviceInfo ∈ servers := by
  intro servers
  induction servers with
  | nil =>
    intro k h
    cases h
  | cons serverInfo servers ih =>
    intro k h
    have hfirst : event ∈ sentTo c [.serverAdded listener.client ⟨serverInfo, listener.id⟩] →
        listener.client = c ∧ event.subject.id = listener.id ∧
          event.subject.serviceInfo ∈ serverInfo :: servers := by
      intro he
      by_cases hc : listener.client = c
      · have hevent : event = .added ⟨serverInfo, listener.id⟩ := by simpa [sentTo, hc] using he
        rw [hevent]
        exact ⟨hc, rfl, List.mem_cons_self⟩
      · simp [sentTo, hc] at he
    unfold sendServers at h
    by_cases hk : sends k = true
    · rw [if_pos hk] at h
      dsimp only at h
      rw [← List.singleton_append, sentTo_append, List.mem_append] at h
      cases h with
      | inl h => exact hfirst h
      | inr h =>
        obtain ⟨hclient, hid, hmem⟩ := ih h
        exact ⟨hclient, hid, List.mem_cons_of_mem _ hmem⟩
    · rw [if_neg hk] at h
      exact hfirst h

/-! ## The operations -/

variable {d d' : Data}

theorem dataRegistered_init : DataRegistered [] P dataInit := ⟨rfl, serviceRegistered_nil⟩

theorem services_setService
    (h : ∀ s, ServiceRegistered registrations P s (getServiceEntryOrCreate d s).servers
      (listenersOf d s) (d.trace s)) {entry : ServiceDataEntry}
    (he : ServiceRegistered registrations P service entry.servers entry.listeners
      (d.trace service ++ effects)) (s : CString) :
    ServiceRegistered registrations P s
      (getServiceEntryOrCreate (d.setService service entry effects) s).servers
      (listenersOf (d.setService service entry effects) s)
      ((d.setService service entry effects).trace s) := by
  by_cases hs : s = service
  · subst hs
    simpa [listenersOf, getServiceEntryOrCreate, Data.setService] using he
  · simpa [listenersOf, getServiceEntryOrCreate, Data.setService, hs] using h s

theorem DataRegistered.setService (h : DataRegistered registrations P d) {entry : ServiceDataEntry}
    (he : ServiceRegistered registrations P service entry.servers entry.listeners
      (d.trace service ++ effects)) :
    DataRegistered registrations P (d.setService service entry effects) :=
  ⟨h.clients, services_setService h.services he⟩

theorem DataRegistered.removeIfEmpty (h : DataRegistered registrations P d) (service : CString) :
    DataRegistered registrations P (dataRemoveServiceDataEntryIfEmpty d service) := by
  refine ⟨h.clients.trans (trace_removeIfEmpty d service).2.symm, fun s => ?_⟩
  rw [listenersOf, getServiceEntryOrCreate_removeIfEmpty, (trace_removeIfEmpty d service).1]
  exact h.services s

theorem DataRegistered.foreachRemove (h : DataRegistered registrations P d)
    {f : ServiceDataEntry → ServiceDataEntry × List Effect}
    (hf : ∀ service entry trace,
      ServiceRegistered registrations P service entry.servers entry.listeners trace →
      ServiceRegistered registrations P service (f entry).1.servers (f entry).1.listeners
        (trace ++ (f entry).2)) :
    DataRegistered registrations P (d.foreachRemove f) := by
  refine ⟨h.clients, fun s => ?_⟩
  have hs := h.services s
  cases hl : d.hashTable.lookup s with
  | none => simpa [listenersOf, getServiceEntryOrCreate, Data.foreachRemove, hl] using hs
  | some entry =>
    rw [listenersOf, getServiceEntryOrCreate_of_lookup hl] at hs
    have htrace : (d.foreachRemove f).trace s = d.trace s ++ (f entry).2 := by
      simp [Data.foreachRemove, hl]
    rw [listenersOf, getServiceEntryOrCreate_foreachRemove hl, htrace]
    exact hf s entry (d.trace s) hs

theorem dataRegistered_removeServer (h : DataRegistered registrations P d)
    (sends : Nat → Nat → Bool) (serverInfo : ServiceInfo) (hP : P serverInfo.serverInfo)
    (isLocal : Bool) :
    DataRegistered registrations P (dataRemoveServer sends d serverInfo isLocal) := by
  unfold dataRemoveServer
  cases hl : d.hashTable.lookup serverInfo.service with
  | none => exact h
  | some entry =>
    dsimp only
    split
    · have hs := h.services serverInfo.service
      rw [listenersOf, getServiceEntryOrCreate_of_lookup hl] at hs
      have hleft := hs.subset (List.eraseP_sublist (p := (findServer · serverInfo))).subset
        (List.Subset.refl _)
      refine (h.setService ?_).removeIfEmpty _
      rw [← List.append_assoc]
      refine (hleft.notify (sends · 0) serverInfo hP _ false).quiet fun c => ?_
      split <;> rfl
    · exact h

theorem dataRegistered_addServer (h : DataRegistered registrations P d) (sends : Nat → Nat → Bool)
    (serverInfo : ServiceInfo) (hP : P serverInfo.serverInfo) (isLocal : Bool) :
    DataRegistered registrations P (dataAddServer sends d serverInfo isLocal) := by
  have hremoved := dataRegistered_removeServer h sends { serverInfo with isLocal } hP isLocal
  have hadded := (hremoved.services serverInfo.service).add { serverInfo with isLocal } hP
  refine hremoved.setService ?_
  rw [← List.append_assoc]
  refine (hadded.notify (sends · 1) { serverInfo with isLocal } hP _ true).quiet fun c => ?_
  split <;> rfl

theorem dataRegistered_removeServersByAddr (h : DataRegistered registrations P d)
    (sends : Nat → Nat → Bool) (addr : UInt32) :
    DataRegistered registrations P (dataRemoveServersByAddr sends d addr) := by
  refine h.foreachRemove fun service entry trace hs => ?_
  have hleft := hs.subset (List.filter_sublist (p := (!serverHasAddr addr ·))).subset
    (List.Subset.refl _)
  have hgone := serviceRegistered_notifyRemoved sends
    (entry.servers.filter (!serverHasAddr addr ·)) (entry.servers.filter (serverHasAddr addr)) 0
    (fun a ha => hs.servers a (List.mem_of_mem_filter ha)) hleft
  unfold deleteServerByAddr
  dsimp only
  rw [notifyRemoved_servers]
  exact hgone

theorem dataRegistered_removeByPid (h : DataRegistered registrations P d)
    (sends : Nat → Nat → Bool) (pid : UInt32) :
    DataRegistered registrations P (dataRemoveByPid sends d pid) := by
  refine h.foreachRemove fun service entry trace hs => ?_
  have hleft := hs.subset (List.Subset.refl _)
    (List.filter_sublist (p := fun l : ListenerData => l.pid != pid)).subset
  have hgone := serviceRegistered_notifyRemoved sends entry.servers
    (entry.servers.filter fun serviceInfo => serviceInfo.isLocal && serviceInfo.pid == pid) 0
    (fun a ha => hs.servers a (List.mem_of_mem_filter ha)) hleft
  unfold removeByPid
  dsimp only
  rw [notifyRemoved_servers]
  exact hgone.subset List.filter_sublist.subset (List.Subset.refl _)

theorem dataRegistered_removeListener (h : DataRegistered registrations P d)
    (info : ListenerInfo) : DataRegistered registrations P (dataRemoveListener d info) := by
  unfold dataRemoveListener
  cases hl : d.hashTable.lookup info.service with
  | none => exact h
  | some entry =>
    have hs := h.services info.service
    rw [listenersOf, getServiceEntryOrCreate_of_lookup hl] at hs
    dsimp only
    split
    · exact h
    · refine (h.setService ?_).removeIfEmpty _
      exact (hs.subset (List.Subset.refl _) List.eraseP_sublist.subset).quiet fun _ => rfl

/-- The new client is the one after those that are registered. -/
theorem dataRegistered_addListener (h : DataRegistered registrations P d)
    {sends : Nat → Nat → Bool} {info : ListenerInfo}
    (hs : dataAddListener sends d info = some d') :
    DataRegistered (registrations ++ [⟨info.service, info.id⟩]) P d' := by
  obtain ⟨transport, _, rfl⟩ := Option.map_eq_some_iff.mp hs
  have hnew : (registrations ++ [(⟨info.service, info.id⟩ : Registration)])[d.nextClient]? =
      some ⟨info.service, info.id⟩ := by
    rw [← h.clients, List.getElem?_append_right (Nat.le_refl _), Nat.sub_self]
    rfl
  refine ⟨by rw [List.length_append, h.clients]; rfl, ?_⟩
  have hgrown := fun s => (h.services s).grow [⟨info.service, info.id⟩]
  have hservice := hgrown info.service
  refine services_setService hgrown ⟨hservice.servers, fun l hl => ?_, fun c event he => ?_⟩
  · split at hl
    · cases List.mem_cons.mp hl with
      | inl hl => rw [hl]; exact hnew
      | inr hl => exact hservice.listeners l hl
    · exact hservice.listeners l hl
  · rw [sentTo_append, List.mem_append] at he
    cases he with
    | inl he => exact hservice.sent c event he
    | inr he =>
      have hfirst : sentTo c [Effect.processWatchAdd info.pid] = [] := rfl
      rw [sentTo_append, ← List.singleton_append, sentTo_append, hfirst, List.nil_append,
        List.mem_append] at he
      cases he with
      | inl he =>
        obtain ⟨hclient, hid, hmem⟩ := mem_sentTo_sendServers he
        rw [← hclient, hid]
        exact ⟨hnew, hservice.servers _ hmem⟩
      | inr he =>
        split at he
        · cases he
        · cases he

/-- **One operation.** A registration gets the next client, and what is sent on any client is
about the service of its registration, under its id. -/
theorem dataRegistered_step (h : DataRegistered registrations P d) {op : Op}
    {sends : Nat → Nat → Bool} {o : List Empty} (hP : NamesServer P op)
    (hs : dataStep d (op, sends) = some (d', o)) :
    DataRegistered (registrations ++ registrationOf op) P d' := by
  cases op with
  | addServer serverInfo isLocal =>
    obtain ⟨rfl, _⟩ := Prod.mk.inj (Option.some.inj hs)
    show DataRegistered (registrations ++ []) P _
    rw [List.append_nil]
    exact dataRegistered_addServer h sends serverInfo hP isLocal
  | removeServer serverInfo isLocal =>
    obtain ⟨rfl, _⟩ := Prod.mk.inj (Option.some.inj hs)
    show DataRegistered (registrations ++ []) P _
    rw [List.append_nil]
    exact dataRegistered_removeServer h sends serverInfo hP isLocal
  | removeServersByAddr addr =>
    obtain ⟨rfl, _⟩ := Prod.mk.inj (Option.some.inj hs)
    show DataRegistered (registrations ++ []) P _
    rw [List.append_nil]
    exact dataRegistered_removeServersByAddr h sends addr
  | removeByPid pid =>
    obtain ⟨rfl, _⟩ := Prod.mk.inj (Option.some.inj hs)
    show DataRegistered (registrations ++ []) P _
    rw [List.append_nil]
    exact dataRegistered_removeByPid h sends pid
  | addListener info =>
    obtain ⟨d₁, ha, he⟩ := Option.map_eq_some_iff.mp hs
    obtain ⟨rfl, _⟩ := Prod.mk.inj he
    exact dataRegistered_addListener h ha
  | removeListener info =>
    obtain ⟨rfl, _⟩ := Prod.mk.inj (Option.some.inj hs)
    show DataRegistered (registrations ++ []) P _
    rw [List.append_nil]
    exact dataRegistered_removeListener h info

end

end Cmsg.Sld
