import Cmsg.Sld.Listeners

/-! # Taking back a registration

A process registers all its listeners with the transport of its one event
server and tells them apart by an id. The daemon stores the id and sends it with
every event, but looks for the listener to remove by the transport alone. -/
namespace Cmsg.Sld
open Cmsg.Base Cmsg.Base.Runs

/-- The message of `_cmsg_service_listener_listen`; `unlisten` leaves out the pid. -/
def serviceListenerListen (serviceName : CString) (listen : Bool) (eventServer : Transport)
    (id pid : UInt32) : ListenerInfo :=
  ⟨serviceName, transportInfoCreate eventServer, id, if listen then pid else 0⟩

/-- The listeners registered for a service. -/
def listenersOf (d : Data) (service : CString) : List ListenerData :=
  (getServiceEntryOrCreate d service).listeners

/-- The test of `data_remove_listener`. -/
def sameTransport (info : ListenerInfo) (l : ListenerData) : Bool :=
  transportInfoCompare info.transportInfo (transportInfoCreate l.transport)

/-- The listener that a message is about. -/
def Names (info : ListenerInfo) (l : ListenerData) : Prop :=
  sameTransport info l = true ∧ l.id = info.id

/-- The events sent to one client, with the ids they carry. -/
def sentTo (client : Nat) (trace : List Effect) : List (Change ServerEvent) :=
  trace.filterMap fun
    | .serverAdded c event => if c = client then some (.added event) else none
    | .serverRemoved c event => if c = client then some (.removed event) else none
    | _ => none

/-- The events of the service itself, as a listener of an id has to be sent them.
The other hosts are told of the same ones. -/
def eventsFor (id : UInt32) (trace : List Effect) : List (Change ServerEvent) :=
  trace.filterMap fun
    | .remoteSyncServerAdded serverInfo => some (.added ⟨serverInfo, id⟩)
    | .remoteSyncServerRemoved serverInfo => some (.removed ⟨serverInfo, id⟩)
    | _ => none

/-- **What unlisten is for.** Exactly the listener that the message is about is
removed. It is sent nothing in any run from there, and every other listener,
for as long as it is registered, every event of its service under its own id. -/
structure UnlistenExact (d : Data) (info : ListenerInfo) : Prop where
  removed : ∀ s l, l ∈ listenersOf (dataRemoveListener d info) s ↔
    l ∈ listenersOf d s ∧ ¬ (s = info.service ∧ Names info l)
  later : ∀ ops d' o, exec dataStep (dataRemoveListener d info) ops = some (d', o) → ∀ s,
    ∃ trace, d'.trace s = (dataRemoveListener d info).trace s ++ trace ∧
      (∀ l ∈ listenersOf d s, s = info.service → Names info l → sentTo l.client trace = []) ∧
      ∀ l ∈ listenersOf d s, ¬ (s = info.service ∧ Names info l) → l ∈ listenersOf d' s →
        sentTo l.client trace = eventsFor l.id trace

/-- The first listener of the service that has the transport of the message is
the one, and the only one, that has its id too. -/
def FirstIsNamed (d : Data) (info : ListenerInfo) : Prop :=
  ∀ listener, (listenersOf d info.service).find? (sameTransport info) = some listener →
    listener.id = info.id ∧ ∀ l ∈ listenersOf d info.service, Names info l → l = listener

@[simp] theorem sentTo_append (c : Nat) (t t' : List Effect) :
    sentTo c (t ++ t') = sentTo c t ++ sentTo c t' :=
  List.filterMap_append ..

@[simp] theorem eventsFor_append (id : UInt32) (t t' : List Effect) :
    eventsFor id (t ++ t') = eventsFor id t ++ eventsFor id t' :=
  List.filterMap_append ..

/-! ## What is sent while listeners come and go -/

/-- Effects that lead from one list of listeners of a service to another. A client
of a number below `next` is sent nothing once it has no listener, and what
happens to the service as long as it has one. -/
structure Tells (next : Nat) (listeners : List ListenerData) (effects : List Effect)
    (listeners' : List ListenerData) : Prop where
  old : ∀ l ∈ listeners', l.client < next → l ∈ listeners
  silent : ∀ c < next, c ∉ listeners.map (·.client) → sentTo c effects = []
  told : ∀ l ∈ listeners, l ∈ listeners' → sentTo l.client effects = eventsFor l.id effects

section
variable {next : Nat} {listeners listeners₁ listeners₂ : List ListenerData}
  {effects effects₁ effects₂ : List Effect}

/-- Effects that send nothing and happen to no server, while listeners are dropped. -/
theorem tells_quiet (hsent : ∀ c, sentTo c effects = []) (hevents : ∀ id, eventsFor id effects = [])
    (hsub : ∀ l ∈ listeners₁, l ∈ listeners) : Tells next listeners effects listeners₁ where
  old l hl _ := hsub l hl
  silent c _ _ := hsent c
  told l _ _ := by rw [hsent, hevents]

theorem Tells.trans {next' : Nat} (hknown : ∀ l ∈ listeners, l.client < next) (hn : next ≤ next')
    (h₁ : Tells next listeners effects₁ listeners₁) (h₂ : Tells next' listeners₁ effects₂ listeners₂) :
    Tells next listeners (effects₁ ++ effects₂) listeners₂ where
  old l hl hc := h₁.old l (h₂.old l hl (Nat.lt_of_lt_of_le hc hn)) hc
  silent c hc hnone := by
    have hnone₁ : c ∉ listeners₁.map (·.client) := by
      intro hmem
      obtain ⟨l, hl, rfl⟩ := List.mem_map.mp hmem
      exact hnone (List.mem_map_of_mem (h₁.old l hl hc))
    rw [sentTo_append, h₁.silent c hc hnone, h₂.silent c (Nat.lt_of_lt_of_le hc hn) hnone₁]
    rfl
  told l hl hl₂ := by
    have hl₁ := h₂.old l hl₂ (Nat.lt_of_lt_of_le (hknown l hl) hn)
    rw [sentTo_append, eventsFor_append, h₁.told l hl hl₁, h₂.told l hl₁ hl₂]

/-! ## Notifications -/

/-- What one listener is sent by `notify_listeners`. -/
def notification (serverInfo : ServiceInfo) (added : Bool) (l : ListenerData) : Effect :=
  if added then .serverAdded l.client ⟨serverInfo, l.id⟩ else .serverRemoved l.client ⟨serverInfo, l.id⟩

def change (serverInfo : ServiceInfo) (added : Bool) (id : UInt32) : Change ServerEvent :=
  if added then .added ⟨serverInfo, id⟩ else .removed ⟨serverInfo, id⟩

theorem sentTo_notification (serverInfo : ServiceInfo) (added : Bool) (l : ListenerData) (c : Nat) :
    sentTo c [notification serverInfo added l] =
      if l.client = c then [change serverInfo added l.id] else [] := by
  unfold notification change
  by_cases hc : l.client = c
  · cases added with
    | true => simp [sentTo, hc]
    | false => simp [sentTo, hc]
  · cases added with
    | true => simp [sentTo, hc]
    | false => simp [sentTo, hc]

theorem sentTo_notifications_of_not_mem (serverInfo : ServiceInfo) (added : Bool) {c : Nat}
    (hc : c ∉ listeners.map (·.client)) :
    sentTo c (listeners.map (notification serverInfo added)) = [] := by
  induction listeners with
  | nil => rfl
  | cons l listeners ih =>
    obtain ⟨hl, hrest⟩ := not_or.mp (mt List.mem_cons.mpr hc)
    rw [List.map_cons, ← List.singleton_append, sentTo_append, sentTo_notification,
      if_neg (Ne.symm hl), ih hrest]
    rfl

theorem sentTo_notifications (serverInfo : ServiceInfo) (added : Bool)
    (hnodup : (listeners.map (·.client)).Nodup) {l : ListenerData} (hl : l ∈ listeners) :
    sentTo l.client (listeners.map (notification serverInfo added)) =
      [change serverInfo added l.id] := by
  induction listeners with
  | nil => cases hl
  | cons l' listeners ih =>
    obtain ⟨hnew, hnodup⟩ := List.nodup_cons.mp hnodup
    rw [List.map_cons, ← List.singleton_append, sentTo_append, sentTo_notification]
    rcases List.mem_cons.mp hl with rfl | hl
    · rw [if_pos rfl, sentTo_notifications_of_not_mem _ _ hnew, List.append_nil]
    · have hother : l'.client ≠ l.client := by
        intro he
        exact hnew (List.mem_map.mpr ⟨l, hl, he.symm⟩)
      rw [if_neg hother, List.nil_append, ih hnodup hl]

theorem eventsFor_notifications (serverInfo : ServiceInfo) (added : Bool) (id : UInt32) :
    eventsFor id (listeners.map (notification serverInfo added)) = [] := by
  induction listeners with
  | nil => rfl
  | cons l listeners ih =>
    have hl : eventsFor id [notification serverInfo added l] = [] := by
      unfold notification
      cases added with
      | true => rfl
      | false => rfl
    rw [List.map_cons, ← List.singleton_append, eventsFor_append, ih, hl]
    rfl

/-- One notification, together with what the other hosts are told. -/
theorem tells_notify (hnodup : (listeners.map (·.client)).Nodup) (sends : Nat → Bool)
    (serverInfo : ServiceInfo) (stored : List ServiceInfo) (added : Bool) (rest : List Effect)
    (hsent : ∀ c, sentTo c rest = [])
    (hevents : ∀ id, eventsFor id rest = [change serverInfo added id]) :
    Tells next listeners
      ((notifyListeners sends serverInfo ⟨stored, listeners⟩ added).2 ++ rest)
      (notifyListeners sends serverInfo ⟨stored, listeners⟩ added).1.listeners := by
  have hnotified : (notifyListeners sends serverInfo ⟨stored, listeners⟩ added).2 =
      listeners.map (notification serverInfo added) := rfl
  rw [hnotified]
  refine ⟨fun l hl _ => List.mem_of_mem_filter hl, fun c _ hc => ?_, fun l hl _ => ?_⟩
  · rw [sentTo_append, hsent, List.append_nil, sentTo_notifications_of_not_mem _ _ hc]
  · rw [sentTo_append, eventsFor_append, hsent, hevents, List.append_nil, eventsFor_notifications,
      sentTo_notifications _ _ hnodup hl]
    rfl

/-- The loops over servers that are gone. -/
theorem tells_notifyRemoved (sends : Nat → Nat → Bool) (stored : List ServiceInfo)
    (hknown : ∀ l ∈ listeners, l.client < next) (hnodup : (listeners.map (·.client)).Nodup)
    (gone : List ServiceInfo) : ∀ k,
    Tells next listeners (notifyRemoved sends k ⟨stored, listeners⟩ gone).2
      (notifyRemoved sends k ⟨stored, listeners⟩ gone).1.listeners := by
  induction gone generalizing listeners with
  | nil => exact fun _ => tells_quiet (fun _ => rfl) (fun _ => rfl) fun _ hl => hl
  | cons serverInfo gone ih =>
    intro k
    have hfirst : Tells next listeners _ _ := tells_notify hnodup (sends · k) serverInfo stored false
      [.remoteSyncServerRemoved serverInfo] (fun _ => rfl) fun _ => rfl
    have hsub : (notifyListeners (sends · k) serverInfo ⟨stored, listeners⟩ false).1.listeners.Sublist
        listeners := List.filter_sublist
    have hrest := ih (fun l hl => hknown l (hsub.mem hl)) ((hsub.map _).nodup hnodup) (k + 1)
    have hall := hfirst.trans hknown (Nat.le_refl next) hrest
    rw [List.append_assoc] at hall
    exact hall

/-! ## The operations -/

/-- What a step from `d` to `d'` does for one service. -/
def Told (d d' : Data) (s : CString) : Prop :=
  ∃ effects, d'.trace s = d.trace s ++ effects ∧ d.nextClient ≤ d'.nextClient ∧
    Tells d.nextClient (listenersOf d s) effects (listenersOf d' s)

theorem told_refl (d : Data) (s : CString) : Told d d s :=
  ⟨[], (List.append_nil _).symm, Nat.le_refl _,
    tells_quiet (fun _ => rfl) (fun _ => rfl) fun _ hl => hl⟩

theorem Told.trans {d₁ d₂ d₃ : Data} {s : CString} (hok : DataOk d₁) (h₁ : Told d₁ d₂ s)
    (h₂ : Told d₂ d₃ s) : Told d₁ d₃ s := by
  obtain ⟨effects₁, htrace₁, hnext₁, htells₁⟩ := h₁
  obtain ⟨effects₂, htrace₂, hnext₂, htells₂⟩ := h₂
  refine ⟨effects₁ ++ effects₂, ?_, Nat.le_trans hnext₁ hnext₂,
    htells₁.trans (hok s).known hnext₁ htells₂⟩
  rw [htrace₂, htrace₁, List.append_assoc]

theorem told_setService {d : Data} {service : CString} {entry : ServiceDataEntry}
    {effects : List Effect} {next' : Nat} (hn : d.nextClient ≤ next')
    (h : Tells d.nextClient (listenersOf d service) effects entry.listeners) (s : CString) :
    Told d { d.setService service entry effects with nextClient := next' } s := by
  by_cases hs : s = service
  · subst hs
    refine ⟨effects, by simp [Data.setService], hn, ?_⟩
    simpa [listenersOf, getServiceEntryOrCreate, Data.setService] using h
  · refine ⟨[], by simp [Data.setService, hs], hn, ?_⟩
    have hsame : listenersOf { d.setService service entry effects with nextClient := next' } s =
        listenersOf d s := by simp [listenersOf, getServiceEntryOrCreate, Data.setService, hs]
    rw [hsame]
    exact tells_quiet (fun _ => rfl) (fun _ => rfl) fun _ hl => hl

theorem trace_removeIfEmpty (d : Data) (service : CString) :
    (dataRemoveServiceDataEntryIfEmpty d service).trace = d.trace ∧
      (dataRemoveServiceDataEntryIfEmpty d service).nextClient = d.nextClient := by
  unfold dataRemoveServiceDataEntryIfEmpty
  split
  · exact ⟨rfl, rfl⟩
  · exact ⟨rfl, rfl⟩

theorem Told.removeIfEmpty {d d' : Data} {s : CString} (h : Told d d' s) (service : CString) :
    Told d (dataRemoveServiceDataEntryIfEmpty d' service) s := by
  obtain ⟨effects, htrace, hnext, htells⟩ := h
  obtain ⟨ht, hn⟩ := trace_removeIfEmpty d' service
  refine ⟨effects, by rw [ht, htrace], by rw [hn]; exact hnext, ?_⟩
  show Tells _ _ _ (getServiceEntryOrCreate _ s).listeners
  rw [getServiceEntryOrCreate_removeIfEmpty]
  exact htells

theorem told_foreachRemove {d : Data} {f : ServiceDataEntry → ServiceDataEntry × List Effect}
    (hok : DataOk d)
    (hf : ∀ entry trace, ServiceOk d.nextClient entry.servers entry.listeners trace →
      Tells d.nextClient entry.listeners (f entry).2 (f entry).1.listeners) (s : CString) :
    Told d (d.foreachRemove f) s := by
  cases hl : d.hashTable.lookup s with
  | none =>
    refine ⟨[], by simp [Data.foreachRemove, hl], Nat.le_refl _, ?_⟩
    have hsame : listenersOf (d.foreachRemove f) s = listenersOf d s := by
      simp [listenersOf, getServiceEntryOrCreate, Data.foreachRemove, hl]
    rw [hsame]
    exact tells_quiet (fun _ => rfl) (fun _ => rfl) fun _ hl => hl
  | some entry =>
    have hs := hok s
    rw [getServiceEntryOrCreate_of_lookup hl] at hs
    refine ⟨(f entry).2, by simp [Data.foreachRemove, hl], Nat.le_refl _, ?_⟩
    have hbefore : listenersOf d s = entry.listeners :=
      congrArg ServiceDataEntry.listeners (getServiceEntryOrCreate_of_lookup hl)
    rw [hbefore, listenersOf, getServiceEntryOrCreate_foreachRemove hl f]
    exact hf entry (d.trace s) hs

theorem told_removeServer {d : Data} (hok : DataOk d) (sends : Nat → Nat → Bool)
    (serverInfo : ServiceInfo) (isLocal : Bool) (s : CString) :
    Told d (dataRemoveServer sends d serverInfo isLocal) s := by
  unfold dataRemoveServer
  cases hl : d.hashTable.lookup serverInfo.service with
  | none => exact told_refl d s
  | some entry =>
    dsimp only
    split
    · have hs := hok serverInfo.service
      have hentry := getServiceEntryOrCreate_of_lookup hl
      rw [hentry] at hs
      refine (told_setService (Nat.le_refl _) ?_ s).removeIfEmpty _
      rw [listenersOf, hentry]
      refine tells_notify hs.clients (sends · 0) serverInfo _ false _ (fun c => ?_) fun id => ?_
      · split
        · rfl
        · rfl
      · split
        · rfl
        · rfl
    · exact told_refl d s

theorem told_addServer {d : Data} (hok : DataOk d) (sends : Nat → Nat → Bool)
    (serverInfo : ServiceInfo) (isLocal : Bool) (s : CString) :
    Told d (dataAddServer sends d serverInfo isLocal) s := by
  have hremoved := dataOk_removeServer hok sends { serverInfo with isLocal } isLocal
  refine (told_removeServer hok sends { serverInfo with isLocal } isLocal s).trans hok ?_
  refine told_setService (Nat.le_refl _) ?_ s
  refine tells_notify (hremoved serverInfo.service).clients (sends · 1) _ _ true _ (fun c => ?_)
    fun id => ?_
  · split
    · rfl
    · rfl
  · split
    · rfl
    · rfl

theorem told_removeServersByAddr {d : Data} (hok : DataOk d) (sends : Nat → Nat → Bool)
    (addr : UInt32) (s : CString) : Told d (dataRemoveServersByAddr sends d addr) s :=
  told_foreachRemove hok (fun _ _ hs => tells_notifyRemoved sends _ hs.known hs.clients _ 0) s

theorem told_removeByPid {d : Data} (hok : DataOk d) (sends : Nat → Nat → Bool) (pid : UInt32)
    (s : CString) : Told d (dataRemoveByPid sends d pid) s := by
  refine told_foreachRemove hok (fun entry trace hs => ?_) s
  have hsub : (entry.listeners.filter fun l => l.pid != pid).Sublist entry.listeners :=
    List.filter_sublist
  have hdropped : Tells d.nextClient entry.listeners [] (entry.listeners.filter fun l => l.pid != pid) :=
    tells_quiet (fun _ => rfl) (fun _ => rfl) fun _ hl => hsub.mem hl
  have hgone := tells_notifyRemoved sends entry.servers (fun l hl => hs.known l (hsub.mem hl))
    ((hsub.map _).nodup hs.clients)
    (entry.servers.filter fun serviceInfo => serviceInfo.isLocal && serviceInfo.pid == pid) 0
  exact hdropped.trans hs.known (Nat.le_refl _) hgone

theorem told_removeListener {d : Data} (info : ListenerInfo) (s : CString) :
    Told d (dataRemoveListener d info) s := by
  unfold dataRemoveListener
  cases hl : d.hashTable.lookup info.service with
  | none => exact told_refl d s
  | some entry =>
    dsimp only
    split
    · exact told_refl d s
    · refine (told_setService (Nat.le_refl _) ?_ s).removeIfEmpty _
      rw [listenersOf, getServiceEntryOrCreate_of_lookup hl]
      exact tells_quiet (fun _ => rfl) (fun _ => rfl) fun l hl => List.mem_of_mem_eraseP hl

/-- A listener that is being added is sent the servers already known, the others
nothing. -/
theorem sentTo_sendServers (sends : Nat → Bool) (listener : ListenerData) {c : Nat}
    (hc : listener.client ≠ c) : ∀ k servers,
    sentTo c (sendServers sends listener k servers).1 = [] ∧
      ∀ id, eventsFor id (sendServers sends listener k servers).1 = [] := by
  intro k servers
  induction servers generalizing k with
  | nil => exact ⟨rfl, fun _ => rfl⟩
  | cons serverInfo servers ih =>
    have hevent : sentTo c [.serverAdded listener.client ⟨serverInfo, listener.id⟩] = [] := by
      simp [sentTo, hc]
    unfold sendServers
    split
    · obtain ⟨hsent, hevents⟩ := ih (k + 1)
      dsimp only
      refine ⟨?_, fun id => ?_⟩
      · rw [← List.singleton_append, sentTo_append, hevent, hsent]
        rfl
      · rw [← List.singleton_append, eventsFor_append, hevents]
        rfl
    · exact ⟨hevent, fun _ => rfl⟩

theorem told_addListener {d d' : Data} (hok : DataOk d) {sends : Nat → Nat → Bool}
    {info : ListenerInfo} (h : dataAddListener sends d info = some d') (s : CString) :
    Told d d' s := by
  obtain ⟨transport, _, rfl⟩ := Option.map_eq_some_iff.mp h
  refine told_setService (Nat.le_succ _) ?_ s
  dsimp only
  let listener : ListenerData := ⟨d.nextClient, transport, info.id, info.pid⟩
  let r := sendServers (sends d.nextClient) listener 0
    (getServiceEntryOrCreate d info.service).servers
  have hquiet : ∀ c, c < d.nextClient →
      sentTo c (.processWatchAdd info.pid :: r.1 ++
        if r.2 then [] else [.processWatchRemove info.pid]) = [] ∧
      ∀ id, eventsFor id (.processWatchAdd info.pid :: r.1 ++
        if r.2 then [] else [.processWatchRemove info.pid]) = [] := by
    intro c hc
    obtain ⟨hsent, hevents⟩ := sentTo_sendServers (sends d.nextClient) listener
      (Nat.ne_of_gt hc) 0 (getServiceEntryOrCreate d info.service).servers
    refine ⟨?_, fun id => ?_⟩
    · rw [sentTo_append, ← List.singleton_append, sentTo_append, hsent]
      split
      · rfl
      · rfl
    · rw [eventsFor_append, ← List.singleton_append, eventsFor_append, hevents]
      split
      · rfl
      · rfl
  refine ⟨fun l hl hc => ?_, fun c hc _ => (hquiet c hc).1, fun l hl _ => ?_⟩
  · split at hl
    · rcases List.mem_cons.mp hl with rfl | hl
      · exact absurd hc (Nat.lt_irrefl _)
      · exact hl
    · exact hl
  · obtain ⟨hsent, hevents⟩ := hquiet l.client ((hok info.service).known l hl)
    exact hsent.trans (hevents l.id).symm

/-- One operation tells the listeners of a service what happens to it. -/
theorem told_step {d d' : Data} {op : Op × (Nat → Nat → Bool)} {o : List Empty} (hok : DataOk d)
    (hs : dataStep d op = some (d', o)) (s : CString) : Told d d' s := by
  obtain ⟨op, sends⟩ := op
  cases op with
  | addServer serverInfo isLocal =>
    obtain ⟨rfl, _⟩ := Prod.mk.inj (Option.some.inj hs)
    exact told_addServer hok sends serverInfo isLocal s
  | removeServer serverInfo isLocal =>
    obtain ⟨rfl, _⟩ := Prod.mk.inj (Option.some.inj hs)
    exact told_removeServer hok sends serverInfo isLocal s
  | removeServersByAddr addr =>
    obtain ⟨rfl, _⟩ := Prod.mk.inj (Option.some.inj hs)
    exact told_removeServersByAddr hok sends addr s
  | removeByPid pid =>
    obtain ⟨rfl, _⟩ := Prod.mk.inj (Option.some.inj hs)
    exact told_removeByPid hok sends pid s
  | addListener info =>
    obtain ⟨d₁, ha, he⟩ := Option.map_eq_some_iff.mp hs
    obtain ⟨rfl, _⟩ := Prod.mk.inj he
    exact told_addListener hok ha s
  | removeListener info =>
    obtain ⟨rfl, _⟩ := Prod.mk.inj (Option.some.inj hs)
    exact told_removeListener info s

/-- And so does every run. -/
theorem told_run {d d' : Data} {ops : List (Op × (Nat → Nat → Bool))} {o : List Empty}
    (hok : DataOk d) (he : exec dataStep d ops = some (d', o)) (s : CString) : Told d d' s :=
  (exec_invariant (I := fun t => DataOk t ∧ Told d t s)
    (fun _ _ _ _ h hs => ⟨dataOk_step h.1 hs, h.2.trans hok (told_step h.1 hs s)⟩)
    ⟨hok, told_refl d s⟩ he).2

/-! ## The listener that is removed -/

theorem listenersOf_removeListener (d : Data) (info : ListenerInfo) (s : CString) :
    listenersOf (dataRemoveListener d info) s =
      if s = info.service then (listenersOf d s).eraseP (sameTransport info) else listenersOf d s := by
  unfold dataRemoveListener
  cases hl : d.hashTable.lookup info.service with
  | none =>
    dsimp only
    split
    · next hs =>
      subst hs
      simp [listenersOf, getServiceEntryOrCreate, hl]
    · rfl
  | some entry =>
    have hentry := getServiceEntryOrCreate_of_lookup hl
    dsimp only
    split
    · next hnone =>
      split
      · next hs =>
        subst hs
        rw [listenersOf, hentry, List.eraseP_of_forall_not]
        exact List.find?_eq_none.mp hnone
      · rfl
    · show (getServiceEntryOrCreate _ s).listeners = _
      rw [getServiceEntryOrCreate_removeIfEmpty]
      by_cases hs : s = info.service
      · subst hs
        rw [if_pos rfl, listenersOf, hentry]
        simp only [getServiceEntryOrCreate, Data.setService, HashTable.lookup_insert, if_true]
        rfl
      · rw [if_neg hs]
        simp [listenersOf, getServiceEntryOrCreate, Data.setService, hs]

/-- Exactly the listener of the message is removed where the first one found is it. -/
theorem removed_iff {d : Data} (hok : DataOk d) (info : ListenerInfo) :
    (∀ s l, l ∈ listenersOf (dataRemoveListener d info) s ↔
      l ∈ listenersOf d s ∧ ¬ (s = info.service ∧ Names info l)) ↔ FirstIsNamed d info := by
  have hnodup : (listenersOf d info.service).Nodup := (hok info.service).clients.of_map
  have hafter := listenersOf_removeListener d info info.service
  rw [if_pos rfl] at hafter
  constructor
  · intro hremoved listener hfirst
    have hmem := List.mem_of_find?_eq_some hfirst
    have hnames : ∀ l ∈ listenersOf d info.service, Names info l ↔ l = listener := by
      intro l hl
      have hl' := hremoved info.service l
      rw [hafter, hnodup.mem_eraseP hfirst] at hl'
      simp only [hl, true_and] at hl'
      exact not_iff_not.mp hl'.symm
    exact ⟨((hnames listener hmem).mpr rfl).2, fun l hl hn => (hnames l hl).mp hn⟩
  · intro hfirst s l
    rw [listenersOf_removeListener]
    split
    · next hs =>
      subst hs
      simp only [true_and]
      cases hfind : (listenersOf d info.service).find? (sameTransport info) with
      | none =>
        have hnone := List.find?_eq_none.mp hfind
        rw [List.eraseP_of_forall_not hnone]
        exact ⟨fun hl => ⟨hl, fun hn => hnone l hl hn.1⟩, And.left⟩
      | some listener =>
        obtain ⟨hid, honly⟩ := hfirst listener hfind
        rw [hnodup.mem_eraseP hfind]
        refine and_congr_right fun hl => not_congr ⟨?_, honly l hl⟩
        rintro rfl
        exact ⟨List.find?_some hfind, hid⟩
    · next hs => simp [hs]

/-- In whatever way the removal went, the rest of the run tells every listener
that is left what happens to its service. -/
theorem later_of_removed {d : Data} (hok : DataOk d) {info : ListenerInfo}
    (hremoved : ∀ s l, l ∈ listenersOf (dataRemoveListener d info) s ↔
      l ∈ listenersOf d s ∧ ¬ (s = info.service ∧ Names info l)) : UnlistenExact d info := by
  refine ⟨hremoved, fun ops d' o he s => ?_⟩
  obtain ⟨trace, htrace, _, htells⟩ := told_run (dataOk_removeListener hok info) he s
  have hnext : (dataRemoveListener d info).nextClient = d.nextClient := by
    unfold dataRemoveListener
    split
    · rfl
    · dsimp only
      split
      · rfl
      · rw [(trace_removeIfEmpty _ _).2]
        rfl
  refine ⟨trace, htrace, fun l hl hs hn => ?_, fun l hl hn hl' => ?_⟩
  · refine htells.silent l.client (hnext ▸ (hok s).known l hl) fun hmem => ?_
    obtain ⟨l', hl', hclient⟩ := List.mem_map.mp hmem
    obtain ⟨hold, hother⟩ := (hremoved s l').mp hl'
    -- one client has one listener
    have hsame : l' = l := List.inj_on_of_nodup_map (hok s).clients hold hl hclient
    exact hother ⟨hs, hsame ▸ hn⟩
  · exact htells.told l ((hremoved s l).mpr ⟨hl, hn⟩) hl'

/-- **Unlisten removes the listener of the message**, in every state that the
daemon reaches, exactly when that is the one listener it finds first. -/
theorem unlisten_exact_iff {ops : List (Op × (Nat → Nat → Bool))} {d : Data} {o : List Empty}
    (he : exec dataStep dataInit ops = some (d, o)) (info : ListenerInfo) :
    UnlistenExact d info ↔ FirstIsNamed d info := by
  have hok : DataOk d := exec_invariant (fun _ _ _ _ h hs => dataOk_step h hs) dataOk_init he
  rw [← removed_iff hok info]
  exact ⟨fun h => h.removed, later_of_removed hok⟩

-- the event server of one process, which listens twice for one service
def sampleMessage (listen : Bool) (id : UInt32) : ListenerInfo :=
  serviceListenerListen [0x73] listen (.unix true [0x65]) id 7

def sampleListens : List (Op × (Nat → Nat → Bool)) :=
  [(.addListener (sampleMessage true 0), fun _ _ => true),
    (.addListener (sampleMessage true 1), fun _ _ => true)]

theorem unlisten_exact_latest :
    ∃ d o, exec dataStep dataInit sampleListens = some (d, o) ∧
      UnlistenExact d (sampleMessage false 1) := by
  have hrun : exec dataStep dataInit sampleListens = some (_, _) := rfl
  refine ⟨_, _, hrun, (unlisten_exact_iff hrun _).mpr fun listener hfirst => ?_⟩
  obtain rfl := Option.some.inj hfirst
  refine ⟨rfl, fun l hl hn => ?_⟩
  rcases List.mem_cons.mp hl with rfl | hl
  · rfl
  · obtain rfl := List.mem_singleton.mp hl
    cases hn.2

/-- Taking back the earlier of two registrations removes the later one. -/
theorem unlisten_removes_other :
    ∃ d o, exec dataStep dataInit sampleListens = some (d, o) ∧
      (listenersOf d [0x73]).map (·.id) = [1, 0] ∧
      (listenersOf (dataRemoveListener d (sampleMessage false 0)) [0x73]).map (·.id) = [0] ∧
      ¬ UnlistenExact d (sampleMessage false 0) := by
  refine ⟨_, _, rfl, by decide, by decide, fun h => ?_⟩
  have hfirst := (h.removed [0x73] _).mp (List.mem_singleton_self _)
  exact hfirst.2 ⟨rfl, by decide, rfl⟩

end
end Cmsg.Sld
