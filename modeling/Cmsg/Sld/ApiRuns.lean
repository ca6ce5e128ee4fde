import Cmsg.Sld.Api
import Mathlib.Algebra.Group.Nat.Defs

/-! # What a listener is told

In every run of a process with the daemon, whatever is lost or late between them, each
listener is handed the messages of one connection, from the first one on, in order and none
twice: those of the registration under its own id. So what it knows of the servers of its
service never contradicts itself, and once everything has arrived it is what the daemon
knows. -/
namespace Cmsg.Sld.Api
open Cmsg.Base Cmsg.Base.Runs Cmsg.Base.Change

/-- A message that says what a transport made of it says. -/
def Copies (info : TransportInfo) : Prop := transportInfoCopy info = some info

/-- An event as a change of the set of transports. -/
def eventChange (event : Wait.SlEvent) : Change Transport :=
  if event.added then .added event.transport else .removed event.transport

/-- The event that is made of a message. -/
def slEvent (change : Change ServerEvent) : Option Wait.SlEvent :=
  (transportInfoToTransport change.subject.serviceInfo.serverInfo).map fun transport =>
    ⟨change.isAdded, transport⟩

/-- The events that were handled for a listener. -/
def handledBy (info : Nat) (log : List Handled) : List Wait.SlEvent :=
  (log.filter fun handled => handled.info == info).map (·.event)

/-- The services that were listened for, in order. -/
def listened {Config Action : Type} (inputs : List (Input Config Action)) : List CString :=
  inputs.filterMap fun
    | .listen serviceName _ => some serviceName
    | _ => none

section
variable {Config UserData Action : Type}

/-- The messages that have arrived for a registration: none as long as no client of the daemon
is connected for it, and else the first ones sent on that client. -/
inductive Arrived (p : Process) (s : System UserData) (registration : Registration) :
    List (Change ServerEvent) → Prop
  | none (h : ∀ connection ∈ s.connections, connection.transport = p.eventServer →
      connection.registration.id ≠ registration.id) : Arrived p s registration []
  | on {client : Nat} {connection : Connection} (hc : s.connections[client]? = some connection)
      (ht : connection.transport = p.eventServer) (hr : connection.registration = registration) :
      Arrived p s registration ((s.sent client connection).take connection.received)

def SlInfo.registration (entry : SlInfo UserData) : Registration := ⟨entry.serviceName, entry.id⟩

/-- All that a listener was handed, and what waits for it. -/
def toldOf (log : List Handled) (entry : SlInfo UserData) : List Wait.SlEvent :=
  handledBy entry.info log ++ entry.queue

/-- A relation between the events handled so far and the user data that the application
keeps, as long as what it is told does not contradict itself. -/
structure Keeps (app : Application Config UserData Action)
    (I : List Wait.SlEvent → UserData → Prop) : Prop where
  start : ∀ config, I [] (app.start config)
  handler : ∀ events userData event info, I events userData →
    transportInfoToTransport info = some event.transport →
    Alternates Transport.endpoint ((events ++ [event]).map eventChange) →
    I (events ++ [event]) (app.handler userData event).1
  act : ∀ events userData action userData', I events userData →
    app.act userData action = some userData' → I events userData'

/-- One listener. -/
structure EntryInv (p : Process) (app : Application Config UserData Action)
    (I : List Wait.SlEvent → UserData → Prop) (names : List CString) (s : System UserData)
    (log : List Handled) (entry : SlInfo UserData) : Prop where
  name : names[entry.info]? = some entry.serviceName
  id : entry.id = UInt32.ofNat entry.info
  told : ∃ changes, Arrived p s entry.registration changes ∧
    changes.map slEvent = (toldOf log entry).map some
  wakes : entry.queue ≠ [] →
    0 < entry.eventfd ∨ entry.info ∈ s.toWrite ∨ entry.processing = true ∨ entry.stopped = true
  stops : entry.stopped = true → ∃ userData event, (app.handler userData event).2 = false
  user : I (handledBy entry.info log) entry.userData

/-- The clients of the daemon without what has arrived. -/
def System.heads (s : System UserData) : List (Registration × Transport) :=
  s.connections.map fun connection => (connection.registration, connection.transport)

/-- The ids that registrations at the event server have or will have. -/
def openIds (p : Process) (s : System UserData) : List UInt32 :=
  (s.requests.filter (·.listen)).map (·.info.id) ++
    (s.heads.filter fun head => head.2 = p.eventServer).map (·.1.id)

structure SystemInv (p : Process) (app : Application Config UserData Action)
    (I : List Wait.SlEvent → UserData → Prop) (names : List CString) (s : System UserData)
    (log : List Handled) : Prop where
  daemon : DataOk s.daemon
  registered : DataRegistered (s.heads.map (·.1)) Copies s.daemon
  created : s.created = names.length
  logged : ∀ handled ∈ log, handled.info < s.created
  distinct : (s.listenerList.map (·.info)).Nodup
  ids : (openIds p s).Nodup
  requests : ∀ request ∈ s.requests, request.listen = true →
    names[request.info.id.toNat]? = some request.info.service
  connected : ∀ head ∈ s.heads, head.2 = p.eventServer →
    names[head.1.id.toNat]? = some head.1.service
  received : ∀ client connection, s.connections[client]? = some connection →
    connection.received ≤ (s.sent client connection).length
  entries : ∀ entry ∈ s.listenerList, EntryInv p app I names s log entry

/-! ## Events and messages -/

theorem transportInfoToTransport_of_copies {info : TransportInfo} (h : Copies info) :
    ∃ transport, transportInfoToTransport info = some transport ∧
      transport.endpoint = info.endpoint := by
  obtain ⟨transport, ht, he, _⟩ := toTransport_endpoint h
  exact ⟨transport, ht, he⟩

/-- Messages and the events made of them are about the same endpoints. -/
theorem endpoints_of_events : ∀ {changes : List (Change ServerEvent)} {events : List Wait.SlEvent},
    (∀ change ∈ changes, Copies change.subject.serviceInfo.serverInfo) →
    changes.map slEvent = events.map some →
    (events.map eventChange).map (Change.map Transport.endpoint) =
      changes.map (Change.map fun event => serverKey event.serviceInfo)
  | [], [], _, _ => rfl
  | [], _ :: _, _, h => by cases h
  | _ :: _, [], _, h => by cases h
  | change :: changes, event :: events, hcopies, h => by
    rw [List.map_cons, List.map_cons, List.cons.injEq] at h
    have hrest := endpoints_of_events (fun c hc => hcopies c (List.mem_cons_of_mem _ hc)) h.2
    obtain ⟨transport, ht, he⟩ := transportInfoToTransport_of_copies
      (hcopies change List.mem_cons_self)
    have hevent : event = ⟨change.isAdded, transport⟩ := by
      have hfirst := h.1
      rw [slEvent, ht] at hfirst
      exact (Option.some.inj hfirst).symm
    rw [List.map_cons, List.map_cons, List.map_cons, hrest, hevent]
    cases change with
    | added subject =>
      have hhead : Change.map Transport.endpoint (eventChange ⟨true, transport⟩) =
          .added (serverKey subject.serviceInfo) := congrArg Change.added he
      rw [isAdded, hhead, Change.map]
    | removed subject =>
      have hhead : Change.map Transport.endpoint (eventChange ⟨false, transport⟩) =
          .removed (serverKey subject.serviceInfo) := congrArg Change.removed he
      rw [isAdded, hhead, Change.map]

theorem eventsTo_eq (client : Nat) (trace : List Effect) :
    eventsTo client trace = (sentTo client trace).map (Change.map ServerEvent.serviceInfo) := by
  induction trace with
  | nil => rfl
  | cons effect trace ih =>
    rw [← List.singleton_append, eventsTo_append, sentTo_append, List.map_append, ih]
    refine congrArg (· ++ _) ?_
    cases effect with
    | serverAdded c event =>
      by_cases hc : c = client
      · simp [eventsTo, sentTo, hc, Change.map]
      · simp [eventsTo, sentTo, hc]
    | serverRemoved c event =>
      by_cases hc : c = client
      · simp [eventsTo, sentTo, hc, Change.map]
      · simp [eventsTo, sentTo, hc]
    | remoteSyncServerAdded serverInfo => rfl
    | remoteSyncServerRemoved serverInfo => rfl
    | processWatchAdd pid => rfl
    | processWatchRemove pid => rfl

theorem handledBy_append (info : Nat) (log log' : List Handled) :
    handledBy info (log ++ log') = handledBy info log ++ handledBy info log' := by
  rw [handledBy, List.filter_append, List.map_append, handledBy, handledBy]

theorem getElem?_append_of_some {α : Type} {l : List α} {k : Nat} {a : α} (h : l[k]? = some a)
    (more : List α) : (l ++ more)[k]? = some a := by
  rw [List.getElem?_append_left (List.getElem?_eq_some_iff.mp h).1, h]

/-! ## What has arrived -/

variable {p : Process} {app : Application Config UserData Action}
  {I : List Wait.SlEvent → UserData → Prop} {names : List CString} {s s' : System UserData}
  {log : List Handled} {entry : SlInfo UserData} {registration : Registration}
  {changes : List (Change ServerEvent)}

theorem heads_getElem? {client : Nat} {connection : Connection}
    (hc : s.connections[client]? = some connection) :
    s.heads[client]? = some (connection.registration, connection.transport) := by
  rw [System.heads, List.getElem?_map, hc]
  rfl

/-- The messages on a connection are about what it was registered for. -/
theorem SystemInv.sent (h : SystemInv p app I names s log) {client : Nat} {connection : Connection}
    (hc : s.connections[client]? = some connection) {change : Change ServerEvent}
    (hchange : change ∈ s.sent client connection) :
    change.subject.id = connection.registration.id ∧
      Copies change.subject.serviceInfo.serverInfo := by
  obtain ⟨hregistration, hcopies⟩ :=
    (h.registered.services connection.registration.service).sent client change hchange
  rw [List.getElem?_map, heads_getElem? hc] at hregistration
  refine ⟨?_, hcopies⟩
  exact (congrArg Registration.id (Option.some.inj hregistration)).symm

/-- What has arrived does not contradict itself. -/
theorem SystemInv.arrived (h : SystemInv p app I names s log)
    (ha : Arrived p s registration changes) :
    (∀ change ∈ changes, Copies change.subject.serviceInfo.serverInfo) ∧
      Alternates (serverKey ∘ ServerEvent.serviceInfo) changes := by
  cases ha with
  | none _ => exact ⟨fun _ hc => (by cases hc), alternates_nil⟩
  | @on client connection hc _ _ =>
    refine ⟨fun change hchange => (h.sent hc (List.mem_of_mem_take hchange)).2, ?_⟩
    have halt := (h.daemon connection.registration.service).alternates client
    rw [eventsTo_eq, alternates_map] at halt
    rw [← List.take_append_drop connection.received (sentTo client _)] at halt
    exact halt.of_append

theorem alternates_of_events {events : List Wait.SlEvent}
    (hcopies : ∀ change ∈ changes, Copies change.subject.serviceInfo.serverInfo)
    (heq : changes.map slEvent = events.map some)
    (halt : Alternates (serverKey ∘ ServerEvent.serviceInfo) changes) :
    Alternates Transport.endpoint (events.map eventChange) := by
  have hsame := endpoints_of_events hcopies heq
  have hkeys : Alternates (id ∘ fun event : ServerEvent => serverKey event.serviceInfo) changes :=
    halt
  rw [← alternates_map, ← hsame, alternates_map] at hkeys
  exact hkeys

theorem SystemInv.alternates (h : SystemInv p app I names s log) (he : entry ∈ s.listenerList) :
    Alternates Transport.endpoint ((toldOf log entry).map eventChange) := by
  obtain ⟨changes, ha, heq⟩ := (h.entries entry he).told
  obtain ⟨hcopies, halt⟩ := h.arrived ha
  exact alternates_of_events hcopies heq halt

/-- Listeners are told apart by their ids. -/
theorem EntryInv.toNat_id (h : EntryInv p app I names s log entry)
    (hcount : names.length ≤ 2 ^ 32) :
    entry.id.toNat = entry.info := by
  have hlt := (List.getElem?_eq_some_iff.mp h.name).1
  rw [h.id, UInt32.toNat_ofNat']
  exact Nat.mod_eq_of_lt (Nat.lt_of_lt_of_le hlt hcount)

/-- A registration under the id of a listener is for its service. -/
theorem EntryInv.registration_eq (h : EntryInv p app I names s log entry)
    (hcount : names.length ≤ 2 ^ 32) {r : Registration} (hid : r.id = entry.id)
    (hname : names[r.id.toNat]? = some r.service) : r = entry.registration := by
  rw [hid, h.toNat_id hcount, h.name] at hname
  obtain ⟨service, id⟩ := r
  obtain rfl : entry.serviceName = service := Option.some.inj hname
  obtain rfl : id = entry.id := hid
  rfl

theorem Arrived.frame (h : Arrived p s registration changes) (hc : s'.connections = s.connections)
    (hd : s'.daemon = s.daemon) : Arrived p s' registration changes := by
  obtain ⟨daemon, connections, _, _, _, _⟩ := s
  obtain ⟨daemon', connections', _, _, _, _⟩ := s'
  obtain rfl : connections' = connections := hc
  obtain rfl : daemon' = daemon := hd
  cases h with
  | none hn => exact .none hn
  | on hc ht hr => exact .on hc ht hr

/-- What a step does not change for one listener. -/
theorem EntryInv.move (h : EntryInv p app I names s log entry) {names' : List CString}
    {log' : List Handled} (hnames : ∀ name, names[entry.info]? = some name →
      names'[entry.info]? = some name)
    (harrived : ∀ changes, Arrived p s entry.registration changes →
      Arrived p s' entry.registration changes)
    (hwrite : entry.info ∈ s.toWrite → entry.info ∈ s'.toWrite)
    (hlog : handledBy entry.info log' = handledBy entry.info log) :
    EntryInv p app I names' s' log' entry := by
  refine ⟨hnames _ h.name, h.id, ?_, fun hq => ?_, h.stops, ?_⟩
  · obtain ⟨changes, ha, heq⟩ := h.told
    refine ⟨changes, harrived changes ha, ?_⟩
    rw [heq, toldOf, toldOf, hlog]
  · cases h.wakes hq with
    | inl hfd => exact .inl hfd
    | inr hrest => exact .inr (hrest.imp_left hwrite)
  · rw [hlog]
    exact h.user

/-! ## Requests and the daemon -/

theorem SystemInv.dropRequests (h : SystemInv p app I names s log) {requests : List Request}
    (hsub : requests.Sublist s.requests) : SystemInv p app I names { s with requests } log := by
  refine ⟨h.daemon, h.registered, h.created, h.logged, h.distinct, ?_, ?_, h.connected,
    h.received, fun entry he => ?_⟩
  · have hids : (openIds p { s with requests }).Sublist (openIds p s) :=
      ((hsub.filter _).map _).append (List.Sublist.refl _)
    exact hids.nodup h.ids
  · exact fun request hr => h.requests request (hsub.mem hr)
  · exact (h.entries entry he).move (fun _ hn => hn) (fun _ ha => ha.frame rfl rfl) id rfl

theorem mem_connectionOf {op : Op} {connection : Connection} (h : connection ∈ connectionOf op) :
    ∃ info, op = .addListener info ∧
      transportInfoToTransport info.transportInfo = some connection.transport ∧
      connection.registration = ⟨info.service, info.id⟩ ∧ connection.received = 0 := by
  cases op with
  | addListener info =>
    obtain ⟨transport, ht, rfl⟩ := List.mem_map.mp h
    exact ⟨info, rfl, Option.mem_toList.mp ht, rfl, rfl⟩
  | addServer serverInfo isLocal => cases h
  | removeServer serverInfo isLocal => cases h
  | removeServersByAddr addr => cases h
  | removeByPid pid => cases h
  | removeListener info => cases h

/-- A registration that the daemon makes is a client of its own. -/
theorem map_registration_connectionOf {d d' : Data} {op : Op} {sends : Nat → Nat → Bool}
    {o : List Empty} (hs : dataStep d (op, sends) = some (d', o)) :
    (connectionOf op).map (·.registration) = registrationOf op := by
  cases op with
  | addListener info =>
    obtain ⟨d₁, ha, _⟩ := Option.map_eq_some_iff.mp hs
    obtain ⟨transport, ht, _⟩ := Option.map_eq_some_iff.mp ha
    rw [connectionOf, ht]
    rfl
  | addServer serverInfo isLocal => rfl
  | removeServer serverInfo isLocal => rfl
  | removeServersByAddr addr => rfl
  | removeByPid pid => rfl
  | removeListener info => rfl

/-- What was sent stays sent. -/
theorem sent_daemonStep {d' : Data} {op : Op} {sends : Nat → Nat → Bool} {o : List Empty}
    (hok : DataOk s.daemon) (hs : dataStep s.daemon (op, sends) = some (d', o))
    (connections : List Connection) (client : Nat) (connection : Connection) :
    s.sent client connection <+:
      ({ s with daemon := d', connections } : System UserData).sent client connection := by
  obtain ⟨effects, htrace, _⟩ := told_step hok hs connection.registration.service
  refine ⟨sentTo client effects, ?_⟩
  unfold System.sent
  rw [htrace, sentTo_append]

/-- The conditions on an operation: the servers it names are those of messages that a copy
leaves alone, and a registration at the event server is one that was asked for. -/
structure OpOk (p : Process) (names : List CString) (s : System UserData) (op : Op) : Prop where
  servers : NamesServer Copies op
  listener : ∀ info, op = .addListener info →
    transportInfoToTransport info.transportInfo = some p.eventServer →
    info.id ∉ openIds p s ∧ names[info.id.toNat]? = some info.service

theorem SystemInv.daemonStep (h : SystemInv p app I names s log) (hcount : names.length ≤ 2 ^ 32)
    {op : Op} {sends : Nat → Nat → Bool} (hop : OpOk p names s op)
    (hs : s.daemonStep op sends = some s') : SystemInv p app I names s' log := by
  obtain ⟨⟨d', o⟩, hd, rfl⟩ := Option.map_eq_some_iff.mp hs
  dsimp only
  have hheads : ({ s with daemon := d', connections := s.connections ++ connectionOf op } :
      System UserData).heads = s.heads ++ (connectionOf op).map fun connection =>
        (connection.registration, connection.transport) := by
    rw [System.heads, List.map_append]
    rfl
  have hgrow := sent_daemonStep h.daemon hd (s.connections ++ connectionOf op)
  have hnew : ∀ connection ∈ connectionOf op, connection.transport = p.eventServer →
      connection.registration.id ∉ openIds p s ∧
        names[connection.registration.id.toNat]? = some connection.registration.service := by
    intro connection hmem htransport
    obtain ⟨info, rfl, ht, hr, _⟩ := mem_connectionOf hmem
    rw [htransport] at ht
    rw [hr]
    exact hop.listener info rfl ht
  refine ⟨dataOk_step h.daemon hd, ?_, h.created, h.logged, h.distinct, ?_, h.requests, ?_, ?_,
    fun entry he => ?_⟩
  · have hstep := dataRegistered_step h.registered hop.servers hd
    rw [hheads, List.map_append, List.map_map]
    rw [← map_registration_connectionOf hd] at hstep
    exact hstep
  · have hids : openIds p ({ s with
        daemon := d', connections := s.connections ++ connectionOf op } : System UserData) = openIds p s ++ ((connectionOf op).filter fun connection =>
          connection.transport = p.eventServer).map (·.registration.id) := by
      rw [openIds, hheads, List.filter_append, List.map_append, ← List.append_assoc,
        List.filter_map, List.map_map]
      rfl
    rw [hids, List.nodup_append]
    refine ⟨h.ids, ?_, fun a ha b hb hab => ?_⟩
    · -- one operation makes at most one client
      cases op with
      | addListener info =>
        cases ht : transportInfoToTransport info.transportInfo with
        | none =>
          rw [connectionOf, ht]
          exact List.nodup_nil
        | some transport =>
          rw [connectionOf, ht]
          exact ((List.filter_sublist.map _).nodup (List.nodup_singleton _))
      | addServer serverInfo isLocal => exact List.nodup_nil
      | removeServer serverInfo isLocal => exact List.nodup_nil
      | removeServersByAddr addr => exact List.nodup_nil
      | removeByPid pid => exact List.nodup_nil
      | removeListener info => exact List.nodup_nil
    · obtain ⟨connection, hmem, rfl⟩ := List.mem_map.mp hb
      obtain ⟨hmem, htransport⟩ := List.mem_filter.mp hmem
      exact (hnew connection hmem (of_decide_eq_true htransport)).1 (hab ▸ ha)
  · intro head hmem htransport
    rw [hheads, List.mem_append] at hmem
    cases hmem with
    | inl hmem => exact h.connected head hmem htransport
    | inr hmem =>
      obtain ⟨connection, hc, rfl⟩ := List.mem_map.mp hmem
      exact (hnew connection hc htransport).2
  · intro client connection hc
    have hsent := (hgrow client connection).length_le
    by_cases hlt : client < s.connections.length
    · rw [List.getElem?_append_left hlt] at hc
      exact Nat.le_trans (h.received client connection hc) hsent
    · rw [List.getElem?_append_right (Nat.le_of_not_lt hlt)] at hc
      obtain ⟨_, _, _, _, hzero⟩ := mem_connectionOf (List.mem_of_getElem? hc)
      rw [hzero]
      exact Nat.zero_le _
  · refine (h.entries entry he).move (fun _ hn => hn) (fun changes ha => ?_) id rfl
    cases ha with
    | none hnone =>
      by_cases hours : ∃ connection ∈ connectionOf op, connection.transport = p.eventServer ∧
          connection.registration.id = entry.id
      · obtain ⟨connection, hmem, htransport, hid⟩ := hours
        obtain ⟨k, hk⟩ := List.mem_iff_getElem?.mp hmem
        have hr := (h.entries entry he).registration_eq hcount hid (hnew connection hmem
          htransport).2
        have hat : (s.connections ++ connectionOf op)[s.connections.length + k]? =
            some connection := by
          rw [List.getElem?_append_right (Nat.le_add_right _ _), Nat.add_sub_cancel_left, hk]
        obtain ⟨_, _, _, _, hzero⟩ := mem_connectionOf hmem
        have hon := Arrived.on (s := { s with
          daemon := d', connections := s.connections ++ connectionOf op }) hat htransport hr
        rw [hzero, List.take_zero] at hon
        exact hon
      · refine .none fun connection hmem htransport hid => ?_
        cases List.mem_append.mp hmem with
        | inl hmem => exact hnone connection hmem htransport hid
        | inr hmem => exact hours ⟨connection, hmem, htransport, hid⟩
    | @on client connection hc ht hr =>
      have hon := Arrived.on (p := p) (s := { s with
        daemon := d', connections := s.connections ++ connectionOf op })
        (getElem?_append_of_some hc (connectionOf op)) ht hr
      obtain ⟨more, hmore⟩ := hgrow client connection
      rw [← hmore, List.take_append_of_le_length (h.received client connection hc)] at hon
      exact hon

/-! ## Listening and unlistening -/

theorem SystemInv.openIds_lt (h : SystemInv p app I names s log) {id : UInt32}
    (hid : id ∈ openIds p s) : id.toNat < names.length := by
  cases List.mem_append.mp hid with
  | inl hid =>
    obtain ⟨request, hr, rfl⟩ := List.mem_map.mp hid
    obtain ⟨hr, hlisten⟩ := List.mem_filter.mp hr
    exact (List.getElem?_eq_some_iff.mp (h.requests request hr hlisten)).1
  | inr hid =>
    obtain ⟨head, hhead, rfl⟩ := List.mem_map.mp hid
    obtain ⟨hhead, htransport⟩ := List.mem_filter.mp hhead
    exact (List.getElem?_eq_some_iff.mp
      (h.connected head hhead (of_decide_eq_true htransport))).1

theorem SystemInv.listen (h : SystemInv p app I names s log) (hkeeps : Keeps app I)
    {serviceName : CString} {config : Config} (hcount : (names ++ [serviceName]).length ≤ 2 ^ 32) :
    SystemInv p app I (names ++ [serviceName]) (s.listen p serviceName (app.start config)) log := by
  rw [List.length_append, List.length_singleton] at hcount
  have hnew : (UInt32.ofNat s.created).toNat = names.length := by
    rw [UInt32.toNat_ofNat', h.created]
    exact Nat.mod_eq_of_lt hcount
  have hfresh : UInt32.ofNat s.created ∉ openIds p s := by
    intro hmem
    have hlt := h.openIds_lt hmem
    rw [hnew] at hlt
    exact Nat.lt_irrefl _ hlt
  have hname : (names ++ [serviceName])[names.length]? = some serviceName := by
    rw [List.getElem?_append_right (Nat.le_refl _), Nat.sub_self]
    rfl
  have hinfos : ∀ info ∈ s.listenerList.map (·.info), info < s.created := by
    intro info hmem
    obtain ⟨entry, he, rfl⟩ := List.mem_map.mp hmem
    rw [h.created]
    exact (List.getElem?_eq_some_iff.mp (h.entries entry he).name).1
  refine ⟨h.daemon, h.registered, ?_, ?_, ?_, ?_, ?_, ?_, h.received, fun entry he => ?_⟩
  · rw [List.length_append, ← h.created]
    rfl
  · exact fun handled hmem => Nat.lt_succ_of_lt (h.logged handled hmem)
  · exact List.nodup_cons.mpr ⟨fun hmem => Nat.lt_irrefl _ (hinfos _ hmem), h.distinct⟩
  · have hids : (openIds p (s.listen p serviceName (app.start config))).Perm
        (UInt32.ofNat s.created :: openIds p s) := by
      unfold openIds System.listen System.heads
      rw [List.filter_append, List.map_append, List.append_assoc]
      exact List.perm_middle
    exact hids.nodup_iff.mpr (List.nodup_cons.mpr ⟨hfresh, h.ids⟩)
  · intro request hr hlisten
    cases List.mem_append.mp hr with
    | inl hr => exact getElem?_append_of_some (h.requests request hr hlisten) _
    | inr hr =>
      rw [List.mem_singleton.mp hr]
      show (names ++ [serviceName])[(UInt32.ofNat s.created).toNat]? = some serviceName
      rw [hnew, hname]
  · exact fun head hhead ht => getElem?_append_of_some (h.connected head hhead ht) _
  · cases List.mem_cons.mp he with
    | inl he =>
      have hnone : handledBy s.created log = [] := by
        rw [handledBy, List.map_eq_nil_iff, List.filter_eq_nil_iff]
        intro handled hmem heq
        exact Nat.ne_of_lt (h.logged handled hmem) (beq_iff_eq.mp heq)
      subst he
      refine ⟨?_, rfl, ⟨[], .none fun connection hmem ht hid => ?_, ?_⟩, fun hq => absurd rfl hq,
        nofun, ?_⟩
      · show (names ++ [serviceName])[s.created]? = some serviceName
        rw [h.created, hname]
      · refine hfresh (List.mem_append_right _ (List.mem_map.mpr
          ⟨(connection.registration, connection.transport), List.mem_filter.mpr ⟨?_, ?_⟩, hid⟩))
        · exact List.mem_map.mpr ⟨connection, hmem, rfl⟩
        · exact decide_eq_true ht
      · show [] = (handledBy s.created log ++ []).map some
        rw [hnone]
        rfl
      · show I (handledBy s.created log) (app.start config)
        rw [hnone]
        exact hkeeps.start config
    | inr he =>
      exact (h.entries entry he).move (fun _ hn => getElem?_append_of_some hn _)
        (fun _ ha => ha.frame rfl rfl) id rfl

theorem heads_eventServerDeinit (s : System UserData) : s.eventServerDeinit.heads = s.heads := by
  unfold System.heads System.eventServerDeinit
  refine List.ext_getElem? fun k => ?_
  rw [List.getElem?_map, List.getElem?_map, List.getElem?_mapIdx]
  cases s.connections[k]? with
  | none => rfl
  | some connection => rfl

theorem SystemInv.unlisten (h : SystemInv p app I names s log) {info : Nat}
    (hs : s.unlisten p info = some s') : SystemInv p app I names s' log := by
  obtain ⟨entry, _, hs⟩ := Option.map_eq_some_iff.mp hs
  dsimp only at hs
  have hsub : (s.listenerList.eraseP fun entry => entry.info == info).Sublist s.listenerList :=
    List.eraseP_sublist
  have hasked : ∀ request ∈ s.requests ++ [(⟨false, serviceListenerListen entry.serviceName false
      p.eventServer entry.id p.pid⟩ : Request)], request.listen = true →
      names[request.info.id.toNat]? = some request.info.service := by
    intro request hr hlisten
    cases List.mem_append.mp hr with
    | inl hr => exact h.requests request hr hlisten
    | inr hr =>
      rw [List.mem_singleton.mp hr] at hlisten
      cases hlisten
  have hids : (((s.requests ++ [(⟨false, serviceListenerListen entry.serviceName false
      p.eventServer entry.id p.pid⟩ : Request)]).filter (·.listen)).map (·.info.id) ++
        (s.heads.filter fun head => head.2 = p.eventServer).map (·.1.id)).Nodup := by
    rw [List.filter_append, List.map_append]
    have hnone : ([(⟨false, serviceListenerListen entry.serviceName false p.eventServer entry.id
        p.pid⟩ : Request)].filter (·.listen)) = [] := rfl
    rw [hnone, List.map_nil, List.append_nil]
    exact h.ids
  by_cases hempty : (s.listenerList.eraseP fun entry => entry.info == info).isEmpty = true
  · rw [if_pos hempty] at hs
    subst hs
    have hheads := heads_eventServerDeinit { s with
      listenerList := s.listenerList.eraseP fun entry => entry.info == info
      requests := s.requests ++ [(⟨false, serviceListenerListen entry.serviceName false
        p.eventServer entry.id p.pid⟩ : Request)] }
    refine ⟨h.daemon, ?_, h.created, h.logged, (hsub.map _).nodup h.distinct, ?_, hasked, ?_,
      fun client connection hc => ?_, fun e he => ?_⟩
    · rw [hheads]
      exact h.registered
    · rw [openIds, hheads]
      exact hids
    · rw [hheads]
      exact h.connected
    · obtain ⟨connection₀, _, rfl⟩ : ∃ connection₀, s.connections[client]? = some connection₀ ∧
          { connection₀ with received := (s.sent client connection₀).length } = connection := by
        unfold System.eventServerDeinit at hc
        rw [List.getElem?_mapIdx] at hc
        exact Option.map_eq_some_iff.mp hc
      exact Nat.le_refl _
    · have hmem : e ∈ s.listenerList.eraseP fun entry => entry.info == info := he
      rw [List.isEmpty_iff.mp hempty] at hmem
      cases hmem
  · rw [if_neg hempty] at hs
    subst hs
    refine ⟨h.daemon, h.registered, h.created, h.logged, (hsub.map _).nodup h.distinct, hids,
      hasked, h.connected, h.received, fun e he => ?_⟩
    exact (h.entries e (hsub.mem he)).move (fun _ hn => hn) (fun _ ha => ha.frame rfl rfl) id rfl

/-! ## What the threads do -/

theorem mem_modify {info : Nat} {f : SlInfo UserData → SlInfo UserData}
    (hdistinct : (s.listenerList.map (·.info)).Nodup)
    (h : entry ∈ (s.modify info f).listenerList) :
    (∃ old, s.lookup info = some old ∧ entry = f old) ∨
      (entry ∈ s.listenerList ∧ entry.info ≠ info) := by
  obtain ⟨old, hold, rfl⟩ := List.mem_map.mp h
  by_cases hinfo : (old.info == info) = true
  · rw [if_pos hinfo]
    refine .inl ⟨old, ?_, rfl⟩
    obtain ⟨found, hfound⟩ := Option.isSome_iff_exists.mp
      (List.find?_isSome (p := fun entry => entry.info == info).mpr ⟨old, hold, hinfo⟩)
    have hat : (found.info == info) = true :=
      List.find?_some (p := fun entry : SlInfo UserData => entry.info == info) hfound
    have hsame : found = old := by
      refine List.inj_on_of_nodup_map hdistinct (List.mem_of_find?_eq_some hfound) hold ?_
      rw [beq_iff_eq.mp hat, beq_iff_eq.mp hinfo]
    rw [System.lookup, hfound, hsame]
  · rw [if_neg hinfo]
    exact .inr ⟨hold, fun he => hinfo (beq_iff_eq.mpr he)⟩

/-- A step of one listener: the others do not notice. -/
theorem SystemInv.modify (h : SystemInv p app I names s log) {info : Nat} {toWrite : List Nat}
    {f : SlInfo UserData → SlInfo UserData} {log' : List Handled}
    (hinfo : ∀ entry, (f entry).info = entry.info)
    (hwrite : ∀ i ∈ s.toWrite, i ≠ info → i ∈ toWrite)
    (hlog : ∀ i, i ≠ info → handledBy i log' = handledBy i log)
    (hlogged : ∀ handled ∈ log', handled.info < s.created)
    (hnew : ∀ old, s.lookup info = some old →
      EntryInv p app I names { s with toWrite } log' (f old)) :
    SystemInv p app I names (({ s with toWrite } : System UserData).modify info f) log' := by
  refine ⟨h.daemon, h.registered, h.created, hlogged, ?_, h.ids, h.requests, h.connected,
    h.received, fun entry he => ?_⟩
  · have hinfos : ((({ s with toWrite } : System UserData).modify info f).listenerList).map
        (·.info) = s.listenerList.map (·.info) := by
      unfold System.modify
      rw [List.map_map]
      refine List.map_congr_left fun entry _ => ?_
      rw [Function.comp_apply]
      split
      · exact hinfo entry
      · rfl
    rw [hinfos]
    exact h.distinct
  · cases mem_modify (s := { s with toWrite }) h.distinct he with
    | inl hchanged =>
      obtain ⟨old, hold, rfl⟩ := hchanged
      exact (hnew old hold).move (fun _ hn => hn) (fun _ ha => ha.frame rfl rfl) id rfl
    | inr hother =>
      exact (h.entries entry hother.1).move (fun _ hn => hn) (fun _ ha => ha.frame rfl rfl)
        (fun hi => hwrite _ hi hother.2) (hlog _ hother.2)

theorem lookup_some {info : Nat} (h : s.lookup info = some entry) :
    entry ∈ s.listenerList ∧ entry.info = info := by
  have hat : (entry.info == info) = true :=
    List.find?_some (p := fun entry : SlInfo UserData => entry.info == info) h
  exact ⟨List.mem_of_find?_eq_some h, beq_iff_eq.mp hat⟩

/-- A step of one listener that no event server waits for. -/
theorem SystemInv.modifyEntry (h : SystemInv p app I names s log) {info : Nat}
    {f : SlInfo UserData → SlInfo UserData} (hinfo : ∀ entry, (f entry).info = entry.info)
    (hnew : ∀ old, s.lookup info = some old → EntryInv p app I names s log (f old)) :
    SystemInv p app I names (s.modify info f) log :=
  h.modify hinfo (fun _ hi _ => hi) (fun _ _ => rfl) h.logged hnew

theorem SystemInv.eventfdWrite (h : SystemInv p app I names s log) {info : Nat} {toWrite : List Nat}
    (hwrite : s.toWrite = info :: toWrite) :
    SystemInv p app I names (({ s with toWrite } : System UserData).modify info fun entry =>
      { entry with eventfd := entry.eventfd + 1 }) log := by
  refine h.modify (fun _ => rfl) (fun i hi hne => ?_) (fun _ _ => rfl) h.logged
    fun old hold => ?_
  · rw [hwrite] at hi
    exact (List.mem_cons.mp hi).resolve_left hne
  · have hentry := h.entries old (lookup_some hold).1
    obtain ⟨changes, ha, heq⟩ := hentry.told
    exact ⟨hentry.name, hentry.id, ⟨changes, ha.frame rfl rfl, heq⟩,
      fun _ => .inl (Nat.succ_pos _), hentry.stops, hentry.user⟩

/-- The wake-up that is cleared at the start is not lost: the loop looks at the queue. -/
theorem SystemInv.process (h : SystemInv p app I names s log) (info : Nat) :
    SystemInv p app I names (s.modify info fun entry =>
      { entry with eventfd := 0, processing := true, stopped := false }) log := by
  refine h.modifyEntry (fun _ => rfl) fun old hold => ?_
  have hentry := h.entries old (lookup_some hold).1
  exact ⟨hentry.name, hentry.id, hentry.told, fun _ => .inr (.inr (.inl rfl)), nofun, hentry.user⟩

theorem handledBy_snoc (info : Nat) (log : List Handled) (handled : Handled) :
    handledBy info (log ++ [handled]) =
      if handled.info = info then handledBy info log ++ [handled.event]
      else handledBy info log := by
  rw [handledBy_append]
  by_cases hinfo : handled.info = info
  · rw [if_pos hinfo]
    simp [handledBy, hinfo]
  · rw [if_neg hinfo]
    simp [handledBy, hinfo]

theorem SystemInv.pop (h : SystemInv p app I names s log) (hkeeps : Keeps app I) {info : Nat}
    (hold : s.lookup info = some entry) :
    SystemInv p app I names (s.pop app entry).1 (log ++ (s.pop app entry).2) := by
  obtain ⟨hmem, rfl⟩ := lookup_some hold
  have hentry := h.entries entry hmem
  cases hq : entry.queue with
  | nil =>
    have hpop : s.pop app entry =
        (s.modify entry.info fun entry => { entry with processing := false }, []) := by
      rw [System.pop, hq]
    rw [hpop, List.append_nil]
    refine h.modifyEntry (fun _ => rfl) fun old hsame => ?_
    obtain rfl : entry = old := Option.some.inj (hold.symm.trans hsame)
    exact ⟨hentry.name, hentry.id, hentry.told, fun hne => absurd hq hne, hentry.stops,
      hentry.user⟩
  | cons event queue =>
    have hpop : s.pop app entry =
        (s.modify entry.info fun old =>
          { old with
            queue, userData := (app.handler entry.userData event).1
            processing := (app.handler entry.userData event).2
            stopped := !(app.handler entry.userData event).2 },
          [⟨entry.info, event⟩]) := by
      rw [System.pop, hq]
    rw [hpop]
    have htold : toldOf log entry = (handledBy entry.info log ++ [event]) ++ queue := by
      rw [toldOf, hq, List.append_assoc]
      rfl
    have hlog : handledBy entry.info (log ++ [⟨entry.info, event⟩]) =
        handledBy entry.info log ++ [event] := by
      rw [handledBy_snoc, if_pos rfl]
    refine h.modify (fun _ => rfl) (fun _ hi _ => hi) (fun i hi => ?_) (fun handled hmem => ?_)
      fun old hsame => ?_
    · rw [handledBy_snoc, if_neg (Ne.symm hi)]
    · cases List.mem_append.mp hmem with
      | inl hmem => exact h.logged handled hmem
      | inr hmem =>
        rw [List.mem_singleton.mp hmem, h.created]
        exact (List.getElem?_eq_some_iff.mp hentry.name).1
    · obtain rfl : entry = old := Option.some.inj (hold.symm.trans hsame)
      obtain ⟨changes, ha, heq⟩ := hentry.told
      refine ⟨hentry.name, hentry.id, ⟨changes, ha, ?_⟩, fun _ => ?_, fun hstop => ?_, ?_⟩
      · rw [heq, htold, toldOf, hlog]
      · cases hret : (app.handler entry.userData event).2 with
        | false => exact .inr (.inr (.inr rfl))
        | true => exact .inr (.inr (.inl rfl))
      · refine ⟨entry.userData, event, ?_⟩
        cases hret : (app.handler entry.userData event).2 with
        | false => rfl
        | true =>
          dsimp only at hstop
          rw [hret] at hstop
          cases hstop
      · rw [hlog]
        have halt := h.alternates hmem
        rw [htold, List.map_append] at halt
        have hmade : some event ∈ changes.map slEvent := by
          rw [heq, htold, List.append_assoc]
          exact List.mem_map_of_mem (List.mem_append_right _ List.mem_cons_self)
        obtain ⟨change, _, hevent⟩ := List.mem_map.mp hmade
        obtain ⟨transport, ht, rfl⟩ := Option.map_eq_some_iff.mp hevent
        exact hkeeps.handler _ _ _ _ hentry.user ht halt.of_append

theorem SystemInv.application (h : SystemInv p app I names s log) (hkeeps : Keeps app I)
    {info : Nat}
    (hold : s.lookup info = some entry) {action : Action} {userData : UserData}
    (hact : app.act entry.userData action = some userData) :
    SystemInv p app I names (s.modify info fun entry => { entry with userData }) log := by
  refine h.modifyEntry (fun _ => rfl) fun old hsame => ?_
  obtain rfl : entry = old := Option.some.inj (hold.symm.trans hsame)
  have hentry := h.entries entry (lookup_some hold).1
  exact ⟨hentry.name, hentry.id, hentry.told, hentry.wakes, hentry.stops,
    hkeeps.act _ _ _ _ hentry.user hact⟩

/-! ## The event server -/

/-- One place of a list holds what has a key that is there once. -/
theorem index_eq_of_nodup {α κ : Type} {l : List α} {q : α → Bool} {key : α → κ}
    (h : ((l.filter q).map key).Nodup) {i j : Nat} {a b : α} (hi : l[i]? = some a)
    (hj : l[j]? = some b) (ha : q a = true) (hb : q b = true) (hkey : key a = key b) : i = j := by
  have hpairs := List.pairwise_filter.mp (List.pairwise_map.mp h)
  obtain ⟨hilt, hia⟩ := List.getElem?_eq_some_iff.mp hi
  obtain ⟨hjlt, hjb⟩ := List.getElem?_eq_some_iff.mp hj
  have hno : ∀ {i j : Nat} (hi : i < l.length) (hj : j < l.length), q l[i] = true →
      q l[j] = true → key l[i] = key l[j] → ¬ i < j := by
    intro i j hi hj hqi hqj hk hlt
    exact List.pairwise_iff_getElem.mp hpairs i j hi hj hlt hqi hqj hk
  subst hia hjb
  have h₁ := hno hilt hjlt ha hb hkey
  have h₂ := hno hjlt hilt hb ha hkey.symm
  omega

theorem SystemInv.client_eq (h : SystemInv p app I names s log) {client client' : Nat}
    {connection connection' : Connection} (hc : s.connections[client]? = some connection)
    (hc' : s.connections[client']? = some connection') (ht : connection.transport = p.eventServer)
    (ht' : connection'.transport = p.eventServer)
    (hid : connection.registration.id = connection'.registration.id) : client = client' :=
  index_eq_of_nodup (List.nodup_append.mp h.ids).2.1 (heads_getElem? hc) (heads_getElem? hc')
    (decide_eq_true ht) (decide_eq_true ht') hid

/-- The queue of a listener whose id a message carries gets the event. -/
def pushed (id : UInt32) (event : Wait.SlEvent) (entry : SlInfo UserData) : SlInfo UserData :=
  if entry.id == id then { entry with queue := entry.queue ++ [event] } else entry

theorem notifyListener_eq {listenerList listenerList' : List (SlInfo UserData)}
    {change : Change ServerEvent}
    (h : notifyListener listenerList change.subject change.isAdded = some listenerList') :
    (∃ event, slEvent change = some event ∧
      listenerList' = listenerList.map (pushed change.subject.id event)) ∨
      ((∀ entry ∈ listenerList, entry.id ≠ change.subject.id) ∧ listenerList' = listenerList) := by
  unfold notifyListener at h
  by_cases hany : (listenerList.any fun entry => entry.id == change.subject.id) = true
  · rw [if_pos hany] at h
    obtain ⟨transport, ht, rfl⟩ := Option.map_eq_some_iff.mp h
    exact .inl ⟨⟨change.isAdded, transport⟩, by rw [slEvent, ht]; rfl, rfl⟩
  · rw [if_neg hany] at h
    refine .inr ⟨fun entry hmem hid => hany ?_, (Option.some.inj h).symm⟩
    exact List.any_eq_true.mpr ⟨entry, hmem, beq_iff_eq.mpr hid⟩

/-- Everything that `receive` does. -/
theorem receive_eq {client : Nat} (h : s.receive p client = some s') :
    ∃ connection change listenerList, s.connections[client]? = some connection ∧
      connection.transport = p.eventServer ∧ s.toWrite = [] ∧
      (s.sent client connection)[connection.received]? = some change ∧
      notifyListener s.listenerList change.subject change.isAdded = some listenerList ∧
      s' = s.advance client connection change.subject.id listenerList := by
  unfold System.receive at h
  cases hc : s.connections[client]? with
  | none =>
    rw [hc] at h
    cases h
  | some connection =>
    rw [hc] at h
    dsimp only at h
    by_cases hguard : connection.transport = p.eventServer ∧ s.listenerList.isEmpty = false ∧
        s.toWrite.isEmpty = true
    · rw [if_pos hguard] at h
      cases hchange : (s.sent client connection)[connection.received]? with
      | none =>
        rw [hchange] at h
        cases h
      | some change =>
        rw [hchange] at h
        obtain ⟨listenerList, hnotify, rfl⟩ := Option.map_eq_some_iff.mp h
        exact ⟨connection, change, listenerList, rfl, hguard.1,
          List.isEmpty_iff.mp hguard.2.2, hchange, hnotify, rfl⟩
    · rw [if_neg hguard] at h
      cases h

section
variable {client : Nat} {connection : Connection}

theorem advance_getElem?_self (hc : s.connections[client]? = some connection) (id : UInt32)
    (listenerList : List (SlInfo UserData)) :
    (s.advance client connection id listenerList).connections[client]? =
      some { connection with received := connection.received + 1 } :=
  List.getElem?_set_self (List.getElem?_eq_some_iff.mp hc).1

theorem advance_getElem?_ne {client' : Nat} (hne : client ≠ client') (id : UInt32)
    (listenerList : List (SlInfo UserData)) :
    (s.advance client connection id listenerList).connections[client']? =
      s.connections[client']? :=
  List.getElem?_set_ne hne

theorem heads_advance (hc : s.connections[client]? = some connection) (id : UInt32)
    (listenerList : List (SlInfo UserData)) :
    (s.advance client connection id listenerList).heads = s.heads := by
  refine List.ext_getElem? fun k => ?_
  rw [System.heads, System.heads, List.getElem?_map, List.getElem?_map]
  by_cases hk : client = k
  · rw [← hk, advance_getElem?_self hc, hc]
    rfl
  · rw [advance_getElem?_ne hk]

/-- The message has arrived for the registration of its connection. -/
theorem SystemInv.arrived_advance (h : SystemInv p app I names s log)
    (hc : s.connections[client]? = some connection) (ht : connection.transport = p.eventServer)
    {change : Change ServerEvent}
    (hchange : (s.sent client connection)[connection.received]? = some change)
    (listenerList : List (SlInfo UserData)) (ha : Arrived p s registration changes)
    (hid : registration.id = change.subject.id) :
    Arrived p (s.advance client connection change.subject.id listenerList) registration
      (changes ++ [change]) := by
  have hsent := (h.sent hc (List.mem_of_getElem? hchange)).1
  cases ha with
  | none hn => exact absurd (hsent.symm.trans hid.symm) (hn connection (List.mem_of_getElem? hc) ht)
  | @on client' connection' hc' ht' hr' =>
    have hsame : connection.registration.id = connection'.registration.id := by
      rw [hr', ← hsent, ← hid]
    obtain rfl := h.client_eq hc hc' ht ht' hsame
    obtain rfl : connection = connection' := Option.some.inj (hc.symm.trans hc')
    have hon := Arrived.on (p := p) (advance_getElem?_self hc change.subject.id listenerList) ht hr'
    dsimp only at hon
    rw [List.take_add_one] at hon
    have hnext : ((s.advance client connection change.subject.id listenerList).sent client
        { connection with received := connection.received + 1 })[connection.received]? =
        some change := hchange
    rw [hnext] at hon
    exact hon

/-- And nothing has for the others. -/
theorem SystemInv.arrived_advance_of_ne (h : SystemInv p app I names s log)
    (hc : s.connections[client]? = some connection) (ht : connection.transport = p.eventServer)
    {change : Change ServerEvent}
    (hchange : (s.sent client connection)[connection.received]? = some change)
    (listenerList : List (SlInfo UserData)) (ha : Arrived p s registration changes)
    (hid : registration.id ≠ change.subject.id) :
    Arrived p (s.advance client connection change.subject.id listenerList) registration
      changes := by
  have hsent := (h.sent hc (List.mem_of_getElem? hchange)).1
  cases ha with
  | none hn =>
    refine .none fun other hother htransport => ?_
    cases List.mem_or_eq_of_mem_set hother with
    | inl hother => exact hn other hother htransport
    | inr hother =>
      rw [hother]
      exact hn connection (List.mem_of_getElem? hc) ht
  | @on client' connection' hc' ht' hr' =>
    have hne : client ≠ client' := by
      intro heq
      subst heq
      obtain rfl : connection = connection' := Option.some.inj (hc.symm.trans hc')
      exact hid (by rw [hsent, hr'])
    exact Arrived.on (p := p) (s := s.advance client connection change.subject.id listenerList)
      ((advance_getElem?_ne hne _ _).trans hc') ht' hr'

end

theorem SystemInv.receive (h : SystemInv p app I names s log) {client : Nat}
    (hs : s.receive p client = some s') : SystemInv p app I names s' log := by
  obtain ⟨connection, change, listenerList, hc, ht, hnowrite, hchange, hnotify, rfl⟩ :=
    receive_eq hs
  have hheads := heads_advance hc change.subject.id listenerList
  have hinfos : listenerList.map (·.info) = s.listenerList.map (·.info) := by
    cases notifyListener_eq hnotify with
    | inl hpushed =>
      obtain ⟨event, _, rfl⟩ := hpushed
      rw [List.map_map]
      refine List.map_congr_left fun entry _ => ?_
      rw [Function.comp_apply, pushed]
      split
      · rfl
      · rfl
    | inr hsame => rw [hsame.2]
  have hunchanged : ∀ entry ∈ s.listenerList, entry.id ≠ change.subject.id →
      EntryInv p app I names (s.advance client connection change.subject.id listenerList) log
        entry :=
    fun entry he hne => (h.entries entry he).move (fun _ hn => hn)
      (fun _ ha => h.arrived_advance_of_ne hc ht hchange listenerList ha hne)
      (fun hi => by rw [hnowrite] at hi; cases hi) rfl
  refine ⟨h.daemon, ?_, h.created, h.logged, ?_, ?_, h.requests, ?_, ?_, fun entry he => ?_⟩
  · rw [hheads]
    exact h.registered
  · show (listenerList.map (·.info)).Nodup
    rw [hinfos]
    exact h.distinct
  · rw [openIds, hheads]
    exact h.ids
  · rw [hheads]
    exact h.connected
  · intro client' connection' hc'
    by_cases hsame : client = client'
    · subst hsame
      rw [advance_getElem?_self hc] at hc'
      obtain rfl := Option.some.inj hc'
      exact (List.getElem?_eq_some_iff.mp hchange).1
    · rw [advance_getElem?_ne hsame] at hc'
      exact h.received client' connection' hc'
  · cases notifyListener_eq hnotify with
    | inr hsame =>
      obtain ⟨hnone, rfl⟩ := hsame
      exact hunchanged entry he (hnone entry he)
    | inl hpushed =>
      obtain ⟨event, hevent, rfl⟩ := hpushed
      obtain ⟨old, hold, rfl⟩ := List.mem_map.mp he
      by_cases hid : (old.id == change.subject.id) = true
      · have hentry := h.entries old hold
        obtain ⟨changes, ha, heq⟩ := hentry.told
        have harrived := h.arrived_advance hc ht hchange
          (s.listenerList.map (pushed change.subject.id event)) ha (beq_iff_eq.mp hid)
        rw [pushed, if_pos hid]
        refine ⟨hentry.name, hentry.id, ⟨_, harrived, ?_⟩, fun _ => .inr (.inl ?_), hentry.stops,
          hentry.user⟩
        · have htold : toldOf log { old with queue := old.queue ++ [event] } =
              toldOf log old ++ [event] := (List.append_assoc ..).symm
          rw [htold, List.map_append, List.map_append, heq, List.map_singleton, hevent]
          rfl
        · exact List.mem_map.mpr ⟨old, List.mem_filter.mpr ⟨hold, hid⟩, rfl⟩
      · rw [pushed, if_neg hid]
        exact hunchanged old hold fun heq => hid (beq_iff_eq.mpr heq)

/-! ## Runs -/

theorem listened_snoc (inputs : List (Input Config Action)) (i : Input Config Action) :
    listened (inputs ++ [i]) = listened inputs ++ listened [i] := List.filterMap_append

/-- A request to listen is taken from the way, and its id with it. -/
theorem SystemInv.request (h : SystemInv p app I names s log) (hcount : names.length ≤ 2 ^ 32)
    {k : Nat} {request : Request} (hk : s.requests[k]? = some request)
    {sends : Nat → Nat → Bool}
    (hs : ({ s with requests := s.requests.eraseIdx k } : System UserData).daemonStep
      (if request.listen then .addListener request.info else .removeListener request.info) sends =
        some s') : SystemInv p app I names s' log := by
  have hdropped := h.dropRequests (s.requests.eraseIdx_sublist k)
  refine hdropped.daemonStep hcount ⟨?_, fun info hinfo _ => ?_⟩ hs
  · split
    · trivial
    · trivial
  · cases hlisten : request.listen with
    | false =>
      rw [hlisten] at hinfo
      cases hinfo
    | true =>
      rw [hlisten, if_pos rfl] at hinfo
      obtain rfl : request.info = info := Op.addListener.inj hinfo
      have hmem := List.mem_of_getElem? hk
      refine ⟨fun hid => ?_, h.requests request hmem hlisten⟩
      have hperm : (request :: s.requests.eraseIdx k).Perm s.requests := by
        obtain ⟨hlt, rfl⟩ := List.getElem?_eq_some_iff.mp hk
        exact List.getElem_cons_eraseIdx_perm hlt
      have hids : (request.info.id ::
          openIds p { s with requests := s.requests.eraseIdx k }).Perm (openIds p s) := by
        have hfilter := ((hperm.filter (·.listen)).map (·.info.id))
        rw [List.filter_cons_of_pos hlisten, List.map_cons] at hfilter
        exact hfilter.append_right _
      exact (List.nodup_cons.mp (hids.nodup_iff.mpr h.ids)).1 hid

theorem systemInv_init : SystemInv p app I [] (systemInit : System UserData) [] := by
  refine ⟨dataOk_init, dataRegistered_init, rfl, ?_, List.nodup_nil, List.nodup_nil, ?_, ?_, ?_, ?_⟩
  · exact fun _ h => (by cases h)
  · exact fun _ h => (by cases h)
  · exact fun _ h => (by cases h)
  · exact fun _ _ h => (by cases h)
  · exact fun _ h => (by cases h)

theorem systemInv_step (hkeeps : Keeps app I) {i : Input Config Action} {o : List Handled}
    (h : SystemInv p app I names s log) (hcount : (names ++ listened [i]).length ≤ 2 ^ 32)
    (hservers : ∀ op sends, i = .other op sends → NamesServer Copies op)
    (hs : step p app s i = some (s', o)) :
    SystemInv p app I (names ++ listened [i]) s' (log ++ o) := by
  cases i with
  | listen serviceName config =>
    simp only [step] at hs
    split at hs
    · cases hs
      rw [List.append_nil]
      exact h.listen hkeeps hcount
    · cases hs
  | unlisten info =>
    simp only [step] at hs
    split at hs
    · obtain ⟨t, ht, he⟩ := Option.map_eq_some_iff.mp hs
      cases he
      rw [show listened [Input.unlisten info] = ([] : List CString) from rfl, List.append_nil,
        List.append_nil]
      exact h.unlisten ht
    · cases hs
  | request k sends =>
    rw [show listened [Input.request k sends] = ([] : List CString) from rfl,
      List.append_nil] at hcount ⊢
    simp only [step] at hs
    cases hk : s.requests[k]? with
    | none =>
      rw [hk] at hs
      cases hs
    | some request =>
      rw [hk] at hs
      obtain ⟨t, ht, he⟩ := Option.map_eq_some_iff.mp hs
      cases he
      rw [List.append_nil]
      exact h.request hcount hk ht
  | requestLost k =>
    simp only [step] at hs
    split at hs
    · cases hs
      rw [show listened [Input.requestLost k] = ([] : List CString) from rfl, List.append_nil,
        List.append_nil]
      exact h.dropRequests (s.requests.eraseIdx_sublist k)
    · cases hs
  | other op sends =>
    rw [show listened [Input.other op sends] = ([] : List CString) from rfl,
      List.append_nil] at hcount ⊢
    simp only [step] at hs
    split at hs
    · next hallows =>
      obtain ⟨t, ht, he⟩ := Option.map_eq_some_iff.mp hs
      cases he
      rw [List.append_nil]
      refine h.daemonStep hcount ⟨hservers op sends rfl, fun info hinfo htransport => ?_⟩ ht
      rw [hinfo, Process.allows, htransport] at hallows
      simp at hallows
    · cases hs
  | receive client =>
    obtain ⟨t, ht, he⟩ := Option.map_eq_some_iff.mp hs
    cases he
    rw [show listened [Input.receive client] = ([] : List CString) from rfl, List.append_nil,
      List.append_nil]
    exact h.receive ht
  | eventfdWrite =>
    simp only [step] at hs
    cases hwrite : s.toWrite with
    | nil =>
      rw [hwrite] at hs
      cases hs
    | cons info toWrite =>
      rw [hwrite] at hs
      cases hs
      rw [show listened [Input.eventfdWrite] = ([] : List CString) from rfl, List.append_nil,
        List.append_nil]
      exact h.eventfdWrite hwrite
  | process info =>
    simp only [step] at hs
    cases hentry : s.lookup info with
    | none =>
      rw [hentry] at hs
      cases hs
    | some entry =>
      rw [hentry] at hs
      dsimp only at hs
      split at hs
      · cases hs
      · cases hs
        rw [show listened [Input.process info] = ([] : List CString) from rfl, List.append_nil,
          List.append_nil]
        exact h.process info
  | pop info =>
    simp only [step] at hs
    cases hentry : s.lookup info with
    | none =>
      rw [hentry] at hs
      cases hs
    | some entry =>
      rw [hentry] at hs
      dsimp only at hs
      split at hs
      · have hpop := h.pop hkeeps hentry
        rw [Option.some.inj hs] at hpop
        rw [show listened [Input.pop info] = ([] : List CString) from rfl, List.append_nil]
        exact hpop
      · cases hs
  | application info action =>
    simp only [step] at hs
    cases hentry : s.lookup info with
    | none =>
      rw [hentry] at hs
      cases hs
    | some entry =>
      rw [hentry] at hs
      obtain ⟨userData, hact, he⟩ := Option.map_eq_some_iff.mp hs
      cases he
      rw [show listened [Input.application info action] = ([] : List CString) from rfl,
        List.append_nil, List.append_nil]
      exact h.application hkeeps hentry hact

/-- What the other processes ask for names servers by messages that a copy leaves alone, and
there is an id for every listener. -/
structure Bounded (inputs : List (Input Config Action)) : Prop where
  ids : (listened inputs).length ≤ 2 ^ 32
  servers : ∀ op sends, .other op sends ∈ inputs → NamesServer Copies op

theorem systemInv_run (hkeeps : Keeps app I) {inputs : List (Input Config Action)}
    (hbounded : Bounded inputs) (he : exec (step p app) systemInit inputs = some (s, log)) :
    SystemInv p app I (listened inputs) s log := by
  have hrun := exec_track (R := fun s inputs log => Bounded inputs →
      SystemInv p app I (listened inputs) s log)
    (fun s inputs log i s' o ih hs hb => ?_) (fun _ => systemInv_init) he
  · exact hrun hbounded
  · have hcount := hb.ids
    rw [listened_snoc] at hcount ⊢
    refine systemInv_step hkeeps (ih ⟨?_, fun op sends hmem => ?_⟩) hcount
      (fun op sends hi => hb.servers op sends ?_) hs
    · rw [List.length_append] at hcount
      exact Nat.le_trans (Nat.le_add_right _ _) hcount
    · exact hb.servers op sends (List.mem_append_left _ hmem)
    · rw [hi]
      exact List.mem_append_right _ (List.mem_singleton_self _)

/-- The daemon has the registration of the listener, and all that was sent for it is there. -/
def UpToDate (p : Process) (s : System UserData) (entry : SlInfo UserData) : Prop :=
  ∃ l ∈ listenersOf s.daemon entry.serviceName, l.id = entry.id ∧
    ∃ connection, s.connections[l.client]? = some connection ∧
      connection.transport = p.eventServer ∧
      connection.received = (s.sent l.client connection).length

/-- What a listener is told: the messages for its registration from the first one on, in
order and each once; about no server twice the same in a row; once it is up to date, the
servers of the daemon; and its thread is told to look, or is looking, or was told by the
handler to stop. -/
structure ListenerFollows (p : Process) (s : System UserData) (log : List Handled)
    (entry : SlInfo UserData) : Prop where
  inOrder : ∃ changes, Arrived p s entry.registration changes ∧
    changes.map slEvent = (toldOf log entry).map some
  consistent : Alternates Transport.endpoint ((toldOf log entry).map eventChange)
  current : UpToDate p s entry →
    ((replay Transport.endpoint ((toldOf log entry).map eventChange)).map
      Transport.endpoint).Perm
        ((getServiceEntryOrCreate s.daemon entry.serviceName).servers.map serverKey)
  wakes : entry.queue ≠ [] →
    0 < entry.eventfd ∨ entry.info ∈ s.toWrite ∨ entry.processing = true ∨ entry.stopped = true

theorem SystemInv.current (h : SystemInv p app I names s log) (he : entry ∈ s.listenerList)
    (hup : UpToDate p s entry) :
    ((replay Transport.endpoint ((toldOf log entry).map eventChange)).map
      Transport.endpoint).Perm
        ((getServiceEntryOrCreate s.daemon entry.serviceName).servers.map serverKey) := by
  obtain ⟨l, hl, hid, connection, hc, ht, hall⟩ := hup
  have hregistered := (h.registered.services entry.serviceName).listeners l hl
  rw [List.getElem?_map, heads_getElem? hc] at hregistered
  have hregistration : connection.registration = ⟨entry.serviceName, l.id⟩ :=
    Option.some.inj hregistered
  obtain ⟨changes, ha, heq⟩ := (h.entries entry he).told
  have hchanges : changes = sentTo l.client (s.daemon.trace entry.serviceName) := by
    cases ha with
    | none hn =>
      refine absurd ?_ (hn connection (List.mem_of_getElem? hc) ht)
      rw [hregistration]
      exact hid
    | @on client' connection' hc' ht' hr' =>
      have hsame : connection.registration.id = connection'.registration.id := by
        rw [hr', hregistration]
        exact hid
      obtain rfl := h.client_eq hc hc' ht ht' hsame
      obtain rfl : connection = connection' := Option.some.inj (hc.symm.trans hc')
      rw [hall, List.take_length, System.sent, hregistration]
  obtain ⟨hcopies, _⟩ := h.arrived ha
  have hfollowed := ((h.daemon entry.serviceName).followed l hl).replay.map serverKey
  have hkeys : (replay Transport.endpoint ((toldOf log entry).map eventChange)).map
      Transport.endpoint =
        (replay serverKey (eventsTo l.client (s.daemon.trace entry.serviceName))).map
          serverKey := by
    have hevents := @map_replay _ _ _ id _ Transport.endpoint
      ((toldOf log entry).map eventChange)
    have hmessages := @map_replay _ _ _ id _ serverKey
      (eventsTo l.client (s.daemon.trace entry.serviceName))
    rw [endpoints_of_events hcopies heq] at hevents
    rw [eventsTo_eq, ← hchanges, List.map_map] at hmessages
    rw [eventsTo_eq, ← hchanges]
    refine hevents.trans (Eq.trans ?_ hmessages.symm)
    refine congrArg _ (List.map_congr_left fun change _ => ?_)
    cases change with
    | added event => rfl
    | removed event => rfl
  rw [hkeys]
  exact hfollowed

theorem SystemInv.follows (h : SystemInv p app I names s log) (he : entry ∈ s.listenerList) :
    ListenerFollows p s log entry :=
  ⟨(h.entries entry he).told, h.alternates he, h.current he, (h.entries entry he).wakes⟩

/-- **Every listener follows the servers of its service**, in every run of the process with
the daemon and whatever else happens to the daemon. -/
theorem listener_run {inputs : List (Input Config Action)} (hbounded : Bounded inputs)
    (he : exec (step p app) systemInit inputs = some (s, log)) :
    ∀ entry ∈ s.listenerList, ListenerFollows p s log entry := by
  have hkeeps : Keeps app fun _ _ => True :=
    ⟨fun _ => trivial, fun _ _ _ _ _ _ _ => trivial, fun _ _ _ _ _ _ => trivial⟩
  exact fun entry hentry => (systemInv_run hkeeps hbounded he).follows hentry

end

/-- A process whose event server is at `e`. -/
def sampleProcess : Process := ⟨.unix true [0x65], 7, rfl⟩

/-- An application that writes the events down. -/
def recorder : Application Unit (List Wait.SlEvent) Empty where
  start _ := []
  handler events event := (events ++ [event], true)
  act _ action := nomatch action

def sampleServer (path : CString) : ServiceInfo := ⟨[0x73], ⟨false, .unixInfo path⟩, 2, false⟩

/-- A server comes after the process asked for its service, and the event for it is handled;
the listener that the process adds meanwhile has not been registered. -/
def sampleInputs : List (Input Unit Empty) :=
  [.listen [0x73] (), .request 0 fun _ _ => true, .listen [0x73] (),
    .other (.addServer (sampleServer [0x61]) true) fun _ _ => true, .receive 0, .eventfdWrite,
    .process 0, .pop 0]

theorem bounded_sampleInputs : Bounded sampleInputs := by
  refine ⟨by decide, fun op sends hmem => ?_⟩
  simp only [sampleInputs, List.mem_cons, List.not_mem_nil, or_false, reduceCtorEq, false_or,
    Input.other.injEq] at hmem
  rw [hmem.1]
  exact rfl

theorem listener_run_sample : ∃ s log,
    exec (step sampleProcess recorder) systemInit sampleInputs = some (s, log) ∧
      (∀ entry ∈ s.listenerList, ListenerFollows sampleProcess s log entry) ∧
      s.listenerList.map (fun entry => (entry.info, entry.userData.length)) = [(1, 0), (0, 1)] :=
  ⟨_, _, rfl, listener_run bounded_sampleInputs rfl, rfl⟩

end Cmsg.Sld.Api
