import Cmsg.Client.Broadcast
import Cmsg.Sld.ApiDelivery

/-! # Discovery, from the daemon to the broadcast client

Broadcast clients as the applications of a process that listens: the daemon's table of
servers on one side, the children that a client sends to on the other, and between them the
registrations, the messages on their way, the event server and the thread of each client. -/
namespace Cmsg.Broadcast
open Cmsg.Base Cmsg.Base.Runs Cmsg.Base.Change Cmsg.Sld Cmsg.Sld.Api

/-- Broadcast clients: the service listener calls `server_event_callback`, the rest is what
the application does with its client. -/
def broadcastApplication :
    Application BroadcastConfig (BroadcastConfig × BroadcastClient) BroadcastAction where
  start cfg := (cfg, broadcastInit)
  handler userData event :=
    ((userData.1, serverEventCallback userData.1 userData.2 event.transport event.added), true)
  act userData action :=
    match action with
    | .serverEvent _ _ => none
    | action => (broadcastStep userData.1 userData.2 action).map fun r => (userData.1, r.1)

/-- The client is where its own machine gets to on the events that were handled. -/
structure Handles (events : List Wait.SlEvent) (userData : BroadcastConfig × BroadcastClient) :
    Prop where
  consistent : Alternates Transport.endpoint (events.map eventChange)
  reached : ∃ actions handled,
    exec (broadcastStep userData.1) broadcastInit actions = some (userData.2, handled) ∧
      serverChanges actions = events.map eventChange

theorem serverChange_event {info : TransportInfo} {event : Wait.SlEvent}
    (ht : transportInfoToTransport info = some event.transport) :
    serverChange (.serverEvent info event.added) = some (eventChange event) := by
  rw [serverChange, ht]
  rfl

theorem Handles.step {events events' : List Wait.SlEvent} {cfg : BroadcastConfig}
    {s s' : BroadcastClient} (h : Handles events (cfg, s)) (action : BroadcastAction)
    {o : List BroadcastEvent} (hs : broadcastStep cfg s action = some (s', o))
    (hevents : events'.map eventChange = events.map eventChange ++ (serverChange action).toList)
    (halt : Alternates Transport.endpoint (events'.map eventChange)) :
    Handles events' (cfg, s') := by
  obtain ⟨actions, handled, he, hsame⟩ := h.reached
  have hnext : serverChanges (actions ++ [action]) = events'.map eventChange := by
    rw [serverChanges_snoc, hsame, hevents]
  refine ⟨halt, actions ++ [action], handled ++ o, ?_, hnext⟩
  exact exec_append.mpr ⟨s, handled, o, he,
    exec_cons.mpr ⟨s', o, [], hs, rfl, (List.append_nil o).symm⟩, rfl⟩

theorem keeps_handles : Keeps broadcastApplication Handles := by
  refine ⟨fun cfg => ⟨alternates_nil, [], [], rfl, rfl⟩,
    fun events userData event info h ht halt => ?_,
    fun events userData action userData' h hact => ?_⟩
  · refine Handles.step (o := []) h (.serverEvent info event.added) ?_ ?_ halt
    · rw [broadcastStep, ht]
      rfl
    · rw [List.map_append, serverChange_event ht]
      rfl
  · -- what the application does on its own tells of no server
    have hquiet : ∀ {o s'}, broadcastStep userData.1 userData.2 action = some (s', o) →
        serverChange action = none → Handles events (userData.1, s') := by
      intro o s' hs hnone
      refine Handles.step (o := o) h action hs ?_ h.consistent
      rw [hnone, Option.toList_none, List.append_nil]
    cases action with
    | serverEvent info added => cases hact
    | addLoopback =>
      cases hact
      exact hquiet (o := []) rfl rfl
    | addUnix oneWay sunPath =>
      cases hact
      exact hquiet (o := []) rfl rfl
    | eventQueueProcess =>
      obtain ⟨⟨s', o⟩, hs, he⟩ := Option.map_eq_some_iff.mp hact
      cases he
      exact hquiet (o := o) hs rfl

/-- What a client of the process has to do with the table of the daemon. -/
structure Discovers (p : Process) (s : System (BroadcastConfig × BroadcastClient))
    (log : List Handled) (entry : SlInfo (BroadcastConfig × BroadcastClient)) : Prop where
  reached : ∃ actions handled,
    exec (broadcastStep entry.userData.1) broadcastInit actions =
        some (entry.userData.2, handled) ∧
      serverChanges actions = (handledBy entry.info log).map eventChange
  children : (tcpTransports entry.userData.2).Perm
    (upTransports entry.userData.1 ((handledBy entry.info log).map eventChange))
  distinct : ((tcpTransports entry.userData.2).map Transport.endpoint).Nodup
  current : UpToDate p s entry → entry.queue = [] →
    ((tcpTransports entry.userData.2).map Transport.endpoint).Perm
      (((getServiceEntryOrCreate s.daemon entry.serviceName).servers.map serverKey).filter
        (follows entry.userData.1))

section
variable {p : Process} {s : System (BroadcastConfig × BroadcastClient)} {log : List Handled}
  {names : List CString} {entry : SlInfo (BroadcastConfig × BroadcastClient)}

theorem discovers_of_inv (h : SystemInv p broadcastApplication Handles names s log)
    (hentry : entry ∈ s.listenerList) :
    Discovers p s log entry := by
  have huser := (h.entries entry hentry).user
  obtain ⟨actions, handled, he, hsame⟩ := huser.reached
  have hchildren : tcpTransports entry.userData.2 =
      upTransports entry.userData.1 ((handledBy entry.info log).map eventChange) := by
    rw [(children_run he).2, hsame]
  have hnodup : ((tcpTransports entry.userData.2).map Transport.endpoint).Nodup := by
    rw [hchildren]
    exact upTransports_nodup huser.consistent
  refine ⟨⟨actions, handled, he, hsame⟩, by rw [hchildren], hnodup, fun hup hempty => ?_⟩
  have hcurrent := h.current hentry hup
  rw [toldOf, hempty, List.append_nil] at hcurrent
  have hfollowed := hcurrent.filter (follows entry.userData.1)
  rw [List.filter_map] at hfollowed
  rw [hchildren]
  exact hfollowed

/-- **Discovery.** In every run, whatever the daemon is asked by others and whatever is late
or lost, each broadcast client of a process has one child for each server it was told of and
not told to be gone; and once all that was sent for it has been handled, one child for each
server in the table of the daemon that it is to follow. -/
theorem discovery_run {inputs : List (Input BroadcastConfig BroadcastAction)}
    (hbounded : Bounded inputs)
    (he : exec (step p broadcastApplication) systemInit inputs = some (s, log)) :
    ∀ entry ∈ s.listenerList, Discovers p s log entry :=
  fun _ hentry => discovers_of_inv (systemInv_run keeps_handles hbounded he) hentry

/-- **The clients catch up.** From every state that is reached, the steps of the process's
own threads, each taken only once its descriptor says so, lead to one in which a client that
the daemon has registered has one child for each server of the daemon's table to follow. -/
theorem discovery_settles {inputs : List (Input BroadcastConfig BroadcastAction)}
    (hbounded : Bounded inputs)
    (he : exec (step p broadcastApplication) systemInit inputs = some (s, log))
    (hentry : entry ∈ s.listenerList) (hregistered : Registered p s entry) :
    ∃ deliveries t o, Guarded (step p broadcastApplication) Delivery s deliveries ∧
      exec (step p broadcastApplication) s deliveries = some (t, o) ∧ t.daemon = s.daemon ∧
      ∃ entry' ∈ t.listenerList, entry'.info = entry.info ∧
        entry'.userData.1 = entry.userData.1 ∧
        ((tcpTransports entry'.userData.2).map Transport.endpoint).Perm
          (((getServiceEntryOrCreate s.daemon entry.serviceName).servers.map serverKey).filter
            (follows entry.userData.1)) := by
  have hinv := systemInv_run keeps_handles hbounded he
  obtain ⟨t, log', entry', hdelivers, hmem, hinfo, hfixed, hup, hempty⟩ :=
    delivers_upToDate (g := Prod.fst) keeps_handles hbounded.ids (fun _ _ => rfl) (fun _ _ => rfl)
      hinv hentry hregistered
  obtain ⟨deliveries, o, hguard, hrun, _⟩ := hdelivers.run
  obtain ⟨hregistration, hcfg⟩ := Prod.mk.inj hfixed
  have hname : entry'.serviceName = entry.serviceName := (Registration.mk.inj hregistration).1
  have hcurrent := (discovers_of_inv hdelivers.inv hmem).current hup hempty
  rw [hdelivers.daemon, hname, hcfg] at hcurrent
  exact ⟨deliveries, t, o, hguard, hrun, hdelivers.daemon, entry', hmem, hinfo, hcfg, hcurrent⟩

end

/-! ## A run -/

theorem meshEventServer_valid : transportInfoToTransport
    (transportInfoCreate (.unix true [0x65])) = some (.unix true [0x65]) := rfl

def meshProcess : Process := ⟨.unix true [0x65], 7, meshEventServer_valid⟩

def meshService (addr : UInt32) : ServiceInfo := ⟨[0x73], meshServer addr 0x8813, 2, false⟩

/-- Two nodes come and the first of them goes before anything has arrived. -/
def discoveryInputs : List (Input BroadcastConfig BroadcastAction) :=
  [.listen [0x73] meshConfig, .application 0 .addLoopback, .request 0 fun _ _ => true,
    .other (.addServer (meshService 0x0200000a) false) fun _ _ => true,
    .other (.addServer (meshService 0x0300000a) false) fun _ _ => true,
    .other (.removeServer (meshService 0x0200000a) false) fun _ _ => true]

theorem bounded_discoveryInputs : Bounded discoveryInputs := by
  refine ⟨by decide, fun op sends hmem => ?_⟩
  simp only [discoveryInputs, List.mem_cons, List.not_mem_nil, or_false, reduceCtorEq, false_or,
    Input.other.injEq] at hmem
  obtain ⟨rfl, _⟩ | ⟨rfl, _⟩ | ⟨rfl, _⟩ := hmem
  · exact rfl
  · exact rfl
  · exact rfl

theorem discovery_run_gone : ∃ s log,
    exec (step meshProcess broadcastApplication) systemInit discoveryInputs = some (s, log) ∧
      ∀ entry ∈ s.listenerList, Discovers meshProcess s log entry :=
  ⟨_, _, rfl, discovery_run bounded_discoveryInputs rfl⟩

theorem discovery_settles_gone : ∃ s log entry,
    exec (step meshProcess broadcastApplication) systemInit discoveryInputs = some (s, log) ∧
      entry ∈ s.listenerList ∧
      ∃ deliveries t o, Guarded (step meshProcess broadcastApplication) Delivery s deliveries ∧
        exec (step meshProcess broadcastApplication) s deliveries = some (t, o) ∧
        t.daemon = s.daemon ∧ ∃ entry' ∈ t.listenerList, entry'.info = entry.info ∧
          entry'.userData.1 = entry.userData.1 ∧
          ((tcpTransports entry'.userData.2).map Transport.endpoint).Perm
            [(meshServer 0x0300000a 0x8813).endpoint] := by
  have hrun : exec (step meshProcess broadcastApplication) systemInit discoveryInputs =
      some (_, _) := rfl
  refine ⟨_, _, _, hrun, List.mem_singleton_self _, ?_⟩
  exact discovery_settles bounded_discoveryInputs hrun (List.mem_singleton_self _)
    ⟨_, List.mem_singleton_self _, rfl, _, rfl, rfl⟩

end Cmsg.Broadcast
