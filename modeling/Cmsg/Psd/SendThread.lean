import Cmsg.Base.Runs
import Cmsg.Psd.Publisher
import Cmsg.Wire.Header
import Mathlib.Data.List.Nodup

/-! # The send thread of a publisher

A publish call creates its packet under `subscribed_methods_mutex` and queues it under
`send_queue_mutex`; the update thread changes the subscribers under the first mutex and
one thread drains the queue under both, one after the other. `publisherStep` takes these
sections one at a time, in any order of the threads. -/
namespace Cmsg.Psd
open Cmsg.Base Cmsg.Base.Runs Cmsg.Wire

/-! ## The clients of the subscribers -/

/-- A child of a composite client. `client` tells the clients of one run apart, as their
addresses do. -/
structure SubscriberClient where
  client : Nat
  transport : Transport
deriving DecidableEq

/-- `subscribed_methods`, with the number of clients created so far. -/
structure SubscriberClients where
  table : HashTable CString (List SubscriberClient)
  created : Nat

namespace SubscriberClients

/-- The children of the composite client of a method. -/
def children (clients : SubscriberClients) (methodName : CString) : List SubscriberClient :=
  (clients.table.lookup methodName).getD []

/-- `cmsg_publisher_add_subscriber` -/
def addSubscriber (clients : SubscriberClients) (methodName : CString)
    (transportInfo : TransportInfo) : Option SubscriberClients :=
  (transportInfoToTransport transportInfo).map fun transport =>
    { table := clients.table.insert methodName
        (⟨clients.created, transport⟩ :: clients.children methodName)
      created := clients.created + 1 }

/-- `cmsg_publisher_remove_subscriber`, undefined for a method without a composite client. -/
def removeSubscriber (clients : SubscriberClients) (methodName : CString)
    (transportInfo : TransportInfo) : Option SubscriberClients :=
  match clients.table.lookup methodName with
  | none => none
  | some children =>
    (transportInfoToTransport transportInfo).map fun transport =>
      let children := children.eraseP (transportCompare ·.transport transport)
      { clients with
        table := if children.length = 0 then clients.table.remove methodName
          else clients.table.insert methodName children }

/-- `cmsg_psd_update_impl_host_removal` -/
def hostRemoval (clients : SubscriberClients) (addr : UInt32) : SubscriberClients :=
  { clients with
    table := (clients.table.foreach fun _ children =>
      children.filter (!hasTcpAddr addr ·.transport)).foreachRemove
        fun _ children => children.length == 0 }

/-- The section of the update server. -/
def update (clients : SubscriberClients) : Update → Option SubscriberClients
  | .subscriptionChange methodName transport true => clients.addSubscriber methodName transport
  | .subscriptionChange methodName transport false =>
    clients.removeSubscriber methodName transport
  | .hostRemoval addr => some (clients.hostRemoval addr)

/-- The section of `cmsg_publisher_init_subscribers`, given what registering returned. -/
def initSubscribers (clients : SubscriberClients) (subscribedMethods : List MethodDataEntry) :
    Option SubscriberClients :=
  subscribedMethods.foldlM (fun clients entry => entry.transports.foldlM (fun clients transport =>
    clients.addSubscriber entry.methodName transport) clients) clients

/-- The transports of the clients. -/
def transports (clients : SubscriberClients) : SubscribedMethods :=
  clients.table.foreach fun _ children => children.map (·.transport)

end SubscriberClients

/-! ## The sections -/

/-- `cmsg_pub_queue_entry` -/
structure PubQueueEntry where
  methodName : CString
  packet : List UInt8
deriving DecidableEq

/-- Where `cmsg_publisher_send_thread` is: about to look at the length of the queue, in
`pthread_cond_wait`, about to pop, or with an entry to send. -/
inductive SendStage
  | check
  | waiting
  | pop
  | send (queueEntry : PubQueueEntry)
deriving DecidableEq

structure PublisherState where
  subscribedMethods : SubscriberClients
  /-- The head of the queue is the head of the list. -/
  sendQueue : List PubQueueEntry
  /-- What the threads that created a packet are yet to queue. -/
  unqueued : List PubQueueEntry
  stage : SendStage

inductive PublisherAction
  | initSubscribers (subscribedMethods : List MethodDataEntry)
  | update (update : Update)
  /-- The first section of `cmsg_pub_invoke`, and what `cmsg_client_create_packet` makes. -/
  | publish (methodName : CString) (packet : Option (List UInt8))
  /-- `cmsg_publisher_queue_packet` of one of the threads, where both allocations succeed. -/
  | queuePacket (thread : Nat) (allocated : Bool)
  /-- The next section of the send thread, and what the clients return in it. -/
  | sendThread (sendBytes : SubscriberClient → RetCode)
  /-- `pthread_cond_wait` returns without a signal. -/
  | wakeUp

inductive PublisherEvent
  | returned (retval : RetCode)
  | queued (queueEntry : PubQueueEntry)
  | drained (queueEntry : PubQueueEntry)
  | handed (client : SubscriberClient) (queueEntry : PubQueueEntry)

def publisherInit : PublisherState := ⟨⟨.empty, 0⟩, [], [], .check⟩

/-- The loop of `cmsg_composite_client_send_bytes`. -/
def compositeClientSendBytes (sendBytes : SubscriberClient → RetCode)
    (queueEntry : PubQueueEntry) :
    List SubscriberClient → RetCode → RetCode × List PublisherEvent
  | [], overallResult => (overallResult, [])
  | child :: children, overallResult =>
    let ret := sendBytes child
    let overallResult :=
      if ret ≠ .ok then if overallResult ≠ .err then ret else overallResult else overallResult
    let (overallResult, events) :=
      compositeClientSendBytes sendBytes queueEntry children overallResult
    (overallResult, .handed child queueEntry :: events)

/-- One section of `cmsg_publisher_send_thread`. -/
def sendThreadSection (s : PublisherState) (sendBytes : SubscriberClient → RetCode) :
    Option (PublisherState × List PublisherEvent) :=
  match s.stage with
  | .check => some ({ s with stage := if s.sendQueue.length = 0 then .waiting else .pop }, [])
  | .waiting => none
  | .pop =>
    match s.sendQueue.getLast? with
    | none => some ({ s with stage := .check }, [])
    | some queueEntry =>
      some ({ s with sendQueue := s.sendQueue.dropLast, stage := .send queueEntry }, [])
  | .send queueEntry =>
    let events := match s.subscribedMethods.table.lookup queueEntry.methodName with
      | none => []
      | some children => (compositeClientSendBytes sendBytes queueEntry children .ok).2
    some ({ s with stage := .pop }, .drained queueEntry :: events)

/-- `pthread_cond_signal`, where the send thread is the only one that waits. -/
def SendStage.signal : SendStage → SendStage
  | .waiting => .check
  | stage => stage

/-- One section of one of the threads. -/
def publisherStep : Machine PublisherState PublisherAction PublisherEvent
  | s, .initSubscribers subscribedMethods =>
    (s.subscribedMethods.initSubscribers subscribedMethods).map fun clients =>
      ({ s with subscribedMethods := clients }, [])
  | s, .update update =>
    (s.subscribedMethods.update update).map fun clients =>
      ({ s with subscribedMethods := clients }, [])
  | s, .publish methodName packet =>
    match s.subscribedMethods.table.lookup methodName with
    | none => some (s, [.returned .ok])
    | some _ =>
      match packet with
      | none => some (s, [.returned .err])
      | some packet => some ({ s with unqueued := s.unqueued ++ [⟨methodName, packet⟩] }, [])
  | s, .queuePacket thread allocated =>
    match s.unqueued[thread]? with
    | none => none
    | some queueEntry =>
      let s := { s with unqueued := s.unqueued.eraseIdx thread }
      if allocated then
        some ({ s with sendQueue := queueEntry :: s.sendQueue, stage := s.stage.signal },
          [.queued queueEntry, .returned .ok])
      else some (s, [.returned .err])
  | s, .sendThread sendBytes => sendThreadSection s sendBytes
  | s, .wakeUp =>
    match s.stage with
    | .waiting => some ({ s with stage := .check }, [])
    | _ => none

/-! ## The clients and the updates -/

namespace SubscriberClients

/-- Clients that are told apart. -/
structure Distinct (clients : SubscriberClients) : Prop where
  nodup : ∀ m, ((clients.children m).map (·.client)).Nodup
  fresh : ∀ m, ∀ child ∈ clients.children m, child.client < clients.created

variable {clients clients' : SubscriberClients} {m : CString} {info : TransportInfo}

theorem children_addSubscriber (h : clients.addSubscriber m info = some clients') :
    clients'.created = clients.created + 1 ∧ ∃ transport, ∀ j, clients'.children j =
      if j = m then ⟨clients.created, transport⟩ :: clients.children m
      else clients.children j := by
  obtain ⟨transport, _, rfl⟩ := Option.map_eq_some_iff.mp h
  refine ⟨rfl, transport, fun j => ?_⟩
  unfold children
  rw [HashTable.lookup_insert]
  split
  · rfl
  · rfl

theorem children_removeSubscriber (h : clients.removeSubscriber m info = some clients') :
    clients'.created = clients.created ∧
      ∀ j, (clients'.children j).Sublist (clients.children j) := by
  unfold removeSubscriber at h
  split at h
  · cases h
  · next children hl =>
    obtain ⟨transport, _, rfl⟩ := Option.map_eq_some_iff.mp h
    refine ⟨rfl, fun j => ?_⟩
    have herase := List.eraseP_sublist (p := (transportCompare ·.transport transport))
      (l := children)
    unfold SubscriberClients.children
    dsimp only
    split
    · rw [HashTable.lookup_remove]
      split
      · exact List.nil_sublist _
      · exact List.Sublist.refl _
    · rw [HashTable.lookup_insert]
      split
      · next hj =>
        rw [hj, hl]
        exact herase
      · exact List.Sublist.refl _

theorem children_hostRemoval (addr : UInt32) (j : CString) :
    ((clients.hostRemoval addr).children j).Sublist (clients.children j) := by
  unfold children hostRemoval
  rw [HashTable.lookup_foreachRemove, HashTable.lookup_foreach]
  cases clients.table.lookup j with
  | none => exact List.nil_sublist _
  | some children =>
    rw [Option.map_some, Option.filter_some]
    split
    · exact List.filter_sublist
    · exact List.nil_sublist _

theorem Distinct.addSubscriber (h : clients.Distinct)
    (hs : clients.addSubscriber m info = some clients') : clients'.Distinct := by
  obtain ⟨hcreated, transport, hchildren⟩ := children_addSubscriber hs
  refine ⟨fun j => ?_, fun j child hchild => ?_⟩
  · rw [hchildren]
    split
    · rw [List.map_cons]
      refine List.nodup_cons.mpr ⟨fun hmem => ?_, h.nodup m⟩
      obtain ⟨child, hchild, heq⟩ := List.mem_map.mp hmem
      have hlt := h.fresh m child hchild
      dsimp only at heq
      omega
    · exact h.nodup j
  · rw [hcreated]
    rw [hchildren] at hchild
    split at hchild
    · rcases List.mem_cons.mp hchild with rfl | hmem
      · exact Nat.lt_succ_self _
      · exact Nat.lt_succ_of_lt (h.fresh m child hmem)
    · exact Nat.lt_succ_of_lt (h.fresh j child hchild)

theorem Distinct.sublist (h : clients.Distinct) (hcreated : clients'.created = clients.created)
    (hchildren : ∀ j, (clients'.children j).Sublist (clients.children j)) :
    clients'.Distinct := by
  refine ⟨fun j => ?_, fun j child hchild => ?_⟩
  · exact (h.nodup j).sublist ((hchildren j).map _)
  · rw [hcreated]
    exact h.fresh j child ((hchildren j).subset hchild)

theorem Distinct.update (h : clients.Distinct) {u : Update}
    (hs : clients.update u = some clients') : clients'.Distinct := by
  cases u with
  | subscriptionChange methodName transport added =>
    cases added with
    | true => exact h.addSubscriber hs
    | false =>
      obtain ⟨hcreated, hchildren⟩ := children_removeSubscriber hs
      exact h.sublist hcreated hchildren
  | hostRemoval addr =>
    obtain rfl := Option.some.inj hs
    exact h.sublist rfl (children_hostRemoval addr)

/-! Forgetting the clients, the sections are those on the table of transports. -/

theorem transports_insert (table : HashTable CString (List SubscriberClient)) (n n' : Nat)
    (m : CString) (children : List SubscriberClient) :
    transports ⟨table.insert m children, n⟩ =
      (transports ⟨table, n'⟩).insert m (children.map (·.transport)) := by
  ext1 j
  simp only [transports, HashTable.lookup_foreach, HashTable.lookup_insert]
  split
  · rfl
  · rfl

theorem transports_remove (table : HashTable CString (List SubscriberClient)) (n n' : Nat)
    (m : CString) :
    transports ⟨table.remove m, n⟩ = (transports ⟨table, n'⟩).remove m := by
  ext1 j
  simp only [transports, HashTable.lookup_foreach, HashTable.lookup_remove]
  split
  · rfl
  · rfl

theorem transports_addSubscriber (clients : SubscriberClients) (m : CString)
    (info : TransportInfo) :
    (clients.addSubscriber m info).map transports =
      publisherAddSubscriber clients.transports m info := by
  unfold addSubscriber publisherAddSubscriber
  rw [Option.map_map]
  congr 1
  funext transport
  have hchildren : (clients.children m).map (·.transport) =
      (clients.transports.lookup m).getD [] := by
    simp only [children, transports, HashTable.lookup_foreach]
    cases clients.table.lookup m with
    | none => rfl
    | some _ => rfl
  rw [← hchildren]
  exact transports_insert _ _ _ _ _

theorem transports_removeSubscriber (clients : SubscriberClients) (m : CString)
    (info : TransportInfo) :
    (clients.removeSubscriber m info).map transports =
      publisherRemoveSubscriber clients.transports m info := by
  have hlookup : clients.transports.lookup m =
      (clients.table.lookup m).map fun children => children.map (·.transport) := rfl
  unfold removeSubscriber publisherRemoveSubscriber
  rw [hlookup]
  cases clients.table.lookup m with
  | none => rfl
  | some children =>
    simp only [Option.map_some, Option.map_map]
    congr 1
    funext transport
    simp only [Function.comp_apply, List.eraseP_map, List.length_map, Function.comp_def]
    split
    · exact transports_remove _ _ _ _
    · exact transports_insert _ _ _ _ _

theorem transports_hostRemoval (clients : SubscriberClients) (addr : UInt32) :
    (clients.hostRemoval addr).transports = publisherHostRemoval clients.transports addr := by
  ext1 j
  simp only [transports, hostRemoval, publisherHostRemoval, HashTable.lookup_foreach,
    HashTable.lookup_foreachRemove]
  cases clients.table.lookup j with
  | none => rfl
  | some children =>
    simp only [Option.map_some, List.filter_map, Function.comp_def, Option.filter_some,
      List.length_map]
    split
    · rfl
    · rfl

theorem transports_update (clients : SubscriberClients) (u : Update) :
    (clients.update u).map transports = publisherUpdate clients.transports u := by
  cases u with
  | subscriptionChange methodName transport added =>
    cases added with
    | true => exact transports_addSubscriber clients methodName transport
    | false => exact transports_removeSubscriber clients methodName transport
  | hostRemoval addr => exact congrArg some (transports_hostRemoval clients addr)

/-- What registering returned, as updates. -/
def initUpdates (subscribedMethods : List MethodDataEntry) : List Update :=
  subscribedMethods.flatMap fun entry =>
    entry.transports.map fun transport => .subscriptionChange entry.methodName transport true

theorem initSubscribers_eq (subscribedMethods : List MethodDataEntry) :
    ∀ clients : SubscriberClients, clients.initSubscribers subscribedMethods =
      (initUpdates subscribedMethods).foldlM update clients := by
  induction subscribedMethods with
  | nil => exact fun _ => rfl
  | cons entry rest ih =>
    intro clients
    unfold initSubscribers initUpdates at ih ⊢
    rw [List.foldlM_cons, List.flatMap_cons, List.foldlM_append, List.foldlM_map]
    exact bind_congr ih

theorem distinct_updates {updates : List Update} : ∀ {clients clients' : SubscriberClients},
    clients.Distinct → updates.foldlM update clients = some clients' → clients'.Distinct := by
  induction updates with
  | nil =>
    intro clients clients' h hs
    obtain rfl := Option.some.inj hs
    exact h
  | cons u updates ih =>
    intro clients clients' h hs
    rw [List.foldlM_cons] at hs
    obtain ⟨clients₁, hone, hrest⟩ := Option.bind_eq_some_iff.mp hs
    exact ih (h.update hone) hrest

theorem transports_updates (updates : List Update) : ∀ clients : SubscriberClients,
    (updates.foldlM update clients).map transports =
      publisherProcess clients.transports updates := by
  unfold publisherProcess
  induction updates with
  | nil => exact fun _ => rfl
  | cons u updates ih =>
    intro clients
    rw [List.foldlM_cons, List.foldlM_cons, ← transports_update]
    cases clients.update u with
    | none => rfl
    | some clients₁ => exact ih clients₁

end SubscriberClients

/-- The updates in the steps of a run. -/
def updatesOf (actions : List PublisherAction) : List Update :=
  actions.flatMap fun
    | .initSubscribers subscribedMethods => SubscriberClients.initUpdates subscribedMethods
    | .update update => [update]
    | _ => []

/-! ## The messages of a run -/

def queuedEntries (events : List PublisherEvent) : List PubQueueEntry :=
  events.filterMap fun
    | .queued queueEntry => some queueEntry
    | _ => none

def drainedEntries (events : List PublisherEvent) : List PubQueueEntry :=
  events.filterMap fun
    | .drained queueEntry => some queueEntry
    | _ => none

def handedEntries (events : List PublisherEvent) : List (SubscriberClient × PubQueueEntry) :=
  events.filterMap fun
    | .handed client queueEntry => some (client, queueEntry)
    | _ => none

/-- The message that was popped and is yet to be sent. -/
def SendStage.inHand : SendStage → List PubQueueEntry
  | .send queueEntry => [queueEntry]
  | _ => []

/-- What is asked of every point of a run: what was queued is what was drained, in the
same order, then the message in hand and what the queue holds; and the send thread does
not wait for a queue that holds something. -/
structure PublishedInOrder (s : PublisherState) (events : List PublisherEvent) : Prop where
  order : queuedEntries events = drainedEntries events ++ s.stage.inHand ++ s.sendQueue.reverse
  noLostWakeup : s.stage = .waiting → s.sendQueue = []

/-- What is asked of every step: the message that it drains, if it drains one, is handed
once to every child that the composite client of its method has then, and to no other. -/
structure HandedToChildren (s : PublisherState) (events : List PublisherEvent) : Prop where
  atMostOne : (drainedEntries events).length ≤ 1
  handed : handedEntries events = (drainedEntries events).flatMap fun queueEntry =>
    (s.subscribedMethods.children queueEntry.methodName).map fun child => (child, queueEntry)
  once : (handedEntries events).Nodup

theorem queuedEntries_append (xs ys : List PublisherEvent) :
    queuedEntries (xs ++ ys) = queuedEntries xs ++ queuedEntries ys :=
  List.filterMap_append

theorem drainedEntries_append (xs ys : List PublisherEvent) :
    drainedEntries (xs ++ ys) = drainedEntries xs ++ drainedEntries ys :=
  List.filterMap_append

/-- No child is left out for what another returned. -/
theorem compositeClientSendBytes_events (sendBytes : SubscriberClient → RetCode)
    (queueEntry : PubQueueEntry) (children : List SubscriberClient) :
    ∀ overallResult,
      (compositeClientSendBytes sendBytes queueEntry children overallResult).2 =
        children.map fun child => .handed child queueEntry := by
  induction children with
  | nil => exact fun _ => rfl
  | cons child children ih =>
    intro overallResult
    unfold compositeClientSendBytes
    rw [List.map_cons, ← ih]

/-- The events of sending one message. -/
theorem sendEvents (clients : SubscriberClients) (sendBytes : SubscriberClient → RetCode)
    (queueEntry : PubQueueEntry) :
    (match clients.table.lookup queueEntry.methodName with
      | none => []
      | some children => (compositeClientSendBytes sendBytes queueEntry children .ok).2) =
      (clients.children queueEntry.methodName).map fun child => .handed child queueEntry := by
  unfold SubscriberClients.children
  cases clients.table.lookup queueEntry.methodName with
  | none => rfl
  | some children => exact compositeClientSendBytes_events _ _ _ _

theorem drainedEntries_handed (queueEntry : PubQueueEntry) (children : List SubscriberClient) :
    drainedEntries (children.map fun child => .handed child queueEntry) = [] := by
  simp [drainedEntries, List.filterMap_map]

theorem queuedEntries_handed (queueEntry : PubQueueEntry) (children : List SubscriberClient) :
    queuedEntries (children.map fun child => .handed child queueEntry) = [] := by
  simp [queuedEntries, List.filterMap_map]

theorem handedEntries_handed (queueEntry : PubQueueEntry) (children : List SubscriberClient) :
    handedEntries (children.map fun child => .handed child queueEntry) =
      children.map fun child => (child, queueEntry) := by
  simp [handedEntries, List.filterMap_map]

/-! ## What the sections do -/

/-- What a section of the send thread does. -/
inductive SendSection (s : PublisherState) : PublisherState → List PublisherEvent → Prop
  | wait : s.stage = .check → s.sendQueue = [] → SendSection s { s with stage := .waiting } []
  | look : s.stage = .check → s.sendQueue ≠ [] → SendSection s { s with stage := .pop } []
  | finish : s.stage = .pop → s.sendQueue = [] → SendSection s { s with stage := .check } []
  | pop (sendQueue : List PubQueueEntry) (queueEntry : PubQueueEntry) : s.stage = .pop →
    s.sendQueue = sendQueue ++ [queueEntry] →
    SendSection s { s with sendQueue, stage := .send queueEntry } []
  | send (queueEntry : PubQueueEntry) : s.stage = .send queueEntry →
    SendSection s { s with stage := .pop }
      (.drained queueEntry :: (s.subscribedMethods.children queueEntry.methodName).map
        fun child => .handed child queueEntry)

/-- What a section of another thread does, and `pthread_cond_wait`, with the updates in
it. -/
inductive OtherSection (s : PublisherState) :
    List Update → PublisherState → List PublisherEvent → Prop
  | subscribers (updates : List Update) (clients : SubscriberClients) :
    updates.foldlM SubscriberClients.update s.subscribedMethods = some clients →
    OtherSection s updates { s with subscribedMethods := clients } []
  | create (unqueued : List PubQueueEntry) : OtherSection s [] { s with unqueued } []
  | returned (unqueued : List PubQueueEntry) (retval : RetCode) :
    OtherSection s [] { s with unqueued } [.returned retval]
  | queue (unqueued : List PubQueueEntry) (queueEntry : PubQueueEntry) :
    OtherSection s []
      { s with unqueued, sendQueue := queueEntry :: s.sendQueue, stage := s.stage.signal }
      [.queued queueEntry, .returned .ok]
  | wakeUp : s.stage = .waiting → OtherSection s [] { s with stage := .check } []

def isSendThread : PublisherAction → Bool
  | .sendThread _ => true
  | _ => false

theorem sendThreadSection_cases {s s' : PublisherState} {o : List PublisherEvent}
    {sendBytes : SubscriberClient → RetCode}
    (h : sendThreadSection s sendBytes = some (s', o)) : SendSection s s' o := by
  unfold sendThreadSection at h
  split at h
  · next hst =>
    obtain ⟨rfl, rfl⟩ := Prod.mk.inj (Option.some.inj h)
    split
    · next hq => exact .wait hst (List.length_eq_zero_iff.mp hq)
    · next hq => exact .look hst fun hnil => hq (by rw [hnil]; rfl)
  · cases h
  · next hst =>
    split at h
    · next hq =>
      obtain ⟨rfl, rfl⟩ := Prod.mk.inj (Option.some.inj h)
      exact .finish hst (List.getLast?_eq_none_iff.mp hq)
    · next queueEntry hq =>
      obtain ⟨rfl, rfl⟩ := Prod.mk.inj (Option.some.inj h)
      exact .pop _ _ hst (List.dropLast_append_getLast? queueEntry hq).symm
  · next queueEntry hst =>
    obtain ⟨rfl, rfl⟩ := Prod.mk.inj (Option.some.inj h)
    rw [sendEvents]
    exact .send queueEntry hst

theorem publisherStep_cases {s s' : PublisherState} {o : List PublisherEvent}
    {action : PublisherAction} (h : publisherStep s action = some (s', o)) :
    isSendThread action = true ∧ updatesOf [action] = [] ∧ SendSection s s' o ∨
      isSendThread action = false ∧ OtherSection s (updatesOf [action]) s' o := by
  cases action with
  | initSubscribers subscribedMethods =>
    obtain ⟨clients, hc, heq⟩ := Option.map_eq_some_iff.mp h
    obtain ⟨rfl, rfl⟩ := Prod.mk.inj heq
    rw [SubscriberClients.initSubscribers_eq] at hc
    refine .inr ⟨rfl, .subscribers _ clients ?_⟩
    rw [updatesOf, List.flatMap_singleton]
    exact hc
  | update u =>
    obtain ⟨clients, hc, heq⟩ := Option.map_eq_some_iff.mp h
    obtain ⟨rfl, rfl⟩ := Prod.mk.inj heq
    refine .inr ⟨rfl, .subscribers _ clients ?_⟩
    rw [updatesOf, List.flatMap_singleton, List.foldlM_cons, hc]
    rfl
  | publish methodName packet =>
    refine .inr ⟨rfl, ?_⟩
    simp only [publisherStep] at h
    split at h
    · obtain ⟨rfl, rfl⟩ := Prod.mk.inj (Option.some.inj h)
      exact .returned s.unqueued .ok
    · cases packet with
      | none =>
        obtain ⟨rfl, rfl⟩ := Prod.mk.inj (Option.some.inj h)
        exact .returned s.unqueued .err
      | some packet =>
        obtain ⟨rfl, rfl⟩ := Prod.mk.inj (Option.some.inj h)
        exact .create _
  | queuePacket thread allocated =>
    refine .inr ⟨rfl, ?_⟩
    simp only [publisherStep] at h
    split at h
    · cases h
    · cases allocated with
      | true =>
        obtain ⟨rfl, rfl⟩ := Prod.mk.inj (Option.some.inj h)
        exact .queue _ _
      | false =>
        obtain ⟨rfl, rfl⟩ := Prod.mk.inj (Option.some.inj h)
        exact .returned _ .err
  | sendThread sendBytes => exact .inl ⟨rfl, rfl, sendThreadSection_cases h⟩
  | wakeUp =>
    simp only [publisherStep] at h
    split at h
    · next hst =>
      obtain ⟨rfl, rfl⟩ := Prod.mk.inj (Option.some.inj h)
      exact .inr ⟨rfl, .wakeUp hst⟩
    · cases h

/-! ## Every step -/

structure PublisherInv (s : PublisherState) (events : List PublisherEvent) : Prop
    extends PublishedInOrder s events where
  distinct : s.subscribedMethods.Distinct

theorem publisherInv_init : PublisherInv publisherInit [] :=
  { order := rfl
    noLostWakeup := fun _ => rfl
    distinct := ⟨fun _ => List.nodup_nil, fun _ _ h => by cases h⟩ }

section
variable {s s' : PublisherState} {events o : List PublisherEvent}

/-- A section after which the send thread has no message in hand, as before. -/
theorem publisherInv_stage (h : PublisherInv s events) {stage : SendStage}
    (hbefore : s.stage.inHand = []) (hafter : stage.inHand = [])
    (hwait : stage = .waiting → s.sendQueue = []) :
    PublisherInv { s with stage } (events ++ []) := by
  refine ⟨⟨?_, hwait⟩, h.distinct⟩
  rw [List.append_nil, h.order, hbefore, hafter]

theorem publisherInv_send (h : PublisherInv s events) (hs : SendSection s s' o) :
    PublisherInv s' (events ++ o) := by
  have horder := h.order
  have hdistinct := h.distinct
  cases hs with
  | wait hst hq => exact publisherInv_stage h (by rw [hst]; rfl) rfl fun _ => hq
  | look hst hq =>
    exact publisherInv_stage h (by rw [hst]; rfl) rfl fun hw => by cases hw
  | finish hst hq =>
    exact publisherInv_stage h (by rw [hst]; rfl) rfl fun hw => by cases hw
  | pop sendQueue queueEntry hst hq =>
    rw [List.append_nil]
    refine ⟨⟨?_, fun hw => by cases hw⟩, hdistinct⟩
    rw [hst, hq, List.reverse_append] at horder
    rw [horder]
    simp [SendStage.inHand]
  | send queueEntry hst =>
    refine ⟨⟨?_, fun hw => by cases hw⟩, hdistinct⟩
    rw [queuedEntries_append, drainedEntries_append, horder, hst]
    have hq := queuedEntries_handed queueEntry
      (s.subscribedMethods.children queueEntry.methodName)
    have hd := drainedEntries_handed queueEntry
      (s.subscribedMethods.children queueEntry.methodName)
    unfold queuedEntries at hq
    unfold drainedEntries at hd
    simp [queuedEntries, drainedEntries, SendStage.inHand, hq, hd]

theorem publisherInv_other (h : PublisherInv s events) {updates : List Update}
    (hs : OtherSection s updates s' o) : PublisherInv s' (events ++ o) := by
  have horder := h.order
  have hwait := h.noLostWakeup
  have hdistinct := h.distinct
  cases hs with
  | subscribers _ clients hc =>
    rw [List.append_nil]
    exact ⟨⟨horder, hwait⟩, SubscriberClients.distinct_updates hdistinct hc⟩
  | create unqueued =>
    rw [List.append_nil]
    exact ⟨⟨horder, hwait⟩, hdistinct⟩
  | returned unqueued retval =>
    refine ⟨⟨?_, hwait⟩, hdistinct⟩
    rw [queuedEntries_append, drainedEntries_append, horder]
    simp [queuedEntries, drainedEntries]
  | queue unqueued queueEntry =>
    have hhand : s.stage.signal.inHand = s.stage.inHand := by cases s.stage <;> rfl
    refine ⟨⟨?_, fun hw => ?_⟩, hdistinct⟩
    · rw [queuedEntries_append, drainedEntries_append, horder, List.reverse_cons, hhand]
      simp [queuedEntries, drainedEntries]
    · have hsignal : s.stage.signal ≠ .waiting := by cases s.stage <;> simp [SendStage.signal]
      exact absurd hw hsignal
  | wakeUp hst =>
    exact publisherInv_stage h (by rw [hst]; rfl) rfl fun hw => by cases hw

theorem publisherInv_step (h : PublisherInv s events) {action : PublisherAction}
    (hs : publisherStep s action = some (s', o)) : PublisherInv s' (events ++ o) := by
  rcases publisherStep_cases hs with ⟨_, _, hs⟩ | ⟨_, hs⟩
  · exact publisherInv_send h hs
  · exact publisherInv_other h hs

theorem handedToChildren_nil (hd : drainedEntries o = []) (hh : handedEntries o = []) :
    HandedToChildren s o := by
  refine ⟨?_, ?_, ?_⟩
  · rw [hd]
    exact Nat.zero_le 1
  · rw [hd, hh]
    rfl
  · rw [hh]
    exact List.nodup_nil

theorem handedToChildren_send (hd : s.subscribedMethods.Distinct) (queueEntry : PubQueueEntry) :
    HandedToChildren s (.drained queueEntry ::
      (s.subscribedMethods.children queueEntry.methodName).map
        fun child => .handed child queueEntry) := by
  have hnodup := List.Nodup.of_map _ (hd.nodup queueEntry.methodName)
  generalize hch : s.subscribedMethods.children queueEntry.methodName = children at hnodup
  have hdrained : drainedEntries (.drained queueEntry ::
      children.map fun child => .handed child queueEntry) = [queueEntry] :=
    congrArg (queueEntry :: ·) (drainedEntries_handed queueEntry children)
  have hhanded : handedEntries (.drained queueEntry ::
      children.map fun child => .handed child queueEntry) =
        children.map fun child => (child, queueEntry) :=
    handedEntries_handed queueEntry children
  refine ⟨?_, ?_, ?_⟩
  · rw [hdrained]
    exact Nat.le_refl 1
  · rw [hdrained, hhanded, List.flatMap_singleton, hch]
  · rw [hhanded]
    exact hnodup.map fun a b hab => (Prod.mk.inj hab).1

theorem handedToChildren_step (h : PublisherInv s events) {action : PublisherAction}
    (hs : publisherStep s action = some (s', o)) : HandedToChildren s o := by
  rcases publisherStep_cases hs with ⟨_, _, hs⟩ | ⟨_, hs⟩
  · cases hs with
    | send queueEntry hst => exact handedToChildren_send h.distinct queueEntry
    | _ => exact handedToChildren_nil rfl rfl
  · generalize updatesOf [action] = updates at hs
    cases hs with
    | _ => exact handedToChildren_nil rfl rfl

/-- Only waiting keeps the send thread from its next section. -/
theorem sendThread_isSome (h : s.stage ≠ .waiting) (sendBytes : SubscriberClient → RetCode) :
    (publisherStep s (.sendThread sendBytes)).isSome = true := by
  simp only [publisherStep, sendThreadSection]
  cases hst : s.stage with
  | waiting => exact absurd hst h
  | check => rfl
  | pop =>
    cases s.sendQueue.getLast? with
    | none => rfl
    | some _ => rfl
  | send queueEntry => rfl

/-! ## Draining -/

/-- How many sections of the send thread it takes until the first `k` messages are
drained. -/
def sectionsLeft (k : Nat) (s : PublisherState) (events : List PublisherEvent) : Nat :=
  match k - (drainedEntries events).length with
  | 0 => 0
  | left + 1 =>
    match s.stage with
    | .check => 2 * left + 3
    | .pop => 2 * left + 2
    | .send _ => 2 * left + 1
    | .waiting => 0

/-- The send thread cannot be waiting while one of the messages is yet to be drained. -/
theorem PublishedInOrder.drained_of_idle (h : PublishedInOrder s events)
    (hhand : s.stage.inHand = []) (hq : s.sendQueue = []) {k : Nat}
    (hk : k ≤ (queuedEntries events).length) : k - (drainedEntries events).length = 0 := by
  rw [h.order, hhand, hq, List.reverse_nil, List.append_nil, List.append_nil] at hk
  exact Nat.sub_eq_zero_of_le hk

theorem sectionsLeft_of_drained {k : Nat} (h : k - (drainedEntries events).length = 0) :
    sectionsLeft k s events = 0 := by
  unfold sectionsLeft
  rw [h]

theorem drained_of_sectionsLeft (h : PublishedInOrder s events) {k : Nat}
    (hk : k ≤ (queuedEntries events).length) (hz : sectionsLeft k s events = 0) :
    k ≤ (drainedEntries events).length := by
  unfold sectionsLeft at hz
  split at hz
  · next hleft => exact Nat.sub_eq_zero_iff_le.mp hleft
  · split at hz
    · cases hz
    · cases hz
    · cases hz
    · next hst =>
      exact Nat.sub_eq_zero_iff_le.mp
        (h.drained_of_idle (by rw [hst]; rfl) (h.noLostWakeup hst) hk)

theorem sectionsLeft_le (h : PublishedInOrder s events) :
    sectionsLeft (queuedEntries events).length s events ≤
      2 * (s.stage.inHand.length + s.sendQueue.length) + 1 := by
  have hlen := congrArg List.length h.order
  simp only [List.length_append, List.length_reverse] at hlen
  unfold sectionsLeft
  split
  · exact Nat.zero_le _
  · split
    · omega
    · omega
    · omega
    · exact Nat.zero_le _

theorem sectionsLeft_send (h : PublishedInOrder s events) {k : Nat}
    (hk : k ≤ (queuedEntries events).length) (hs : SendSection s s' o) :
    sectionsLeft k s' (events ++ o) ≤ sectionsLeft k s events - 1 := by
  cases hs with
  | wait hst hq =>
    rw [List.append_nil, sectionsLeft_of_drained
      (h.drained_of_idle (by rw [hst]; rfl) hq hk)]
    exact Nat.zero_le _
  | look hst hq =>
    rw [List.append_nil]
    unfold sectionsLeft
    rw [hst]
    cases k - (drainedEntries events).length with
    | zero => exact Nat.le_refl 0
    | succ left => exact Nat.le_refl (2 * left + 2)
  | finish hst hq =>
    rw [List.append_nil, sectionsLeft_of_drained
      (h.drained_of_idle (by rw [hst]; rfl) hq hk)]
    exact Nat.zero_le _
  | pop sendQueue queueEntry hst hq =>
    rw [List.append_nil]
    unfold sectionsLeft
    rw [hst]
    cases k - (drainedEntries events).length with
    | zero => exact Nat.le_refl 0
    | succ left => exact Nat.le_refl (2 * left + 1)
  | send queueEntry hst =>
    have hdrained := drainedEntries_handed queueEntry
      (s.subscribedMethods.children queueEntry.methodName)
    have hlen : (drainedEntries (events ++ .drained queueEntry ::
        (s.subscribedMethods.children queueEntry.methodName).map
          fun child => .handed child queueEntry)).length =
        (drainedEntries events).length + 1 := by
      rw [drainedEntries_append, List.length_append]
      exact congrArg _ (congrArg (·.length + 1) hdrained)
    unfold sectionsLeft
    rw [hst, hlen, ← Nat.sub_sub]
    cases k - (drainedEntries events).length with
    | zero => exact Nat.le_refl 0
    | succ left =>
      cases left with
      | zero => exact Nat.zero_le _
      | succ left => exact Nat.le_refl (2 * left + 2)

theorem sectionsLeft_other (h : PublishedInOrder s events) {k : Nat}
    (hk : k ≤ (queuedEntries events).length) {updates : List Update}
    (hs : OtherSection s updates s' o) :
    sectionsLeft k s' (events ++ o) ≤ sectionsLeft k s events := by
  have hquiet : drainedEntries (events ++ o) = drainedEntries events := by
    have hnil : drainedEntries o = [] := by cases hs <;> rfl
    rw [drainedEntries_append, hnil, List.append_nil]
  have hidle : s.stage = .waiting → sectionsLeft k s' (events ++ o) = 0 := by
    intro hst
    refine sectionsLeft_of_drained ?_
    rw [hquiet]
    exact h.drained_of_idle (by rw [hst]; rfl) (h.noLostWakeup hst) hk
  by_cases hw : s.stage = .waiting
  · rw [hidle hw]
    exact Nat.zero_le _
  · have hstage : s'.stage = s.stage := by
      cases hs with
      | queue unqueued queueEntry =>
        show s.stage.signal = s.stage
        cases hst : s.stage with
        | waiting => exact absurd hst hw
        | _ => rfl
      | wakeUp hst => exact absurd hst hw
      | _ => rfl
    refine Nat.le_of_eq ?_
    unfold sectionsLeft
    rw [hquiet, hstage]

end

/-! ## Whole runs -/

theorem publisherInv_run {actions : List PublisherAction} {s : PublisherState}
    {events : List PublisherEvent}
    (he : exec publisherStep publisherInit actions = some (s, events)) :
    PublisherInv s events :=
  exec_track (R := fun s _ events => PublisherInv s events)
    (fun _ _ _ _ _ _ h hs => publisherInv_step h hs) publisherInv_init he

theorem subscribedMethods_step {s s' : PublisherState} {o : List PublisherEvent}
    {action : PublisherAction} (h : publisherStep s action = some (s', o)) :
    (updatesOf [action]).foldlM SubscriberClients.update s.subscribedMethods =
      some s'.subscribedMethods := by
  rcases publisherStep_cases h with ⟨_, hnone, hs⟩ | ⟨_, hs⟩
  · rw [hnone]
    cases hs with
    | _ => rfl
  · generalize updatesOf [action] = updates at hs ⊢
    cases hs with
    | subscribers updates clients hc => exact hc
    | _ => rfl

/-- In every run the children have the transports that the updates left. -/
theorem transports_run {actions : List PublisherAction} {s : PublisherState}
    {events : List PublisherEvent}
    (he : exec publisherStep publisherInit actions = some (s, events)) :
    publisherProcess .empty (updatesOf actions) = some s.subscribedMethods.transports := by
  refine exec_track (R := fun s actions _ =>
    publisherProcess .empty (updatesOf actions) = some s.subscribedMethods.transports)
    (fun s actions events action s' o h hs => ?_) rfl he
  have happ : updatesOf (actions ++ [action]) = updatesOf actions ++ updatesOf [action] :=
    List.flatMap_append
  rw [happ, publisherProcess_append, h, Option.bind_some,
    ← SubscriberClients.transports_updates, subscribedMethods_step hs]
  rfl

/-- What is queued is drained once the send thread had as many sections as it takes. -/
theorem drained_after {s s' : PublisherState} {events events' : List PublisherEvent}
    (h : PublisherInv s events) {more : List PublisherAction}
    (he : exec publisherStep s more = some (s', events'))
    (hmore : 2 * (s.stage.inHand.length + s.sendQueue.length) + 1 ≤ more.countP isSendThread) :
    queuedEntries events <+: drainedEntries (events ++ events') := by
  have hkeep : ∀ (s : PublisherState) (os : List PublisherEvent) (i : PublisherAction)
      (s' : PublisherState) (o : List PublisherEvent),
      (PublisherInv s os ∧ queuedEntries events <+: queuedEntries os) →
      publisherStep s i = some (s', o) →
      PublisherInv s' (os ++ o) ∧ queuedEntries events <+: queuedEntries (os ++ o) := by
    rintro s os i s' o ⟨hinv, hpre⟩ hs
    refine ⟨publisherInv_step hinv hs, ?_⟩
    rw [queuedEntries_append]
    exact hpre.trans (List.prefix_append _ _)
  have hinit : PublisherInv s events ∧ queuedEntries events <+: queuedEntries events :=
    ⟨h, List.prefix_refl _⟩
  have hfewer : ∀ (s : PublisherState) (os : List PublisherEvent) (i : PublisherAction)
      (s' : PublisherState) (o : List PublisherEvent),
      (PublisherInv s os ∧ queuedEntries events <+: queuedEntries os) →
      publisherStep s i = some (s', o) →
      sectionsLeft (queuedEntries events).length s' (os ++ o) ≤
        sectionsLeft (queuedEntries events).length s os - if isSendThread i then 1 else 0 := by
    rintro s os i s' o ⟨hinv, hpre⟩ hs
    rcases publisherStep_cases hs with ⟨hp, _, hs⟩ | ⟨hp, hs⟩
    · rw [hp]
      exact sectionsLeft_send hinv.toPublishedInOrder hpre.length_le hs
    · rw [hp]
      exact sectionsLeft_other hinv.toPublishedInOrder hpre.length_le hs
  have hcount := exec_countdown hkeep hfewer more s s' events events' hinit he
  obtain ⟨hinv', hpre'⟩ := exec_track_from (C := fun _ _ => True)
    (R := fun s _ os => PublisherInv s os ∧ queuedEntries events <+: queuedEntries os)
    (fun s _ os i s' o hR _ hs => hkeep s os i s' o hR hs) more s s' [] events events' hinit
    (guarded_of_forall fun _ _ _ => trivial) he
  have hzero : sectionsLeft (queuedEntries events).length s' (events ++ events') = 0 := by
    have hle := sectionsLeft_le h.toPublishedInOrder
    omega
  have hdrained := drained_of_sectionsLeft hinv'.toPublishedInOrder hpre'.length_le hzero
  have horder := hinv'.order
  rw [List.append_assoc] at horder
  exact List.prefix_of_prefix_length_le hpre' ⟨_, horder.symm⟩ hdrained

/-- **Published messages** are drained each once and in the order in which they were
queued, and a message that is drained is handed once to every client that then is a child
of its method's composite client. The send thread never waits for a queue that holds a
message, it can otherwise always go on, and two of its sections for each message that was
not drained yet, and one, drain them all. -/
theorem published_in_order {actions : List PublisherAction} {s : PublisherState}
    {events : List PublisherEvent}
    (he : exec publisherStep publisherInit actions = some (s, events)) :
    PublishedInOrder s events ∧
      (∀ action s' o, publisherStep s action = some (s', o) → HandedToChildren s o) ∧
      (s.stage ≠ .waiting →
        ∀ sendBytes, (publisherStep s (.sendThread sendBytes)).isSome = true) ∧
      ∀ more s' events', exec publisherStep s more = some (s', events') →
        2 * (s.stage.inHand.length + s.sendQueue.length) + 1 ≤ more.countP isSendThread →
          queuedEntries events <+: drainedEntries (events ++ events') := by
  have h := publisherInv_run he
  exact ⟨h.toPublishedInOrder, fun _ _ _ hs => handedToChildren_step h hs, sendThread_isSome,
    fun _ _ _ hrun hmore => drained_after h hrun hmore⟩

def sampleUpdate (added : Bool) : Update :=
  .subscriptionChange [0x6d] ⟨false, .unixInfo [0x61]⟩ added

/-- A message is queued while the send thread waits, and a second subscriber joins and
leaves while it is in hand. -/
def publisherSample : List PublisherAction :=
  [.update (sampleUpdate true), .sendThread fun _ => .ok, .publish [0x6d] (some [1]),
    .queuePacket 0 true, .sendThread fun _ => .ok, .sendThread fun _ => .ok,
    .update (sampleUpdate true), .update (sampleUpdate false), .sendThread fun _ => .err]

theorem published_in_order_sample : ∃ s events,
    exec publisherStep publisherInit publisherSample = some (s, events) ∧
      PublishedInOrder s events ∧
      handedEntries events = [(⟨0, .unix false [0x61]⟩, ⟨[0x6d], [1]⟩)] :=
  ⟨_, _, rfl, (@published_in_order publisherSample _ _ rfl).1, rfl⟩

end Cmsg.Psd
