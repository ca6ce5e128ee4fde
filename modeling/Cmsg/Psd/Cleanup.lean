import Cmsg.Psd.Refinement

/-! # Cleaning up after a subscriber

The service-listener daemon reports the removal of a server for the services
that the daemon listens to, and these are the ones it has a service entry for.
The events wait in a queue that goes with the entry. A remote subscription is
stored without an entry, so whether it is cleaned up depends on the local
subscriptions and the publishers of the same service. And the handler of the
events knows the service by the key of the entry, which the clean-up frees before
it looks at the remote subscriptions. -/
namespace Cmsg.Psd
open Cmsg.Base Cmsg.Base.Runs

/-! ## The daemon and its events -/

/-- The data of the daemon and, for each service, the removals that were reported
and not processed yet. `undefined` is set once the source has done something that
C does not define. -/
structure Daemon where
  data : Data
  pending : CString → List TransportInfo
  undefined : Bool

def Data.listening (d : Data) (service : CString) : Bool :=
  (d.localSubscriptionsTable.lookup service).isSome

/-- Destroying a service entry destroys its listener, with the events in its queue. -/
def Daemon.update (x : Daemon) (d : Data) : Daemon :=
  ⟨d, fun s => if d.listening s then x.pending s else [], x.undefined⟩

inductive DaemonOp
  | data (op : Op)
  | serverRemoved (service : CString) (transportInfo : TransportInfo)
  | slEventProcess (service : CString)
deriving DecidableEq, Repr

/-- `_sl_event_handler` passes on the key of the entry. `data_remove_subscriber`
frees it with the entry, and then compares it with the service of every remote
subscription. -/
def readsFreedKey (d : Data) (service : CString) (transportInfo : TransportInfo) : Bool :=
  d.listening service && !(dataRemoveSubscriber d service transportInfo).1.listening service &&
    !d.remoteSubscriptionsList.isEmpty

/-- One step: a request to the daemon, a removal reported to it (`notify_listener`),
or the handling of the oldest event of a service (`_sl_event_handler`). The message
of a removal is made into a transport for the event and back for the handler. -/
def daemonStep : Machine Daemon DaemonOp RemoteSync
  | x, .data op =>
    match dataStep x.data op with
    | none => some ({ x with undefined := true }, [])
    | some (d, sent) => some (x.update d, sent)
  | x, .serverRemoved service transportInfo =>
    some (if x.data.listening service then
        { x with
          pending := fun s => if s = service then x.pending s ++ [transportInfo] else x.pending s
          undefined := x.undefined || (transportInfoToTransport transportInfo).isNone }
      else x, [])
  | x, .slEventProcess service =>
    match x.pending service with
    | [] => some (x, [])
    | transportInfo :: rest =>
      let x := { x with pending := fun s => if s = service then rest else x.pending s }
      match transportInfoCopy transportInfo with
      | none => some (x, [])
      | some info =>
        let r := dataRemoveSubscriber x.data service info
        some ({ x.update r.1 with
          undefined := x.undefined || readsFreedKey x.data service info }, r.2)

/-! ## Subscribers that are gone -/

/-- The subscribers, by service and endpoint, whose server was removed and that
have not subscribed since. -/
abbrev Gone := List (CString × Endpoint)

/-- The subscriptions that an operation stores. -/
def Op.subscribed : Op → Gone
  | .addSubscription info =>
    match info.remoteAddr with
    | some _ => [(info.service, info.transportInfo.endpoint)]
    | none => (transportInfoCopy info.transportInfo).toList.map fun t => (info.service, t.endpoint)
  | .addLocalSubscription info =>
    (transportInfoCopy info.transportInfo).toList.map fun t => (info.service, t.endpoint)
  | _ => []

def goneStep (gone : Gone) : DaemonOp → Gone
  | .data op => gone.filter fun subscriber => subscriber ∉ op.subscribed
  | .serverRemoved service transportInfo => (service, transportInfo.endpoint) :: gone
  | .slEventProcess _ => gone

/-- The daemon together with the subscribers that are gone. -/
def cleanupStep : Machine (Daemon × Gone) DaemonOp RemoteSync := fun x op =>
  (daemonStep x.1 op).map fun r => ((r.1, goneStep x.2 op), r.2)

def HoldsLocal (d : Data) (service : CString) (e : Endpoint) : Prop :=
  ∃ method ∈ (getServiceEntryOrCreate d service).methods, ∃ t ∈ method.transports, t.endpoint = e

def HoldsRemote (d : Data) (service : CString) (e : Endpoint) : Prop :=
  ∃ info ∈ d.remoteSubscriptionsList, info.service = service ∧ info.transportInfo.endpoint = e

def IsPending (x : Daemon) (service : CString) (e : Endpoint) : Prop :=
  ∃ t ∈ x.pending service, t.endpoint = e

/-- The subscriptions in the message of `remote_sync_bulk_sync_subscriptions`. -/
def remoteSyncBulkSyncSubscriptions (d : Data) (remoteAddr : UInt32) : List SubscriptionInfo :=
  d.remoteSubscriptionsList.filter fun info => info.remoteAddr == some remoteAddr

def Offers (d : Data) (service : CString) (e : Endpoint) : Prop :=
  ∃ addr, ∃ info ∈ remoteSyncBulkSyncSubscriptions d addr,
    info.service = service ∧ info.transportInfo.endpoint = e

/-- **What the events are for.** Nothing undefined was done, and once no event about
it is left, the daemon holds no subscription of a subscriber that is gone and offers
it to no host. -/
structure CleanedUp (x : Daemon × Gone) : Prop where
  defined : x.1.undefined = false
  holdsNone : ∀ service e, (service, e) ∈ x.2 → ¬ IsPending x.1 service e →
    ¬ HoldsLocal x.1.data service e ∧ ¬ HoldsRemote x.1.data service e ∧ ¬ Offers x.1.data service e

/-- The step from `d` to `d'` stops listening to a service. -/
def Unlistens (d d' : Data) (service : CString) : Prop :=
  d.listening service = true ∧ d'.listening service = false

/-- The remote subscriptions that a request removes whatever their method is. -/
def Op.Clears (op : Op) (service : CString) (e : Endpoint) : Prop :=
  ∃ info : TransportInfo, op = .removeSubscriber service info ∧ info.endpoint = e

/-- Every request is one whose transports can be copied. When a subscriber is removed,
the daemon listens to its service and can copy its transport, or has no remote
subscription of it. No request destroys an entry while a removal waits in its queue
and there is a remote subscription that it is about, unless the request removes that
subscription itself. No event destroys an entry while there is any remote
subscription. And when the last removal of a subscriber is handled, no method lists
the subscriber twice and the copy of its transport is one to the same endpoint, or
there is no subscription of it. -/
def NothingMissed (x : Daemon × Gone) : DaemonOp → Prop
  | .data op => ∃ d' o, dataStep x.1.data op = some (d', o) ∧ ∀ service,
    Unlistens x.1.data d' service → ∀ e, (service, e) ∈ x.2 → IsPending x.1 service e →
      HoldsRemote x.1.data service e → op.Clears service e
  | .serverRemoved service transportInfo =>
    (x.1.data.listening service = true ∧ (transportInfoToTransport transportInfo).isSome) ∨
      (x.1.data.listening service = false ∧
        ¬ HoldsRemote x.1.data service transportInfo.endpoint)
  | .slEventProcess service => ∀ t rest info, x.1.pending service = t :: rest →
    transportInfoCopy t = some info →
    (Unlistens x.1.data (dataRemoveSubscriber x.1.data service info).1 service →
      x.1.data.remoteSubscriptionsList = []) ∧
    ((service, t.endpoint) ∈ x.2 → (∀ t' ∈ rest, t'.endpoint ≠ t.endpoint) →
      if info.endpoint = t.endpoint then
        ∀ method ∈ (getServiceEntryOrCreate x.1.data service).methods,
          method.transports.countP (transportInfoCompare · info) ≤ 1
      else
        ¬ HoldsLocal x.1.data service t.endpoint ∧ ¬ HoldsRemote x.1.data service t.endpoint)

/-! ## Entries that only lose transports -/

/-- The entry `e'` has no transport that `e` did not have. -/
def Shrinks (e e' : ServiceDataEntry) : Prop :=
  ∀ m' ∈ e'.methods, ∀ t ∈ m'.transports, ∃ m ∈ e.methods, t ∈ m.transports

theorem Shrinks.refl (e : ServiceDataEntry) : Shrinks e e := fun m hm _ ht => ⟨m, hm, ht⟩

theorem Shrinks.trans {e e' e'' : ServiceDataEntry} (h : Shrinks e e') (h' : Shrinks e' e'') :
    Shrinks e e'' := by
  intro m hm t ht
  obtain ⟨m', hm', ht'⟩ := h' m hm t ht
  exact h m' hm' t ht'

theorem shrinks_nil (e : ServiceDataEntry) : Shrinks e ⟨[], []⟩ := fun _ hm => by cases hm

theorem shrinks_of_subset {e e' : ServiceDataEntry} (h : ∀ m ∈ e'.methods, m ∈ e.methods) :
    Shrinks e e' := fun m hm _ ht => ⟨m, h m hm, ht⟩

/-- Removing a transport from a method that the entry had at the beginning. -/
theorem Shrinks.removeTransport {e₀ e : ServiceDataEntry} (h : Shrinks e₀ e)
    {method : MethodDataEntry} (hm : method ∈ e₀.methods) (info : TransportInfo) :
    Shrinks e₀ (dataRemoveTransportFromMethod e method info) := by
  unfold dataRemoveTransportFromMethod
  split
  · intro m' hm' t ht
    rcases List.mem_modifyFirst hm' with hmem | ⟨a, _, _, rfl⟩
    · exact h m' hmem t ht
    · exact ⟨method, hm, List.mem_of_mem_eraseP ht⟩
  · exact h

theorem namesUnique_removeTransport {e : ServiceDataEntry} (hu : e.NamesUnique)
    (method : MethodDataEntry) (info : TransportInfo) :
    (dataRemoveTransportFromMethod e method info).NamesUnique := by
  unfold dataRemoveTransportFromMethod
  split
  · exact namesUnique_setTransports hu _ _
  · exact hu

/-! ## The loop over the methods of a subscriber -/

/-- The entry after the loop of `data_remove_subscriber`. -/
def removeFromMethods (e : ServiceDataEntry) (info : TransportInfo)
    (methods : List MethodDataEntry) : ServiceDataEntry :=
  methods.foldl (fun entry method => dataRemoveTransportFromMethod entry method info) e

theorem removeFromMethods_spec {e : ServiceDataEntry} (hu : e.NamesUnique) (info : TransportInfo)
    (methods : List MethodDataEntry) (hnames : (methods.map (·.methodName)).Nodup)
    (hfound : ∀ method ∈ methods, e.method? method.methodName = some method) :
    (removeFromMethods e info methods).NamesUnique ∧
      (∀ method ∈ methods, (removeFromMethods e info methods).method? method.methodName =
        some { method with
          transports := method.transports.eraseP (transportInfoCompare · info) }) ∧
      ∀ j, (∀ method ∈ methods, j ≠ method.methodName) →
        (removeFromMethods e info methods).method? j = e.method? j := by
  induction methods generalizing e with
  | nil => exact ⟨hu, List.forall_mem_nil _, fun _ _ => rfl⟩
  | cons method methods ih =>
    obtain ⟨hnew, hnames⟩ := List.nodup_cons.mp hnames
    have hother : ∀ m ∈ methods, m.methodName ≠ method.methodName := by
      intro m hm he
      exact hnew (List.mem_map.mpr ⟨m, hm, he⟩)
    have hfirst := removeTransport_method? (hfound method (by simp)) info
    obtain ⟨hu', hremoved, hrest⟩ := ih (namesUnique_removeTransport hu method info) hnames
      fun m hm => by rw [removeTransport_method?_of_ne (hother m hm), hfound m (by simp [hm])]
    refine ⟨hu', fun m hm => ?_, fun j hj => ?_⟩
    · rcases List.mem_cons.mp hm with rfl | hm
      · exact (hrest _ fun m' hm' he => hother m' hm' he.symm).trans hfirst
      · exact hremoved m hm
    · exact (hrest j fun m hm => hj m (by simp [hm])).trans
        (removeTransport_method?_of_ne (hj method (by simp)) info)

/-- What is left of the methods of an entry. -/
theorem mem_removeFromMethods {e : ServiceDataEntry} (hu : e.NamesUnique) (info : TransportInfo)
    {m' : MethodDataEntry} :
    m' ∈ (dataPruneEmptyMethods (removeFromMethods e info e.methods)).methods ↔
      ∃ m ∈ e.methods, m.transports.eraseP (transportInfoCompare · info) ≠ [] ∧
        m' = { m with transports := m.transports.eraseP (transportInfoCompare · info) } := by
  obtain ⟨hu', hremoved, hrest⟩ := removeFromMethods_spec hu info e.methods hu
    fun m hm => method?_of_mem hu hm
  simp only [dataPruneEmptyMethods, List.mem_filter, bne_iff_ne, ne_eq, List.length_eq_zero_iff]
  constructor
  · intro ⟨hm', hne⟩
    have hfound := method?_of_mem hu' hm'
    by_cases hname : ∃ m ∈ e.methods, m'.methodName = m.methodName
    · obtain ⟨m, hm, he⟩ := hname
      rw [he, hremoved m hm] at hfound
      obtain rfl := Option.some.inj hfound
      exact ⟨m, hm, hne, rfl⟩
    · have hnone := hrest m'.methodName fun m hm he => hname ⟨m, hm, he⟩
      rw [hfound] at hnone
      have hm := List.mem_of_find?_eq_some hnone.symm
      exact absurd ⟨m', hm, rfl⟩ hname
  · intro ⟨m, hm, hne, he⟩
    subst he
    exact ⟨List.mem_of_find?_eq_some (hremoved m hm), hne⟩

/-! ## What one operation does to the subscriptions -/

/-- The effect of an operation other than the removal of a subscriber. -/
structure OpEffect (d d' : Data) (subscribed : Gone) : Prop where
  names : ∀ s, (getServiceEntryOrCreate d' s).NamesUnique
  holdsLocal : ∀ s e, HoldsLocal d' s e → HoldsLocal d s e ∨ (s, e) ∈ subscribed
  holdsRemote : ∀ s e, HoldsRemote d' s e → HoldsRemote d s e ∨ (s, e) ∈ subscribed
  unlistens : ∀ s, Unlistens d d' s →
    subscribed = [] ∧ d'.remoteSubscriptionsList = d.remoteSubscriptionsList

section
variable {d d' : Data}

theorem not_unlistens_of_isSome {s : CString}
    (h : d.listening s = true → d'.listening s = true) : ¬ Unlistens d d' s := by
  intro ⟨hlistening, hnot⟩
  rw [h hlistening] at hnot
  cases hnot

/-- Only the remote subscriptions change. -/
theorem opEffect_remote (hu : ∀ s, (getServiceEntryOrCreate d s).NamesUnique)
    {remote : List SubscriptionInfo} {subscribed : Gone}
    (hr : ∀ i ∈ remote, i ∈ d.remoteSubscriptionsList ∨
      (i.service, i.transportInfo.endpoint) ∈ subscribed) :
    OpEffect d { d with remoteSubscriptionsList := remote } subscribed where
  names := hu
  holdsLocal _ _ h := .inl h
  holdsRemote := by
    rintro _ _ ⟨i, hi, rfl, rfl⟩
    rcases hr i hi with hold | hnew
    · exact .inl ⟨i, hold, rfl, rfl⟩
    · exact .inr hnew
  unlistens s h := absurd h (not_unlistens_of_isSome fun hl => hl)

/-- The entry of one service changes and stays, with transports that were there
before or are subscribed. -/
theorem opEffect_setService (hu : ∀ s, (getServiceEntryOrCreate d s).NamesUnique)
    {service : CString} {entry : ServiceDataEntry} {next : Nat} {subscribed : Gone}
    (hnames : entry.NamesUnique)
    (hm : ∀ m' ∈ entry.methods, ∀ t ∈ m'.transports,
      (∃ m ∈ (getServiceEntryOrCreate d service).methods, t ∈ m.transports) ∨
        (service, t.endpoint) ∈ subscribed) :
    OpEffect d { d.setService service entry with nextClient := next } subscribed where
  names s := by
    have hget := getServiceEntryOrCreate_setService d service entry s
    show (getServiceEntryOrCreate (d.setService service entry) s).NamesUnique
    rw [hget]
    split
    · exact hnames
    · exact hu s
  holdsLocal s e h := by
    have hget := getServiceEntryOrCreate_setService d service entry s
    obtain ⟨m', hm', t, ht, rfl⟩ := h
    change m' ∈ (getServiceEntryOrCreate (d.setService service entry) s).methods at hm'
    rw [hget] at hm'
    split at hm'
    · next hs =>
      subst hs
      rcases hm m' hm' t ht with ⟨m, hmem, htm⟩ | hnew
      · exact .inl ⟨m, hmem, t, htm, rfl⟩
      · exact .inr hnew
    · exact .inl ⟨m', hm', t, ht, rfl⟩
  holdsRemote _ _ h := .inl h
  unlistens s h := by
    refine absurd h (not_unlistens_of_isSome fun hl => ?_)
    by_cases hs : s = service
    · simp [Data.listening, Data.setService, hs]
    · simpa [Data.listening, Data.setService, hs] using hl

/-- Entries lose transports or are destroyed. -/
theorem opEffect_shrinks (hremote : d'.remoteSubscriptionsList = d.remoteSubscriptionsList)
    (hnames : ∀ s, (getServiceEntryOrCreate d' s).NamesUnique)
    (hs : ∀ s, Shrinks (getServiceEntryOrCreate d s) (getServiceEntryOrCreate d' s)) :
    OpEffect d d' [] where
  names := hnames
  holdsLocal := by
    rintro s _ ⟨m', hm', t, ht, rfl⟩
    obtain ⟨m, hm, htm⟩ := hs s m' hm' t ht
    exact .inl ⟨m, hm, t, htm, rfl⟩
  holdsRemote s e h := by
    rw [HoldsRemote, hremote] at h
    exact .inl h
  unlistens _ _ := ⟨rfl, hremote⟩

theorem shrinks_setService {service : CString} {entry : ServiceDataEntry}
    (h : Shrinks (getServiceEntryOrCreate d service) entry) (s : CString) :
    Shrinks (getServiceEntryOrCreate d s) (getServiceEntryOrCreate (d.setService service entry) s) := by
  rw [getServiceEntryOrCreate_setService]
  split
  · next hs => exact hs ▸ h
  · exact .refl _

theorem shrinks_destroyService (service s : CString) :
    Shrinks (getServiceEntryOrCreate d s) (getServiceEntryOrCreate (d.destroyService service) s) := by
  rw [getServiceEntryOrCreate_destroyService]
  split
  · exact shrinks_nil _
  · exact .refl _

theorem namesUnique_nil : (⟨[], []⟩ : ServiceDataEntry).NamesUnique := List.nodup_nil

theorem addLocalSubscription_effect (hu : ∀ s, (getServiceEntryOrCreate d s).NamesUnique)
    {info : SubscriptionInfo} (h : dataAddLocalSubscription d info = some d') :
    OpEffect d d' ((transportInfoCopy info.transportInfo).toList.map
      fun t => (info.service, t.endpoint)) := by
  obtain ⟨copy, hcopy, rfl⟩ := Option.map_eq_some_iff.mp h
  obtain ⟨hnames, hfound, _⟩ := getMethodEntryOrCreate_spec (hu info.service) info.methodName
  refine opEffect_setService hu (namesUnique_setTransports hnames _ _) fun m' hm' t ht => ?_
  have hold : ∀ m ∈ (getMethodEntryOrCreate (getServiceEntryOrCreate d info.service)
      info.methodName).methods, t ∈ m.transports →
      ∃ m ∈ (getServiceEntryOrCreate d info.service).methods, t ∈ m.transports := by
    intro m hm htm
    unfold getMethodEntryOrCreate at hm
    split at hm
    · exact ⟨m, hm, htm⟩
    · rcases List.mem_cons.mp hm with rfl | hm
      · cases htm
      · exact ⟨m, hm, htm⟩
  rcases mem_setTransports hnames hm' with ⟨_, htransports⟩ | ⟨_, hm⟩
  · rw [htransports] at ht
    rcases List.mem_cons.mp ht with rfl | ht
    · exact .inr (by simp [hcopy])
    · obtain ⟨m, hm⟩ := Option.isSome_iff_exists.mp hfound
      rw [hm] at ht
      exact .inl (hold m (List.mem_of_find?_eq_some hm) ht)
  · exact .inl (hold m' hm ht)

theorem removeLocalSubscription_effect (hu : ∀ s, (getServiceEntryOrCreate d s).NamesUnique)
    (info : SubscriptionInfo) : OpEffect d (dataRemoveLocalSubscription d info) [] := by
  unfold dataRemoveLocalSubscription
  cases hl : d.localSubscriptionsTable.lookup info.service with
  | none => exact opEffect_shrinks rfl hu fun _ => .refl _
  | some e =>
    have hget := getServiceEntryOrCreate_of_lookup hl
    have hue : e.NamesUnique := hget ▸ hu info.service
    cases hm : e.method? info.methodName with
    | none =>
      simp only [hm]
      exact opEffect_shrinks rfl hu fun _ => .refl _
    | some method =>
      have hremoved : Shrinks e (dataRemoveTransportFromMethod e method info.transportInfo) :=
        (Shrinks.refl e).removeTransport (List.mem_of_find?_eq_some hm) info.transportInfo
      have hnames := namesUnique_removeTransport hue method info.transportInfo
      have hset : ∀ e', e'.NamesUnique → Shrinks e e' →
          OpEffect d (d.setService info.service e') [] := by
        intro e' hu' hs'
        refine opEffect_shrinks rfl (fun s => ?_) (shrinks_setService (hget ▸ hs'))
        rw [getServiceEntryOrCreate_setService]
        split
        · exact hu'
        · exact hu s
      simp only [hm]
      split
      · split
        · refine opEffect_shrinks rfl (fun s => ?_) (shrinks_destroyService info.service)
          rw [getServiceEntryOrCreate_destroyService]
          split
          · exact namesUnique_nil
          · exact hu s
        · exact hset _ ((List.eraseP_sublist.map _).nodup hnames)
            (hremoved.trans (shrinks_of_subset fun m hm => List.mem_of_mem_eraseP hm))
      · exact hset _ hnames hremoved

theorem shrinks_removeForAddr {e : ServiceDataEntry} (hu : e.NamesUnique) (addr : UInt32) :
    (dataRemoveLocalEntriesForAddr e addr).NamesUnique ∧
      Shrinks e (dataRemoveLocalEntriesForAddr e addr) := by
  let e' : ServiceDataEntry := { e with
    methods := e.methods.map fun m => (dataRemoveClientsWithAddrFromMethod m addr).1 }
  have hu' : e'.NamesUnique := by
    unfold ServiceDataEntry.NamesUnique
    rw [List.map_map]
    exact hu
  have hs : Shrinks e (dataPruneEmptyMethods e') := by
    intro m' hm' t ht
    obtain ⟨m, hm, rfl⟩ := List.mem_map.mp (List.mem_of_mem_filter hm')
    exact ⟨m, hm, List.mem_of_mem_filter ht⟩
  unfold dataRemoveLocalEntriesForAddr
  dsimp only
  split
  · exact ⟨namesUnique_prune hu', hs⟩
  · exact ⟨namesUnique_prune hu', hs⟩

theorem removeForAddr_effect (hu : ∀ s, (getServiceEntryOrCreate d s).NamesUnique) (addr : UInt32) :
    OpEffect d (dataRemoveLocalSubscriptionsForAddr d addr) [] := by
  have hget : ∀ s, getServiceEntryOrCreate (dataRemoveLocalSubscriptionsForAddr d addr) s = ⟨[], []⟩ ∨
      getServiceEntryOrCreate (dataRemoveLocalSubscriptionsForAddr d addr) s =
        dataRemoveLocalEntriesForAddr (getServiceEntryOrCreate d s) addr := by
    intro s
    have hlookup : (dataRemoveLocalSubscriptionsForAddr d addr).localSubscriptionsTable.lookup s =
        ((d.localSubscriptionsTable.lookup s).map fun e => dataRemoveLocalEntriesForAddr e addr).filter
          fun e => !dataRemoveEmptyServices e := rfl
    rw [getServiceEntryOrCreate, hlookup, getServiceEntryOrCreate]
    cases d.localSubscriptionsTable.lookup s with
    | none => exact .inl rfl
    | some e =>
      by_cases hempty : dataRemoveEmptyServices (dataRemoveLocalEntriesForAddr e addr) = true
      · exact .inl (by simp [Option.filter, hempty])
      · exact .inr (by simp [Option.filter, hempty])
  refine opEffect_shrinks rfl (fun s => ?_) fun s => ?_
  · rcases hget s with he | he
    · exact he ▸ namesUnique_nil
    · exact he ▸ (shrinks_removeForAddr (hu s) addr).1
  · rcases hget s with he | he
    · exact he ▸ shrinks_nil _
    · exact he ▸ (shrinks_removeForAddr (hu s) addr).2

/-- One operation on the data, other than the removal of a subscriber. -/
theorem dataStep_effect (hu : ∀ s, (getServiceEntryOrCreate d s).NamesUnique) {op : Op}
    {o : List RemoteSync} (hop : ∀ s t, op ≠ .removeSubscriber s t)
    (hs : dataStep d op = some (d', o)) : OpEffect d d' op.subscribed := by
  cases op with
  | addSubscription info =>
    simp only [dataStep, dataAddSubscription] at hs
    cases haddr : info.remoteAddr with
    | some addr =>
      simp only [haddr, Option.some.injEq, Prod.mk.injEq] at hs
      simp only [Op.subscribed, haddr]
      obtain ⟨rfl, _⟩ := hs
      refine opEffect_remote hu fun i hi => ?_
      rcases List.mem_cons.mp hi with rfl | hi
      · exact .inr (List.mem_singleton_self _)
      · exact .inl hi
    | none =>
      simp only [haddr] at hs
      simp only [Op.subscribed, haddr]
      obtain ⟨d₁, ha, he⟩ := Option.map_eq_some_iff.mp hs
      obtain ⟨rfl, _⟩ := Prod.mk.inj he
      exact addLocalSubscription_effect hu ha
  | removeSubscription info =>
    have hx := congrArg Prod.fst (Option.some.inj hs)
    simp only [dataRemoveSubscription] at hx
    split at hx
    · rw [← hx]
      unfold dataRemoveRemoteSubscription
      split
      · exact opEffect_remote hu fun i hi => .inl (List.mem_of_mem_eraseP hi)
      · exact opEffect_remote hu fun i hi => .inl hi
    · rw [← hx]
      exact removeLocalSubscription_effect hu info
  | addLocalSubscription info =>
    obtain ⟨d₁, ha, he⟩ := Option.map_eq_some_iff.mp hs
    obtain ⟨rfl, _⟩ := Prod.mk.inj he
    exact addLocalSubscription_effect hu ha
  | removeLocalSubscription info =>
    obtain ⟨rfl, _⟩ := Prod.mk.inj (Option.some.inj hs)
    exact removeLocalSubscription_effect hu info
  | removeSubscriber service t => exact absurd rfl (hop service t)
  | removeLocalSubscriptionsForAddr addr =>
    obtain ⟨rfl, _⟩ := Prod.mk.inj (Option.some.inj hs)
    exact removeForAddr_effect hu addr
  | addPublisher service t =>
    obtain ⟨d₁, ha, he⟩ := Option.map_eq_some_iff.mp hs
    obtain ⟨rfl, _⟩ := Prod.mk.inj he
    obtain ⟨transport, _, rfl⟩ := Option.map_eq_some_iff.mp ha
    exact opEffect_setService hu (hu service) fun m hm t ht => .inl ⟨m, hm, ht⟩
  | removePublisher service t =>
    obtain ⟨d₁, ha, he⟩ := Option.map_eq_some_iff.mp hs
    obtain ⟨rfl, _⟩ := Prod.mk.inj he
    unfold dataRemovePublisher at ha
    cases hl : d.localSubscriptionsTable.lookup service with
    | none =>
      simp only [hl, Option.some.injEq] at ha
      subst ha
      exact opEffect_shrinks rfl hu fun _ => .refl _
    | some e =>
      simp only [hl] at ha
      obtain ⟨transport, _, rfl⟩ := Option.map_eq_some_iff.mp ha
      have hget := getServiceEntryOrCreate_of_lookup hl
      show OpEffect d { d.setService service _ with nextClient := d.nextClient } _
      exact opEffect_setService hu (hget ▸ hu service) fun m hm t ht => .inl ⟨m, hget ▸ hm, ht⟩

/-! ## Removing a subscriber -/

/-- What the handler of a removal does to the subscriptions. -/
structure SubscriberRemoved (d d' : Data) (service : CString) (info : TransportInfo) : Prop where
  names : ∀ s, (getServiceEntryOrCreate d' s).NamesUnique
  listening : ∀ s, s ≠ service → d'.listening s = d.listening s
  holdsLocal : ∀ s e, HoldsLocal d' s e → HoldsLocal d s e
  others : ∀ s e, ¬ (s = service ∧ e = info.endpoint) → HoldsLocal d s e → HoldsLocal d' s e
  holdsRemote : ∀ s e, HoldsRemote d' s e ↔
    HoldsRemote d s e ∧ ¬ (s = service ∧ e = info.endpoint)
  twice : HoldsLocal d' service info.endpoint ↔
    ∃ m ∈ (getServiceEntryOrCreate d service).methods,
      2 ≤ m.transports.countP (transportInfoCompare · info)

theorem holdsRemote_removeEntries (d : Data) (service : CString) (info : TransportInfo) (s : CString)
    (e : Endpoint) : HoldsRemote (dataRemoveRemoteEntriesForSubscriber d service info).1 s e ↔
      HoldsRemote d s e ∧ ¬ (s = service ∧ e = info.endpoint) := by
  have hremoved : ∀ i : SubscriptionInfo,
      (i.service == service && transportInfoCompare i.transportInfo info) = true ↔
        i.service = service ∧ i.transportInfo.endpoint = info.endpoint := by
    intro i
    rw [Bool.and_eq_true, beq_iff_eq, transportInfoCompare_iff]
  unfold HoldsRemote dataRemoveRemoteEntriesForSubscriber
  simp only [List.mem_filter, Bool.not_eq_true', ← Bool.not_eq_true, hremoved]
  constructor
  · rintro ⟨i, ⟨hi, hnot⟩, rfl, rfl⟩
    exact ⟨⟨i, hi, rfl, rfl⟩, hnot⟩
  · rintro ⟨⟨i, hi, rfl, rfl⟩, hnot⟩
    exact ⟨i, ⟨hi, hnot⟩, rfl, rfl⟩

/-- The endpoint of a subscriber that a method listed more than once. -/
theorem exists_left_iff {transports : List TransportInfo} {info : TransportInfo} :
    (∃ t ∈ transports.eraseP (transportInfoCompare · info), t.endpoint = info.endpoint) ↔
      2 ≤ transports.countP (transportInfoCompare · info) := by
  rw [← List.exists_mem_eraseP_iff]
  simp only [transportInfoCompare_iff]

theorem subscriberRemoved (hu : ∀ s, (getServiceEntryOrCreate d s).NamesUnique) (service : CString)
    (info : TransportInfo) :
    SubscriberRemoved d (dataRemoveSubscriber d service info).1 service info := by
  unfold dataRemoveSubscriber
  cases hl : d.localSubscriptionsTable.lookup service with
  | none =>
    have hget : getServiceEntryOrCreate d service = ⟨[], []⟩ := by simp [getServiceEntryOrCreate, hl]
    refine ⟨hu, fun _ _ => rfl, fun _ _ h => h, fun _ _ _ h => h,
      holdsRemote_removeEntries d service info, ?_⟩
    constructor
    · rintro ⟨m, hm, _⟩
      change m ∈ (getServiceEntryOrCreate d service).methods at hm
      rw [hget] at hm
      cases hm
    · rintro ⟨m, hm, _⟩
      rw [hget] at hm
      cases hm
  | some e =>
    have hget := getServiceEntryOrCreate_of_lookup hl
    have hue : e.NamesUnique := hget ▸ hu service
    have hleft (m' : MethodDataEntry) := @mem_removeFromMethods e hue info m'
    have hnames : (dataPruneEmptyMethods (removeFromMethods e info e.methods)).NamesUnique :=
      namesUnique_prune (removeFromMethods_spec hue info e.methods hue
        fun m hm => method?_of_mem hue hm).1
    have htwice : (∃ m' ∈ (dataPruneEmptyMethods (removeFromMethods e info e.methods)).methods,
        ∃ t ∈ m'.transports, t.endpoint = info.endpoint) ↔
        ∃ m ∈ e.methods, 2 ≤ m.transports.countP (transportInfoCompare · info) := by
      constructor
      · rintro ⟨m', hm', ht⟩
        obtain ⟨m, hm, _, rfl⟩ := (hleft m').mp hm'
        exact ⟨m, hm, exists_left_iff.mp ht⟩
      · rintro ⟨m, hm, hcount⟩
        obtain ⟨t, ht, he⟩ := exists_left_iff.mpr hcount
        exact ⟨_, (hleft _).mpr ⟨m, hm, List.ne_nil_of_mem ht, rfl⟩, t, ht, he⟩
    have hshrinks : Shrinks e (dataPruneEmptyMethods (removeFromMethods e info e.methods)) := by
      intro m' hm' t ht
      obtain ⟨m, hm, _, rfl⟩ := (hleft m').mp hm'
      exact ⟨m, hm, List.mem_of_mem_eraseP ht⟩
    have hlocal : ∀ {d'' : Data}, (∀ s, Shrinks (getServiceEntryOrCreate d s)
        (getServiceEntryOrCreate d'' s)) → ∀ s e, HoldsLocal d'' s e → HoldsLocal d s e := by
      rintro d'' hs s _ ⟨m', hm', t, ht, rfl⟩
      obtain ⟨m, hm, htm⟩ := hs s m' hm' t ht
      exact ⟨m, hm, t, htm, rfl⟩
    have hothers : ∀ e₁, e₁ ≠ info.endpoint → HoldsLocal d service e₁ →
        ∃ m' ∈ (dataPruneEmptyMethods (removeFromMethods e info e.methods)).methods,
          ∃ t ∈ m'.transports, t.endpoint = e₁ := by
      rintro _ hne ⟨m, hm, t, ht, rfl⟩
      rw [hget] at hm
      have ht' : t ∈ m.transports.eraseP (transportInfoCompare · info) :=
        (List.mem_eraseP_of_neg (by rwa [transportInfoCompare_iff])).mpr ht
      exact ⟨_, (hleft _).mpr ⟨m, hm, List.ne_nil_of_mem ht', rfl⟩, t, ht', rfl⟩
    dsimp only
    split
    · next hempty =>
      have hnil : (dataPruneEmptyMethods (removeFromMethods e info e.methods)).methods = [] := by
        simp only [dataRemoveEmptyServices, Bool.and_eq_true, beq_iff_eq] at hempty
        exact List.length_eq_zero_iff.mp hempty.1
      refine ⟨fun s => ?_, fun s hs => ?_, hlocal (shrinks_destroyService service),
        fun s e₁ hne hheld => ?_,
        holdsRemote_removeEntries (d.destroyService service) service info, ?_⟩
      · have hafter := getServiceEntryOrCreate_destroyService d service s
        show (getServiceEntryOrCreate (d.destroyService service) s).NamesUnique
        rw [hafter]
        split
        · exact namesUnique_nil
        · exact hu s
      · simp [Data.listening, Data.destroyService, dataRemoveRemoteEntriesForSubscriber, hs]
      · by_cases hs : s = service
        · subst hs
          obtain ⟨m, hm, _⟩ := hothers e₁ (fun he => hne ⟨rfl, he⟩) hheld
          rw [hnil] at hm
          cases hm
        · have hafter := getServiceEntryOrCreate_destroyService d service s
          rw [if_neg hs] at hafter
          show ∃ m ∈ (getServiceEntryOrCreate (d.destroyService service) s).methods, _
          rw [hafter]
          exact hheld
      · rw [hget, ← htwice, hnil]
        refine iff_of_false ?_ (by simp)
        rintro ⟨m, hm, _⟩
        have hafter := getServiceEntryOrCreate_destroyService d service service
        change m ∈ (getServiceEntryOrCreate (d.destroyService service) service).methods at hm
        rw [hafter, if_pos rfl] at hm
        cases hm
    · let e' := dataPruneEmptyMethods (removeFromMethods e info e.methods)
      refine ⟨fun s => ?_, fun s hs => ?_, hlocal (shrinks_setService (hget ▸ hshrinks)),
        fun s e₁ hne hheld => ?_,
        holdsRemote_removeEntries (d.setService service e') service info, ?_⟩
      · have hafter := getServiceEntryOrCreate_setService d service e' s
        show (getServiceEntryOrCreate (d.setService service e') s).NamesUnique
        rw [hafter]
        split
        · exact hnames
        · exact hu s
      · simp [Data.listening, Data.setService, dataRemoveRemoteEntriesForSubscriber, hs]
      · have hafter := getServiceEntryOrCreate_setService d service e' s
        show ∃ m ∈ (getServiceEntryOrCreate (d.setService service e') s).methods, _
        rw [hafter]
        by_cases hs : s = service
        · rw [if_pos hs]
          subst hs
          exact hothers e₁ (fun he => hne ⟨rfl, he⟩) hheld
        · rw [if_neg hs]
          exact hheld
      · have hafter := getServiceEntryOrCreate_setService d service e' service
        rw [if_pos rfl] at hafter
        rw [hget, ← htwice]
        show (∃ m ∈ (getServiceEntryOrCreate (d.setService service e') service).methods, _) ↔ _
        rw [hafter]

/-! ## What one request does -/

theorem clears_removeSubscriber {service s : CString} {info : TransportInfo} {e : Endpoint} :
    (Op.removeSubscriber service info).Clears s e ↔ s = service ∧ e = info.endpoint := by
  constructor
  · rintro ⟨info', he, rfl⟩
    cases he
    exact ⟨rfl, rfl⟩
  · rintro ⟨rfl, rfl⟩
    exact ⟨info, rfl, rfl⟩

/-- What a request does to the subscriptions. -/
structure RequestEffect (d d' : Data) (op : Op) : Prop where
  names : ∀ s, (getServiceEntryOrCreate d' s).NamesUnique
  holdsLocal : ∀ s e, HoldsLocal d' s e → HoldsLocal d s e ∨ (s, e) ∈ op.subscribed
  holdsRemote : ∀ s e, HoldsRemote d' s e → HoldsRemote d s e ∨ (s, e) ∈ op.subscribed
  unlistens : ∀ s, Unlistens d d' s → op.subscribed = [] ∧
    ∀ e, HoldsRemote d' s e ↔ HoldsRemote d s e ∧ ¬ op.Clears s e

theorem dataStep_request (hu : ∀ s, (getServiceEntryOrCreate d s).NamesUnique) {op : Op}
    {o : List RemoteSync} (hs : dataStep d op = some (d', o)) : RequestEffect d d' op := by
  by_cases hop : ∃ s t, op = .removeSubscriber s t
  · obtain ⟨service, info, rfl⟩ := hop
    have hd' : (dataRemoveSubscriber d service info).1 = d' := congrArg Prod.fst (Option.some.inj hs)
    subst hd'
    have hremoved := subscriberRemoved hu service info
    refine ⟨hremoved.names, fun s e h => .inl (hremoved.holdsLocal s e h),
      fun s e h => .inl ((hremoved.holdsRemote s e).mp h).1, fun s _ => ⟨rfl, fun e => ?_⟩⟩
    rw [clears_removeSubscriber]
    exact hremoved.holdsRemote s e
  · have heffect := dataStep_effect hu (fun s t he => hop ⟨s, t, he⟩) hs
    refine ⟨heffect.names, heffect.holdsLocal, heffect.holdsRemote, fun s hun => ?_⟩
    obtain ⟨hnone, hsame⟩ := heffect.unlistens s hun
    refine ⟨hnone, fun e => ?_⟩
    have hclears : ¬ op.Clears s e := fun ⟨t, he, _⟩ => hop ⟨s, t, he⟩
    simp only [HoldsRemote, hsame, hclears, not_false_eq_true, and_true]

/-! ## Whole runs -/

/-- The invariant: a subscriber that is gone is cleaned up or about to be, only
services that are listened to have events, and these can be handled. -/
structure CleanupOk (x : Daemon × Gone) : Prop where
  names : ∀ s, (getServiceEntryOrCreate x.1.data s).NamesUnique
  listening : ∀ s, x.1.data.listening s = false → x.1.pending s = []
  copied : ∀ s, ∀ t ∈ x.1.pending s, ∃ info, transportInfoCopy t = some info
  cleaned : CleanedUp x

theorem not_holdsLocal_of_not_listening {s : CString} (h : d.listening s = false) (e : Endpoint) :
    ¬ HoldsLocal d s e := by
  intro ⟨m, hm, _⟩
  have hnone : d.localSubscriptionsTable.lookup s = none := by
    simpa [Data.listening] using h
  rw [getServiceEntryOrCreate, hnone] at hm
  cases hm

theorem holdsRemote_of_offers {s : CString} {e : Endpoint} (h : Offers d s e) :
    HoldsRemote d s e := by
  obtain ⟨_, info, hi, he⟩ := h
  exact ⟨info, List.mem_of_mem_filter hi, he⟩

/-- What is not held is not offered either. -/
theorem cleanedUp_of_holdsNone {x : Daemon × Gone} (hdefined : x.1.undefined = false)
    (h : ∀ service e, (service, e) ∈ x.2 → ¬ IsPending x.1 service e →
      ¬ HoldsLocal x.1.data service e ∧ ¬ HoldsRemote x.1.data service e) : CleanedUp x where
  defined := hdefined
  holdsNone service e hgone hpending := by
    obtain ⟨hlocal, hremote⟩ := h service e hgone hpending
    exact ⟨hlocal, hremote, mt holdsRemote_of_offers hremote⟩

theorem CleanupOk.holdsNone {x : Daemon × Gone} (h : CleanupOk x) {s : CString} {e : Endpoint}
    (hgone : (s, e) ∈ x.2) (hpending : ¬ IsPending x.1 s e) :
    ¬ HoldsLocal x.1.data s e ∧ ¬ HoldsRemote x.1.data s e := by
  obtain ⟨hlocal, hremote, _⟩ := h.cleaned.holdsNone s e hgone hpending
  exact ⟨hlocal, hremote⟩

theorem CleanupOk.listening_of_pending {x : Daemon × Gone} (h : CleanupOk x) {s : CString}
    {t : TransportInfo} (ht : t ∈ x.1.pending s) : x.1.data.listening s = true := by
  by_contra hl
  rw [h.listening s (Bool.not_eq_true _ ▸ hl)] at ht
  cases ht

theorem update_pending (x : Daemon) (d' : Data) (s : CString) :
    (x.update d').pending s = if d'.listening s then x.pending s else [] := rfl

theorem mem_update_pending {x : Daemon} {s : CString} {t : TransportInfo} :
    t ∈ (x.update d').pending s ↔ d'.listening s = true ∧ t ∈ x.pending s := by
  rw [update_pending]
  split
  · next hl => simp [hl]
  · next hl => simp [hl]

end

theorem daemonStep_data {x : Daemon} {op : Op} {d' : Data} {o : List RemoteSync}
    (h : dataStep x.data op = some (d', o)) :
    daemonStep x (.data op) = some (x.update d', o) := by
  simp only [daemonStep, h]

/-- The state after the oldest event of a service. -/
theorem daemonStep_event {x : Daemon} {service : CString} {t info : TransportInfo}
    {rest : List TransportInfo} (hq : x.pending service = t :: rest)
    (hcopy : transportInfoCopy t = some info) :
    daemonStep x (.slEventProcess service) = some
      (⟨(dataRemoveSubscriber x.data service info).1,
        fun s => if (dataRemoveSubscriber x.data service info).1.listening s then
          if s = service then rest else x.pending s else [],
        x.undefined || readsFreedKey x.data service info⟩,
      (dataRemoveSubscriber x.data service info).2) := by
  simp only [daemonStep, hq, hcopy, Daemon.update]

theorem cleanupOk_data {x : Daemon × Gone} {x' : Daemon} {op : Op} {o : List RemoteSync}
    (h : CleanupOk x) (hc : NothingMissed x (.data op))
    (hs : daemonStep x.1 (.data op) = some (x', o)) :
    CleanupOk (x', goneStep x.2 (.data op)) := by
  obtain ⟨d', o', hd, hc⟩ := hc
  rw [daemonStep_data hd] at hs
  obtain ⟨rfl, _⟩ := Prod.mk.inj (Option.some.inj hs)
  have heffect := dataStep_request h.names hd
  refine ⟨heffect.names, fun s hl => ?_, fun s t ht => ?_,
    cleanedUp_of_holdsNone h.cleaned.defined fun s e hgone hpending => ?_⟩
  · rw [update_pending, if_neg]
    exact Bool.not_eq_true _ ▸ hl
  · exact h.copied s t (mem_update_pending.mp ht).2
  · obtain ⟨hgone, hnew⟩ := List.mem_filter.mp hgone
    have hnew : (s, e) ∉ op.subscribed := by simpa using hnew
    have hlocal : HoldsLocal d' s e → HoldsLocal x.1.data s e :=
      fun hh => (heffect.holdsLocal s e hh).resolve_right hnew
    have hremote : HoldsRemote d' s e → HoldsRemote x.1.data s e :=
      fun hh => (heffect.holdsRemote s e hh).resolve_right hnew
    by_cases hp : IsPending x.1 s e
    · -- the event was lost with the entry
      obtain ⟨t, ht, he⟩ := hp
      have hstopped : d'.listening s = false := by
        by_contra hl
        exact hpending ⟨t, mem_update_pending.mpr ⟨Bool.not_eq_false _ ▸ hl, ht⟩, he⟩
      have hun : Unlistens x.1.data d' s := ⟨h.listening_of_pending ht, hstopped⟩
      refine ⟨not_holdsLocal_of_not_listening hstopped e, fun hheld => ?_⟩
      obtain ⟨hheld, hkept⟩ := ((heffect.unlistens s hun).2 e).mp hheld
      exact hkept (hc s hun e hgone ⟨t, ht, he⟩ hheld)
    · obtain ⟨hl, hr⟩ := h.holdsNone hgone hp
      exact ⟨mt hlocal hl, mt hremote hr⟩

theorem cleanupOk_serverRemoved {x : Daemon × Gone} {x' : Daemon} {service : CString}
    {t : TransportInfo} {o : List RemoteSync} (h : CleanupOk x)
    (hc : NothingMissed x (.serverRemoved service t))
    (hs : daemonStep x.1 (.serverRemoved service t) = some (x', o)) :
    CleanupOk (x', goneStep x.2 (.serverRemoved service t)) := by
  obtain ⟨rfl, _⟩ := Prod.mk.inj (Option.some.inj hs)
  rcases hc with ⟨hl, hsome⟩ | ⟨hl, hnone⟩
  · rw [if_pos hl]
    obtain ⟨transport, htransport⟩ := Option.isSome_iff_exists.mp hsome
    refine ⟨h.names, fun s hs => ?_, fun s t' ht' => ?_,
      cleanedUp_of_holdsNone ?_ fun s e hgone hpending => ?_⟩
    · have hne : s ≠ service := by
        rintro rfl
        exact absurd hl (by simpa using hs)
      simpa [hne] using h.listening s hs
    · dsimp only at ht'
      split at ht'
      · rcases List.mem_append.mp ht' with hold | hnew
        · exact h.copied s t' hold
        · obtain rfl := List.mem_singleton.mp hnew
          exact ⟨_, by rw [transportInfoCopy, htransport]; rfl⟩
      · exact h.copied s t' ht'
    · simp [h.cleaned.defined, htransport]
    · have hp : ¬ IsPending x.1 s e := by
        rintro ⟨t', ht', rfl⟩
        refine hpending ⟨t', ?_, rfl⟩
        dsimp only
        split
        · exact List.mem_append_left _ ht'
        · exact ht'
      rcases List.mem_cons.mp hgone with hnew | hgone
      · obtain ⟨rfl, rfl⟩ := Prod.mk.inj hnew
        exact absurd ⟨t, by simp, rfl⟩ hpending
      · exact h.holdsNone hgone hp
  · rw [if_neg (by simp [hl])]
    refine ⟨h.names, h.listening, h.copied,
      cleanedUp_of_holdsNone h.cleaned.defined fun s e hgone hpending => ?_⟩
    rcases List.mem_cons.mp hgone with hnew | hgone
    · obtain ⟨rfl, rfl⟩ := Prod.mk.inj hnew
      exact ⟨not_holdsLocal_of_not_listening hl _, hnone⟩
    · exact h.holdsNone hgone hpending

/-- The key of an entry is read after it was freed exactly when an event destroys the
entry while there are remote subscriptions. -/
theorem readsFreedKey_eq_false_iff {d : Data} {service : CString} {info : TransportInfo} :
    readsFreedKey d service info = false ↔
      (Unlistens d (dataRemoveSubscriber d service info).1 service →
        d.remoteSubscriptionsList = []) := by
  unfold readsFreedKey Unlistens
  cases d.listening service <;>
    cases (dataRemoveSubscriber d service info).1.listening service <;>
    simp [List.isEmpty_iff]

theorem cleanupOk_slEventProcess {x : Daemon × Gone} {x' : Daemon} {service : CString}
    {o : List RemoteSync} (h : CleanupOk x) (hc : NothingMissed x (.slEventProcess service))
    (hs : daemonStep x.1 (.slEventProcess service) = some (x', o)) :
    CleanupOk (x', goneStep x.2 (.slEventProcess service)) := by
  cases hq : x.1.pending service with
  | nil =>
    simp only [daemonStep, hq, Option.some.injEq, Prod.mk.injEq] at hs
    obtain ⟨rfl, _⟩ := hs
    exact h
  | cons t rest =>
    have hpendingT : t ∈ x.1.pending service := by simp [hq]
    obtain ⟨info, hcopy⟩ := h.copied service t hpendingT
    rw [daemonStep_event hq hcopy] at hs
    obtain ⟨rfl, _⟩ := Prod.mk.inj (Option.some.inj hs)
    obtain ⟨hlost, hlast⟩ := hc t rest info hq hcopy
    have hfreed := readsFreedKey_eq_false_iff.mpr hlost
    have hremoved := subscriberRemoved h.names service info
    generalize (dataRemoveSubscriber x.1.data service info).1 = d' at hremoved hlost
    have hremote : ∀ {s e}, HoldsRemote d' s e → HoldsRemote x.1.data s e :=
      fun hh => ((hremoved.holdsRemote _ _).mp hh).1
    refine ⟨hremoved.names, fun s hl => ?_, fun s t' ht' => ?_,
      cleanedUp_of_holdsNone (by simp [h.cleaned.defined, hfreed]) fun s e hgone hpending => ?_⟩
    · dsimp only at hl ⊢
      rw [if_neg (by simp [hl])]
    · dsimp only at ht'
      split at ht'
      · split at ht'
        · next hs =>
          subst hs
          exact h.copied s t' (by simp [hq, ht'])
        · exact h.copied s t' ht'
      · cases ht'
    · -- nothing else was pending
      have hrest : ¬ IsPending x.1 s e → ¬ HoldsLocal d' s e ∧ ¬ HoldsRemote d' s e := fun hp =>
        ⟨mt (hremoved.holdsLocal s e) (h.holdsNone hgone hp).1, mt hremote (h.holdsNone hgone hp).2⟩
      by_cases hl : d'.listening s = true
      · have hqueue : ∀ t' ∈ x.1.pending s, (s = service → t' ∈ rest) → t'.endpoint ≠ e := by
          intro t' ht' hin he
          refine hpending ⟨t', ?_, he⟩
          dsimp only
          rw [if_pos hl]
          split
          · next hs => exact hin hs
          · exact ht'
        by_cases hlastEvent : s = service ∧ e = t.endpoint
        · obtain ⟨rfl, rfl⟩ := hlastEvent
          have hnone : ∀ t' ∈ rest, t'.endpoint ≠ t.endpoint := fun t' ht' =>
            hqueue t' (by simp [hq, ht']) fun _ => ht'
          have hgoneT := hlast hgone hnone
          split at hgoneT
          · next he =>
            rw [← he]
            refine ⟨fun hheld => ?_, fun hh => ((hremoved.holdsRemote _ _).mp hh).2 ⟨rfl, rfl⟩⟩
            obtain ⟨m, hm, hcount⟩ := hremoved.twice.mp hheld
            have := hgoneT m hm
            omega
          · exact ⟨mt (hremoved.holdsLocal _ _) hgoneT.1, mt hremote hgoneT.2⟩
        · refine hrest fun ⟨t', ht', he⟩ => hqueue t' ht' (fun hs => ?_) he
          subst hs
          rw [hq] at ht'
          rcases List.mem_cons.mp ht' with rfl | ht'
          · exact absurd ⟨rfl, he.symm⟩ hlastEvent
          · exact ht'
      · have hl : d'.listening s = false := Bool.not_eq_true _ ▸ hl
        refine ⟨not_holdsLocal_of_not_listening hl e, fun hheld => ?_⟩
        by_cases hs : s = service
        · subst hs
          obtain ⟨i, hi, _⟩ := hremote hheld
          rw [hlost ⟨h.listening_of_pending hpendingT, hl⟩] at hi
          cases hi
        · refine (hrest fun ⟨t', ht', _⟩ => ?_).2 hheld
          rw [h.listening s (hremoved.listening s hs ▸ hl)] at ht'
          cases ht'

theorem cleanupStep_eq_some {x x' : Daemon × Gone} {op : DaemonOp} {o : List RemoteSync} :
    cleanupStep x op = some (x', o) ↔
      ∃ y, daemonStep x.1 op = some (y, o) ∧ x' = (y, goneStep x.2 op) := by
  simp only [cleanupStep, Option.map_eq_some_iff, Prod.mk.injEq, Prod.exists]
  constructor
  · rintro ⟨y, _, hs, rfl, rfl⟩
    exact ⟨y, hs, rfl⟩
  · rintro ⟨y, hs, rfl⟩
    exact ⟨y, o, hs, rfl, rfl⟩

/-- A request that is not allowed does something undefined, or loses an event and
leaves the subscription that it was about. -/
theorem not_cleanedUp_data {x : Daemon × Gone} {op : Op} (h : CleanupOk x)
    (hc : ¬ NothingMissed x (.data op)) :
    ∃ x' o, cleanupStep x (.data op) = some (x', o) ∧ ¬ CleanedUp x' := by
  cases hd : dataStep x.1.data op with
  | none =>
    have hstep : daemonStep x.1 (.data op) = some ({ x.1 with undefined := true }, []) := by
      simp only [daemonStep, hd]
    refine ⟨_, _, cleanupStep_eq_some.mpr ⟨_, hstep, rfl⟩, fun hclean => ?_⟩
    cases hclean.defined
  | some r =>
    obtain ⟨d', o⟩ := r
    simp only [NothingMissed, hd, Option.some.injEq, Prod.mk.injEq, not_exists, not_and] at hc
    have hc := hc d' o ⟨rfl, rfl⟩
    simp only [not_forall] at hc
    obtain ⟨s, hun, e, hgone, hpending, hheld, hkept⟩ := hc
    obtain ⟨hnone, hremote⟩ := (dataStep_request h.names hd).unlistens s hun
    refine ⟨_, o, cleanupStep_eq_some.mpr ⟨_, daemonStep_data hd, rfl⟩, fun hclean => ?_⟩
    have hgone' : (s, e) ∈ goneStep x.2 (.data op) := by simp [goneStep, hnone, hgone]
    refine (hclean.holdsNone s e hgone' fun ⟨t, ht, _⟩ => ?_).2.1 ((hremote e).mpr ⟨hheld, hkept⟩)
    have hstopped := (mem_update_pending.mp ht).1
    rw [hun.2] at hstopped
    cases hstopped

/-- A removal that is not heard of, or whose event cannot be made. -/
theorem not_cleanedUp_serverRemoved {x : Daemon × Gone} {service : CString} {t : TransportInfo}
    (h : CleanupOk x) (hc : ¬ NothingMissed x (.serverRemoved service t)) :
    ∃ x' o, cleanupStep x (.serverRemoved service t) = some (x', o) ∧ ¬ CleanedUp x' := by
  refine ⟨_, _, cleanupStep_eq_some.mpr ⟨_, rfl, rfl⟩, fun hclean => ?_⟩
  obtain ⟨hlisten, hunheard⟩ := not_or.mp hc
  cases hl : x.1.data.listening service with
  | true =>
    rw [if_pos hl] at hclean
    have hnone : (transportInfoToTransport t).isNone = true := by
      simpa [hl] using hlisten
    have hdefined := hclean.defined
    simp [hnone] at hdefined
  | false =>
    rw [if_neg (by simp [hl])] at hclean
    have hheld : HoldsRemote x.1.data service t.endpoint := by
      simpa [hl] using hunheard
    refine (hclean.holdsNone service t.endpoint (List.mem_cons_self ..)
      fun ⟨t', ht', _⟩ => ?_).2.1 hheld
    change t' ∈ x.1.pending service at ht'
    rw [h.listening service hl] at ht'
    cases ht'

/-- An event that is not allowed destroys the entry whose key is still read, or is the
last one about a subscriber that stays. -/
theorem not_cleanedUp_slEventProcess {x : Daemon × Gone} {service : CString} (h : CleanupOk x)
    (hc : ¬ NothingMissed x (.slEventProcess service)) :
    ∃ x' o, cleanupStep x (.slEventProcess service) = some (x', o) ∧ ¬ CleanedUp x' := by
  simp only [NothingMissed, not_forall] at hc
  obtain ⟨t, rest, info, hq, hcopy, hc⟩ := hc
  refine ⟨_, _, cleanupStep_eq_some.mpr ⟨_, daemonStep_event hq hcopy, rfl⟩, fun hclean => ?_⟩
  have hremoved := subscriberRemoved h.names service info
  have hfreed : readsFreedKey x.1.data service info = false :=
    (Bool.or_eq_false_iff.mp hclean.defined).2
  refine hc ⟨readsFreedKey_eq_false_iff.mp hfreed, fun hgone hnone => ?_⟩
  clear hfreed hc
  generalize (dataRemoveSubscriber x.1.data service info).1 = d' at hremoved hclean
  obtain ⟨hlocal, hremote, _⟩ := hclean.holdsNone service t.endpoint hgone (by
    rintro ⟨t', ht', he⟩
    dsimp only at ht'
    split at ht'
    · rw [if_pos rfl] at ht'
      exact hnone t' ht' he
    · cases ht')
  split
  · next he =>
    intro m hm
    by_contra hcount
    exact hlocal (he ▸ hremoved.twice.mpr ⟨m, hm, Nat.lt_of_not_le hcount⟩)
  · next hne =>
    have hother : ¬ (service = service ∧ t.endpoint = info.endpoint) := fun hh => hne hh.2.symm
    exact ⟨mt (hremoved.others _ _ hother) hlocal,
      fun hheld => hremote ((hremoved.holdsRemote _ _).mpr ⟨hheld, hother⟩)⟩

/-- A step that is not allowed does something undefined, or leaves a subscription of a
subscriber that is gone behind, without an event about it. -/
theorem not_cleanedUp {x : Daemon × Gone} {op : DaemonOp} (h : CleanupOk x)
    (hc : ¬ NothingMissed x op) :
    ∃ x' o, cleanupStep x op = some (x', o) ∧ ¬ CleanedUp x' := by
  cases op with
  | data op => exact not_cleanedUp_data h hc
  | serverRemoved service t => exact not_cleanedUp_serverRemoved h hc
  | slEventProcess service => exact not_cleanedUp_slEventProcess h hc

def daemonInit : Daemon × Gone := (⟨dataInit, fun _ => [], false⟩, [])

theorem cleanupOk_init : CleanupOk daemonInit where
  names _ := namesUnique_nil
  listening _ _ := rfl
  copied _ _ ht := by cases ht
  cleaned := cleanedUp_of_holdsNone rfl fun _ _ hgone => by cases hgone

/-- A local and a remote subscription of one subscriber: the event of its removal
destroys the entry, and the remote subscription is compared with the freed key. -/
example :
    let info : SubscriptionInfo := ⟨[0x73], ⟨false, .unixInfo [0x61]⟩, [0x6d], none⟩
    (exec cleanupStep daemonInit [.data (.addSubscription info),
      .data (.addSubscription { info with remoteAddr := some 1 }),
      .serverRemoved [0x73] info.transportInfo,
      .slEventProcess [0x73]]).map (·.1.1.undefined) = some true := by decide

end Cmsg.Psd
