import Cmsg.Psd.Updates

/-! # A publisher follows the daemon

From the updates of one service entry to whole runs of the daemon. A publisher
is told from the others by the id of its client; as long as a client with that
id is among the children of the service, the snapshot followed by what was sent
on it gives a table that agrees with the daemon. -/
namespace Cmsg.Psd
open Cmsg.Base Cmsg.Base.Runs

variable {κ : Type} {D : TransportInfo → Prop} {key : TransportInfo → κ}

/-! ## One operation on the subscriptions -/

def NoEmptyMethods (entry : ServiceDataEntry) : Prop := ∀ m ∈ entry.methods, m.transports ≠ []

/-- The entry was destroyed, or follows from the one before. -/
def EntryStep (D : TransportInfo → Prop) (key : TransportInfo → κ)
    (e e' : ServiceDataEntry) : Prop :=
  e' = ⟨[], []⟩ ∨ (Follows D key e e' ∧ NoEmptyMethods e')

structure EntriesOk (D : TransportInfo → Prop) (d : Data) : Prop where
  entry : ∀ s, EntryOk D (getServiceEntryOrCreate d s)
  noEmpty : ∀ s, NoEmptyMethods (getServiceEntryOrCreate d s)

/-- What an operation on the subscriptions does to the daemon. -/
structure DataFollows (D : TransportInfo → Prop) (key : TransportInfo → κ) (d d' : Data) :
    Prop where
  nextClient : d'.nextClient = d.nextClient
  entry : ∀ s, EntryStep D key (getServiceEntryOrCreate d s) (getServiceEntryOrCreate d' s)

theorem getServiceEntryOrCreate_of_lookup {d : Data} {s : CString} {e : ServiceDataEntry}
    (h : d.localSubscriptionsTable.lookup s = some e) : getServiceEntryOrCreate d s = e := by
  rw [getServiceEntryOrCreate, h]
  rfl

theorem getServiceEntryOrCreate_setService (d : Data) (s : CString) (e : ServiceDataEntry)
    (j : CString) : getServiceEntryOrCreate (d.setService s e) j =
      if j = s then e else getServiceEntryOrCreate d j := by
  unfold getServiceEntryOrCreate Data.setService
  by_cases hj : j = s
  · simp [hj]
  · simp [hj]

theorem getServiceEntryOrCreate_destroyService (d : Data) (s j : CString) :
    getServiceEntryOrCreate (d.destroyService s) j =
      if j = s then ⟨[], []⟩ else getServiceEntryOrCreate d j := by
  unfold getServiceEntryOrCreate Data.destroyService
  by_cases hj : j = s
  · simp [hj]
  · simp [hj]

theorem entryOk_nil : EntryOk D ⟨[], []⟩ where
  names := List.nodup_nil
  transports _ _ h := by cases h

theorem EntriesOk.refl {d : Data} (h : EntriesOk D d) (s : CString) :
    EntryStep D key (getServiceEntryOrCreate d s) (getServiceEntryOrCreate d s) :=
  .inr ⟨.refl (h.entry s), h.noEmpty s⟩

theorem EntriesOk.setService {d : Data} (h : EntriesOk D d) {s : CString} {e' : ServiceDataEntry}
    (he : EntryStep D key (getServiceEntryOrCreate d s) e') :
    DataFollows D key d (d.setService s e') where
  nextClient := rfl
  entry j := by
    rw [getServiceEntryOrCreate_setService]
    split
    · next hj => exact hj ▸ he
    · exact h.refl j

theorem EntriesOk.destroyService {d : Data} (h : EntriesOk D d) (s : CString) :
    DataFollows D key d (d.destroyService s) where
  nextClient := rfl
  entry j := by
    rw [getServiceEntryOrCreate_destroyService]
    split
    · exact .inl rfl
    · exact h.refl j

/-- The methods of an entry after one of them got new transports. -/
theorem mem_setTransports {e : ServiceDataEntry} (hu : e.NamesUnique) {name : CString}
    {transports : List TransportInfo} {m : MethodDataEntry}
    (hm : m ∈ (e.setTransports name transports).methods) :
    (m.methodName = name ∧ m.transports = transports) ∨ (m.methodName ≠ name ∧ m ∈ e.methods) := by
  by_cases hname : m.methodName = name
  · have hfound := method?_of_mem (namesUnique_setTransports hu name transports) hm
    rw [hname, method?_setTransports] at hfound
    obtain ⟨a, _, rfl⟩ := Option.map_eq_some_iff.mp hfound
    exact .inl ⟨hname, rfl⟩
  · rcases List.mem_modifyFirst hm with hmem | ⟨a, _, ha, rfl⟩
    · exact .inr ⟨hname, hmem⟩
    · exact absurd (beq_iff_eq.mp ha) hname

/-- The entry found under a name is the only one with it. -/
theorem forgotten_name {e : ServiceDataEntry} (hu : e.NamesUnique) {name : CString}
    {m : MethodDataEntry} (hm : m ∈ e.methods.eraseP fun m => m.methodName == name) :
    m.methodName ≠ name := by
  have hnames : m.methodName ∈ (e.methods.map (·.methodName)).erase name := by
    have herase : (e.methods.eraseP fun m => m.methodName == name).map (·.methodName) =
        (e.methods.map (·.methodName)).erase name :=
      List.map_eraseP_eq_erase fun _ _ => beq_iff_eq
    rw [← herase]
    exact List.mem_map_of_mem hm
  exact ((List.Nodup.mem_erase_iff hu).mp hnames).1

/-- A method that gets a subscriber is not empty, and the others are as they were. -/
theorem noEmptyMethods_addTransport {e : ServiceDataEntry} {name : CString}
    (hu : (getMethodEntryOrCreate e name).NamesUnique) (he : NoEmptyMethods e)
    (t : TransportInfo) (transports : List TransportInfo) :
    NoEmptyMethods ((getMethodEntryOrCreate e name).setTransports name (t :: transports)) := by
  intro m hmem
  rcases mem_setTransports hu hmem with ⟨_, htransports⟩ | ⟨hname, hmem⟩
  · rw [htransports]
    exact List.cons_ne_nil _ _
  · unfold getMethodEntryOrCreate at hmem
    split at hmem
    · exact he m hmem
    · rcases List.mem_cons.mp hmem with rfl | hmem
      · exact absurd rfl hname
      · exact he m hmem

section
variable {e : ServiceDataEntry} {name : CString} {method m : MethodDataEntry} {info : TransportInfo}

/-- The other methods are as they were. -/
theorem other_removeTransport (hm : e.method? name = some method) (he : NoEmptyMethods e)
    (hu : (dataRemoveTransportFromMethod e method info).NamesUnique)
    (hmem : m ∈ (dataRemoveTransportFromMethod e method info).methods) (hne : m.methodName ≠ name) :
    m.transports ≠ [] := by
  have hfound := method?_of_mem hu hmem
  rw [removeTransport_method?_of_ne (method?_name hm ▸ hne)] at hfound
  exact he m (List.mem_of_find?_eq_some hfound)

theorem noEmptyMethods_removeTransport (hm : e.method? name = some method) (he : NoEmptyMethods e)
    (hu : (dataRemoveTransportFromMethod e method info).NamesUnique)
    (hleft : (method.transports.eraseP (transportInfoCompare · info)).length ≠ 0) :
    NoEmptyMethods (dataRemoveTransportFromMethod e method info) := by
  intro m hmem
  by_cases hne : m.methodName = name
  · have hfound := method?_of_mem hu hmem
    rw [hne, removeTransport_method? hm info] at hfound
    obtain rfl := Option.some.inj hfound
    exact mt List.length_eq_zero_iff.mpr hleft
  · exact other_removeTransport hm he hu hmem hne

end

theorem addLocalSubscription_follows (hk : KeyOn D key) {d d' : Data} (h : EntriesOk D d)
    {info : SubscriptionInfo} (hD : D info.transportInfo)
    (hs : dataAddLocalSubscription d info = some d') : DataFollows D key d d' := by
  have hok := h.entry info.service
  obtain ⟨copy, hcopy, rfl⟩ := Option.map_eq_some_iff.mp hs
  obtain rfl : info.transportInfo = copy := Option.some.inj ((hk.copy _ hD).symm.trans hcopy)
  obtain ⟨hu, _, ht⟩ := getMethodEntryOrCreate_spec hok.names info.methodName
  have hfollows := follows_addTransport hk hok info.methodName hD
  rw [← ht] at hfollows
  exact h.setService
    (.inr ⟨hfollows, noEmptyMethods_addTransport hu (h.noEmpty info.service) _ _⟩)

theorem removeLocalSubscription_follows (hk : KeyOn D key) {d : Data} (h : EntriesOk D d)
    {info : SubscriptionInfo} (hD : D info.transportInfo) :
    DataFollows D key d (dataRemoveLocalSubscription d info) := by
  unfold dataRemoveLocalSubscription
  cases hl : d.localSubscriptionsTable.lookup info.service with
  | none => exact ⟨rfl, h.refl⟩
  | some e =>
    have hok := h.entry info.service
    have hne := h.noEmpty info.service
    have hget := getServiceEntryOrCreate_of_lookup hl
    rw [hget] at hok hne
    cases hm : e.method? info.methodName with
    | none =>
      simp only [hm]
      exact ⟨rfl, h.refl⟩
    | some method =>
      have hname := method?_name hm
      have hfollows := follows_removeTransport hk hok (hname ▸ hm) hD
      have hafter := removeTransport_method? hm info.transportInfo
      simp only [hm, hafter, Option.map_some, Option.getD_some]
      split
      · next h0 =>
        split
        · exact h.destroyService info.service
        · refine h.setService (.inr ⟨hget ▸ hfollows.trans (follows_forgetMethod hfollows.ok ?_),
            fun m hmem => other_removeTransport hm hne hfollows.ok.names
              (List.mem_of_mem_eraseP hmem) (forgotten_name hfollows.ok.names hmem)⟩)
          rw [transportsOf_of_method? hafter]
          exact List.length_eq_zero_iff.mp h0
      · next h0 =>
        exact h.setService
          (.inr ⟨hget ▸ hfollows, noEmptyMethods_removeTransport hm hne hfollows.ok.names h0⟩)

theorem removeSubscriber_follows (hk : KeyOn D key) {d : Data} (h : EntriesOk D d)
    (service : CString) {info : TransportInfo} (hD : D info) :
    DataFollows D key d (dataRemoveSubscriber d service info).1 := by
  unfold dataRemoveSubscriber
  cases hl : d.localSubscriptionsTable.lookup service with
  | none => exact ⟨rfl, h.refl⟩
  | some e =>
    have hok := h.entry service
    have hget := getServiceEntryOrCreate_of_lookup hl
    rw [hget] at hok
    have hfollows := follows_foldl_removeTransport hk hD e.methods hok hok.names
      fun _ => method?_of_mem hok.names
    dsimp only
    split
    · exact ⟨rfl, (h.destroyService service).entry⟩
    · exact ⟨rfl, (h.setService (.inr ⟨hget ▸ hfollows.trans (follows_prune hfollows.ok),
        prune_nonempty _⟩)).entry⟩

theorem removeForAddr_follows (hk : KeyOn D key) {d : Data} (h : EntriesOk D d) (addr : UInt32) :
    DataFollows D key d (dataRemoveLocalSubscriptionsForAddr d addr) := by
  refine ⟨rfl, fun s => ?_⟩
  have hlookup : (dataRemoveLocalSubscriptionsForAddr d addr).localSubscriptionsTable.lookup s =
      ((d.localSubscriptionsTable.lookup s).map fun e => dataRemoveLocalEntriesForAddr e addr).filter
        fun e => !dataRemoveEmptyServices e := rfl
  cases hl : d.localSubscriptionsTable.lookup s with
  | none =>
    refine .inl ?_
    rw [getServiceEntryOrCreate, hlookup, hl]
    rfl
  | some e =>
    by_cases hempty : dataRemoveEmptyServices (dataRemoveLocalEntriesForAddr e addr) = true
    · refine .inl ?_
      rw [getServiceEntryOrCreate, hlookup, hl]
      simp [Option.filter, hempty]
    · have hget : getServiceEntryOrCreate (dataRemoveLocalSubscriptionsForAddr d addr) s =
          dataRemoveLocalEntriesForAddr e addr := by
        rw [getServiceEntryOrCreate, hlookup, hl]
        simp [Option.filter, hempty]
      rw [hget, getServiceEntryOrCreate_of_lookup hl]
      have hok := h.entry s
      rw [getServiceEntryOrCreate_of_lookup hl] at hok
      refine .inr ⟨follows_removeForAddr hk hok addr, ?_⟩
      unfold dataRemoveLocalEntriesForAddr
      dsimp only
      split
      · exact prune_nonempty _
      · exact prune_nonempty _

/-! ## One operation on the publishers -/

/-- What registering and deregistering a publisher does to the daemon. -/
structure PublishersChange (d d' : Data) : Prop where
  nextClient : d.nextClient ≤ d'.nextClient
  methods : ∀ s, (getServiceEntryOrCreate d' s).methods = (getServiceEntryOrCreate d s).methods
  children : ∀ s, ∀ c ∈ (getServiceEntryOrCreate d' s).children,
    c ∈ (getServiceEntryOrCreate d s).children ∨ (d.nextClient ≤ c.id ∧ c.id < d'.nextClient)

theorem addPublisher_spec {d d' : Data} {service : CString} {transportInfo : TransportInfo}
    (h : dataAddPublisher d service transportInfo = some d') :
    d'.nextClient = d.nextClient + 1 ∧ ∃ transport, ∀ s, getServiceEntryOrCreate d' s =
      if s = service then { getServiceEntryOrCreate d service with
          children := ⟨d.nextClient, transport, []⟩ :: (getServiceEntryOrCreate d service).children }
        else getServiceEntryOrCreate d s := by
  obtain ⟨transport, _, rfl⟩ := Option.map_eq_some_iff.mp h
  exact ⟨rfl, transport, getServiceEntryOrCreate_setService d service _⟩

theorem addPublisher_change {d d' : Data} {service : CString} {transportInfo : TransportInfo}
    (h : dataAddPublisher d service transportInfo = some d') : PublishersChange d d' := by
  obtain ⟨hnext, transport, hget⟩ := addPublisher_spec h
  refine ⟨by omega, fun s => ?_, fun s c hc => ?_⟩
  · rw [hget]
    split
    · next hs => rw [hs]
    · rfl
  · rw [hget] at hc
    split at hc
    · next hs =>
      rcases List.mem_cons.mp hc with rfl | hc
      · exact .inr ⟨Nat.le_refl _, hnext ▸ Nat.lt_succ_self _⟩
      · exact .inl (hs ▸ hc)
    · exact .inl hc

theorem removePublisher_change {d d' : Data} {service : CString} {transportInfo : TransportInfo}
    (h : dataRemovePublisher d service transportInfo = some d') : PublishersChange d d' := by
  unfold dataRemovePublisher at h
  cases hl : d.localSubscriptionsTable.lookup service with
  | none =>
    simp only [hl, Option.some.injEq] at h
    subst h
    exact ⟨Nat.le_refl _, fun _ => rfl, fun _ _ hc => .inl hc⟩
  | some e =>
    simp only [hl] at h
    obtain ⟨transport, _, rfl⟩ := Option.map_eq_some_iff.mp h
    refine ⟨Nat.le_refl _, fun s => ?_, fun s c hc => ?_⟩
    · rw [getServiceEntryOrCreate_setService]
      split
      · next hs => rw [hs, getServiceEntryOrCreate_of_lookup hl]
      · rfl
    · rw [getServiceEntryOrCreate_setService] at hc
      split at hc
      · next hs =>
        rw [hs, getServiceEntryOrCreate_of_lookup hl]
        exact .inl (List.mem_of_mem_eraseP hc)
      · exact .inl hc

/-! ## Runs -/

/-- The transports that an operation subscribes or unsubscribes. -/
def Op.transports : Op → List TransportInfo
  | .addSubscription info | .removeSubscription info => [info.transportInfo]
  | .addLocalSubscription info | .removeLocalSubscription info => [info.transportInfo]
  | .removeSubscriber _ transportInfo => [transportInfo]
  | _ => []

theorem dataStep_follows (hk : KeyOn D key) {d d' : Data} {op : Op} {o : List RemoteSync}
    (h : EntriesOk D d) (hop : ∀ t ∈ op.transports, D t) (hs : dataStep d op = some (d', o)) :
    DataFollows D key d d' ∨ PublishersChange d d' := by
  have remote : ∀ {d' : Data}, d'.localSubscriptionsTable = d.localSubscriptionsTable →
      d'.nextClient = d.nextClient → DataFollows D key d d' := by
    intro d' ht hn
    refine ⟨hn, fun s => ?_⟩
    have : getServiceEntryOrCreate d' s = getServiceEntryOrCreate d s := by
      rw [getServiceEntryOrCreate, getServiceEntryOrCreate, ht]
    rw [this]
    exact h.refl s
  cases op with
  | addSubscription info =>
    refine .inl ?_
    simp only [dataStep, dataAddSubscription] at hs
    split at hs
    · obtain ⟨rfl, _⟩ := Prod.mk.inj (Option.some.inj hs)
      exact remote rfl rfl
    · obtain ⟨d₁, ha, he⟩ := Option.map_eq_some_iff.mp hs
      obtain ⟨rfl, _⟩ := Prod.mk.inj he
      exact addLocalSubscription_follows hk h (hop _ (by simp [Op.transports])) ha
  | removeSubscription info =>
    refine .inl ?_
    have hx := congrArg Prod.fst (Option.some.inj hs)
    simp only [dataRemoveSubscription] at hx
    split at hx
    · rw [← hx]
      unfold dataRemoveRemoteSubscription
      split
      · exact remote rfl rfl
      · exact remote rfl rfl
    · rw [← hx]
      exact removeLocalSubscription_follows hk h (hop _ (by simp [Op.transports]))
  | addLocalSubscription info =>
    obtain ⟨d₁, ha, he⟩ := Option.map_eq_some_iff.mp hs
    obtain ⟨rfl, _⟩ := Prod.mk.inj he
    exact .inl (addLocalSubscription_follows hk h (hop _ (by simp [Op.transports])) ha)
  | removeLocalSubscription info =>
    obtain ⟨rfl, _⟩ := Prod.mk.inj (Option.some.inj hs)
    exact .inl (removeLocalSubscription_follows hk h (hop _ (by simp [Op.transports])))
  | removeSubscriber service transportInfo =>
    have hx : (dataRemoveSubscriber d service transportInfo).1 = d' :=
      congrArg Prod.fst (Option.some.inj hs)
    rw [← hx]
    exact .inl (removeSubscriber_follows hk h service (hop _ (by simp [Op.transports])))
  | removeLocalSubscriptionsForAddr addr =>
    obtain ⟨rfl, _⟩ := Prod.mk.inj (Option.some.inj hs)
    exact .inl (removeForAddr_follows hk h addr)
  | addPublisher service transportInfo =>
    obtain ⟨d₁, ha, he⟩ := Option.map_eq_some_iff.mp hs
    obtain ⟨rfl, _⟩ := Prod.mk.inj he
    exact .inr (addPublisher_change ha)
  | removePublisher service transportInfo =>
    obtain ⟨d₁, ha, he⟩ := Option.map_eq_some_iff.mp hs
    obtain ⟨rfl, _⟩ := Prod.mk.inj he
    exact .inr (removePublisher_change ha)

/-- Well-formed entries, whose children were all made by now. -/
structure DaemonOk (D : TransportInfo → Prop) (d : Data) : Prop extends EntriesOk D d where
  ids : ∀ s, ∀ c ∈ (getServiceEntryOrCreate d s).children, c.id < d.nextClient

/-- A client to the publisher with this id, if it is still a child, was sent
what takes the publisher from its snapshot to the daemon's transports. -/
def Tracks (D : TransportInfo → Prop) (key : TransportInfo → κ) (service : CString) (id : Nat)
    (snapshot : List MethodDataEntry) (d : Data) : Prop :=
  ∀ c ∈ (getServiceEntryOrCreate d service).children, c.id = id →
    ∃ table, (publisherInitSubscribers snapshot).bind (publisherProcess · c.sent) = some table ∧
      Agrees D key table (getServiceEntryOrCreate d service).transportsOf

theorem transportsOf_of_methods {e e' : ServiceDataEntry} (h : e'.methods = e.methods) :
    e'.transportsOf = e.transportsOf := by
  funext m
  rw [ServiceDataEntry.transportsOf, ServiceDataEntry.transportsOf, ServiceDataEntry.method?,
    ServiceDataEntry.method?, h]

theorem daemonOk_init : DaemonOk D dataInit where
  entry _ := entryOk_nil
  noEmpty _ _ h := by cases h
  ids _ _ h := by cases h

theorem daemonOk_step (hk : KeyOn D key) {d d' : Data} {op : Op} {o : List RemoteSync}
    (h : DaemonOk D d) (hop : ∀ t ∈ op.transports, D t) (hs : dataStep d op = some (d', o)) :
    DaemonOk D d' := by
  rcases dataStep_follows hk h.toEntriesOk hop hs with hf | hp
  · refine ⟨⟨fun s => ?_, fun s => ?_⟩, fun s c hc => ?_⟩
    · rcases hf.entry s with he | ⟨he, _⟩
      · exact he ▸ entryOk_nil
      · exact he.ok
    · rcases hf.entry s with he | ⟨_, he⟩
      · rw [he]
        exact fun _ hm => by cases hm
      · exact he
    · rcases hf.entry s with he | ⟨he, _⟩
      · rw [he] at hc
        cases hc
      · obtain ⟨us, hchildren, _⟩ := he.sent
        rw [hchildren] at hc
        obtain ⟨c', hc', rfl⟩ := List.mem_map.mp hc
        rw [hf.nextClient]
        exact h.ids s c' hc'
  · refine ⟨⟨fun s => ?_, fun s => ?_⟩, fun s c hc => ?_⟩
    · have hok := h.entry s
      refine ⟨?_, ?_⟩
      · rw [ServiceDataEntry.NamesUnique, hp.methods]
        exact hok.names
      · rw [transportsOf_of_methods (hp.methods s)]
        exact hok.transports
    · rw [NoEmptyMethods, hp.methods]
      exact h.noEmpty s
    · rcases hp.children s c hc with hc | ⟨_, hc⟩
      · exact Nat.lt_of_lt_of_le (h.ids s c hc) hp.nextClient
      · exact hc

theorem tracks_step (hk : KeyOn D key) {d d' : Data} {op : Op} {o : List RemoteSync}
    {service : CString} {id : Nat} {snapshot : List MethodDataEntry} (h : DaemonOk D d)
    (hid : id < d.nextClient) (ht : Tracks D key service id snapshot d)
    (hop : ∀ t ∈ op.transports, D t) (hs : dataStep d op = some (d', o)) :
    id < d'.nextClient ∧ Tracks D key service id snapshot d' := by
  rcases dataStep_follows hk h.toEntriesOk hop hs with hf | hp
  · refine ⟨hf.nextClient ▸ hid, fun c hc hcid => ?_⟩
    rcases hf.entry service with he | ⟨he, _⟩
    · rw [he] at hc
      cases hc
    · obtain ⟨us, hchildren, hagrees⟩ := he.sent
      rw [hchildren] at hc
      obtain ⟨c', hc', rfl⟩ := List.mem_map.mp hc
      obtain ⟨table, htable, ha⟩ := ht c' hc' hcid
      obtain ⟨table', htable', ha'⟩ := hagrees table ha
      refine ⟨table', ?_, ha'⟩
      obtain ⟨table₀, hinit, hprocess⟩ := Option.bind_eq_some_iff.mp htable
      rw [hinit, Option.bind_some, publisherProcess_append, hprocess]
      exact htable'
  · refine ⟨Nat.lt_of_lt_of_le hid hp.nextClient, fun c hc hcid => ?_⟩
    rcases hp.children service c hc with hc | ⟨hge, _⟩
    · obtain ⟨table, htable, ha⟩ := ht c hc hcid
      exact ⟨table, htable, transportsOf_of_methods (hp.methods service) ▸ ha⟩
    · omega

theorem subscriptionInfoForService_eq (d : Data) (service : CString) :
    dataGetSubscriptionInfoForService d service = (getServiceEntryOrCreate d service).methods := by
  unfold dataGetSubscriptionInfoForService getServiceEntryOrCreate
  cases d.localSubscriptionsTable.lookup service <;> rfl

/-- The state right after the publisher registered. -/
theorem tracks_register (hk : KeyOn D key) {d d' : Data} {service : CString}
    {transportInfo : TransportInfo} (h : DaemonOk D d)
    (hs : dataAddPublisher d service transportInfo = some d') :
    DaemonOk D d' ∧ d.nextClient < d'.nextClient ∧
      Tracks D key service d.nextClient (dataGetSubscriptionInfoForService d' service) d' := by
  have hstep : dataStep d (.addPublisher service transportInfo) = some (d', []) := by
    rw [dataStep, hs]
    rfl
  have hok' : DaemonOk D d' := daemonOk_step hk h (fun t ht => by cases ht) hstep
  obtain ⟨hnext, transport, hget⟩ := addPublisher_spec hs
  refine ⟨hok', by omega, fun c hc hcid => ?_⟩
  rw [hget, if_pos rfl] at hc
  rcases List.mem_cons.mp hc with rfl | hold
  · obtain ⟨table, htable, ha⟩ := initSubscribers_agrees hk (hok'.entry service)
    refine ⟨table, ?_, ha⟩
    rw [subscriptionInfoForService_eq, htable]
    rfl
  · exact absurd (h.ids service c hold) (by omega)

/-- The table that the publisher ends with, for one way to tell transports apart. -/
theorem exists_agreeing_table (hk : KeyOn D key) {before after : List Op} {d₁ d₂ d : Data}
    {o₁ o : List RemoteSync} {service : CString} {publisher : TransportInfo} {client : UpdateClient}
    (hD : ∀ op ∈ before ++ after, ∀ t ∈ op.transports, D t)
    (hbefore : exec dataStep dataInit before = some (d₁, o₁))
    (hregister : dataAddPublisher d₁ service publisher = some d₂)
    (hafter : exec dataStep d₂ after = some (d, o))
    (hclient : client ∈ (getServiceEntryOrCreate d service).children)
    (hid : client.id = d₁.nextClient) :
    DaemonOk D d ∧ ∃ table,
      (publisherInitSubscribers (dataGetSubscriptionInfoForService d₂ service)).bind
          (publisherProcess · client.sent) = some table ∧
        Agrees D key table (getServiceEntryOrCreate d service).transportsOf := by
  have h₁ : DaemonOk D d₁ :=
    exec_invariant_guarded (C := fun _ op => ∀ t ∈ op.transports, D t)
      (fun _ _ _ _ hok hop hs => daemonOk_step hk hok hop hs) daemonOk_init
      (guarded_of_forall fun op hop _ => hD op (List.mem_append_left _ hop)) hbefore
  obtain ⟨h₂, hlt, htracks⟩ := tracks_register hk h₁ hregister
  have h : DaemonOk D d ∧ d₁.nextClient < d.nextClient ∧ Tracks D key service d₁.nextClient
      (dataGetSubscriptionInfoForService d₂ service) d :=
    exec_invariant_guarded (C := fun _ op => ∀ t ∈ op.transports, D t)
      (I := fun d => DaemonOk D d ∧ d₁.nextClient < d.nextClient ∧ Tracks D key service
        d₁.nextClient (dataGetSubscriptionInfoForService d₂ service) d)
      (fun _ _ _ _ hI hop hs => ⟨daemonOk_step hk hI.1 hop hs,
        tracks_step hk hI.1 hI.2.1 hI.2.2 hop hs⟩) ⟨h₂, hlt, htracks⟩
      (guarded_of_forall fun op hop _ => hD op (List.mem_append_right _ hop)) hafter
  exact ⟨h.1, h.2.2 client hclient hid⟩

/-- A method is missing from a table exactly when it is missing from the entry
that the table agrees with. -/
theorem lookup_eq_none_iff {table : SubscribedMethods} {entry : ServiceDataEntry}
    (ha : Agrees D key table entry.transportsOf) (hne : NoEmptyMethods entry) (m : CString) :
    table.lookup m = none ↔ entry.method? m = none := by
  have hlen := (ha.perm m).length_eq
  rw [List.length_map, List.length_map] at hlen
  constructor
  · intro hnone
    cases hm : entry.method? m with
    | none => rfl
    | some method =>
      rw [transportsOf_of_method? hm, subscribers, hnone] at hlen
      exact absurd (List.length_eq_zero_iff.mp hlen.symm) (hne method (List.mem_of_find?_eq_some hm))
  · intro hnone
    rw [ServiceDataEntry.transportsOf, hnone] at hlen
    by_contra hsome
    cases hl : table.lookup m with
    | none => exact hsome hl
    | some children =>
      rw [subscribers, hl] at hlen
      have hnil : children = [] := List.length_eq_zero_iff.mp hlen
      exact ha.noneEmpty m (by rw [hl, hnil])

/-! ## Whole runs -/

end Cmsg.Psd
