import Cmsg.Psd.Entries

/-! # Registered publishers

The purpose of the composite clients: a publisher that registered for a service
is a child of the composite client of that service until it is deregistered.
`Registry` states this purpose on its own, and the daemon is run beside it.
Four operations destroy service entries and three of them look at the children
first; `data_remove_local_subscription` does not. -/
namespace Cmsg.Psd
open Cmsg.Base Cmsg.Base.Runs

/-! ## The registry -/

/-- The publishers registered for each service, the latest first. -/
abbrev Registry := CString → List Transport

/-- Only registering and deregistering a publisher change the registry. A publisher is
told from others as `cmsg_client_transport_compare` does it. -/
def registryStep (registry : Registry) : Op → Registry
  | .addPublisher service transportInfo =>
    match transportInfoToTransport transportInfo with
    | none => registry
    | some transport => fun s =>
      if s = service then transport :: registry s else registry s
  | .removePublisher service transportInfo =>
    match transportInfoToTransport transportInfo with
    | none => registry
    | some transport => fun s =>
      if s = service then (registry s).eraseP (transportCompare · transport) else registry s
  | _ => registry

/-- The daemon together with the registry. -/
def registeredStep : Machine (Data × Registry) Op RemoteSync := fun x op =>
  (dataStep x.1 op).map fun r => ((r.1, registryStep x.2 op), r.2)

/-! ## The publishers a service entry knows -/

def ServiceDataEntry.publishers (entry : ServiceDataEntry) : List Transport :=
  entry.children.map (·.transport)

def Data.publishers (d : Data) (service : CString) : List Transport :=
  match d.localSubscriptionsTable.lookup service with
  | none => []
  | some entry => entry.publishers

@[simp] theorem send_publishers (entry : ServiceDataEntry) (update : Update) :
    (entry.send update).publishers = entry.publishers := by
  simp [ServiceDataEntry.send, ServiceDataEntry.publishers]

@[simp] theorem getMethodEntryOrCreate_publishers (entry : ServiceDataEntry) (method : CString) :
    (getMethodEntryOrCreate entry method).publishers = entry.publishers := by
  unfold getMethodEntryOrCreate
  split <;> rfl

@[simp] theorem setTransports_publishers (entry : ServiceDataEntry) (method : CString)
    (transports : List TransportInfo) :
    (entry.setTransports method transports).publishers = entry.publishers := rfl

@[simp] theorem removeTransport_publishers (entry : ServiceDataEntry) (method : MethodDataEntry)
    (transportInfo : TransportInfo) :
    (dataRemoveTransportFromMethod entry method transportInfo).publishers = entry.publishers := by
  unfold dataRemoveTransportFromMethod
  split
  · simp [updatePublishersWithMethodChange]
  · rfl

@[simp] theorem foldl_removeTransport_publishers (methods : List MethodDataEntry)
    (transportInfo : TransportInfo) (entry : ServiceDataEntry) :
    (methods.foldl (fun entry method => dataRemoveTransportFromMethod entry method transportInfo)
      entry).publishers = entry.publishers := by
  induction methods generalizing entry with
  | nil => rfl
  | cons method methods ih => rw [List.foldl_cons, ih, removeTransport_publishers]

@[simp] theorem prune_publishers (entry : ServiceDataEntry) :
    (dataPruneEmptyMethods entry).publishers = entry.publishers := rfl

@[simp] theorem removeForAddr_publishers (entry : ServiceDataEntry) (addr : UInt32) :
    (dataRemoveLocalEntriesForAddr entry addr).publishers = entry.publishers := by
  unfold dataRemoveLocalEntriesForAddr
  dsimp only
  split
  · rw [updatePublishersWithHostRemoval, send_publishers, prune_publishers]
    rfl
  · rfl

theorem publishers_setService (d : Data) (service s : CString) (entry : ServiceDataEntry) :
    (d.setService service entry).publishers s =
      if s = service then entry.publishers else d.publishers s := by
  unfold Data.publishers Data.setService
  by_cases h : s = service
  · simp [h]
  · simp [h]

theorem publishers_destroyService (d : Data) (service s : CString) :
    (d.destroyService service).publishers s = if s = service then [] else d.publishers s := by
  unfold Data.publishers Data.destroyService
  by_cases h : s = service
  · simp [h]
  · simp [h]

theorem publishers_of_lookup {d : Data} {service : CString} {entry : ServiceDataEntry}
    (h : d.localSubscriptionsTable.lookup service = some entry) :
    d.publishers service = entry.publishers := by
  simp [Data.publishers, h]

theorem getServiceEntryOrCreate_publishers (d : Data) (service : CString) :
    (getServiceEntryOrCreate d service).publishers = d.publishers service := by
  unfold getServiceEntryOrCreate Data.publishers
  cases d.localSubscriptionsTable.lookup service <;> rfl

/-- An entry that `data_remove_empty_services` accepts has no children. -/
theorem publishers_of_empty {entry : ServiceDataEntry} (h : dataRemoveEmptyServices entry = true) :
    entry.publishers = [] := by
  simp only [dataRemoveEmptyServices, Bool.and_eq_true, beq_iff_eq] at h
  simp [ServiceDataEntry.publishers, List.length_eq_zero_iff.mp h.2]

theorem publishers_setService_same {d : Data} {service : CString} {entry : ServiceDataEntry}
    (h : entry.publishers = d.publishers service) (s : CString) :
    (d.setService service entry).publishers s = d.publishers s := by
  rw [publishers_setService]
  split
  · next hs => rw [hs, h]
  · rfl

/-! ## What each operation does to them -/

theorem addLocalSubscription_publishers {d d' : Data} {info : SubscriptionInfo}
    (h : dataAddLocalSubscription d info = some d') (s : CString) :
    d'.publishers s = d.publishers s := by
  obtain ⟨copy, _, rfl⟩ := Option.map_eq_some_iff.mp h
  apply publishers_setService_same
  rw [updatePublishersWithMethodChange, send_publishers, setTransports_publishers,
    getMethodEntryOrCreate_publishers, getServiceEntryOrCreate_publishers]

theorem removeSubscriber_publishers (d : Data) (service : CString) (transportInfo : TransportInfo)
    (s : CString) : (dataRemoveSubscriber d service transportInfo).1.publishers s =
      d.publishers s := by
  unfold dataRemoveSubscriber
  cases hl : d.localSubscriptionsTable.lookup service with
  | none => rfl
  | some entry =>
    have hp : (dataPruneEmptyMethods (entry.methods.foldl (fun entry method =>
        dataRemoveTransportFromMethod entry method transportInfo) entry)).publishers =
          d.publishers service := by
      rw [prune_publishers, foldl_removeTransport_publishers, publishers_of_lookup hl]
    dsimp only
    split
    · next he =>
      show (d.destroyService service).publishers s = d.publishers s
      rw [publishers_destroyService]
      split
      · next hs => rw [hs, ← hp, publishers_of_empty he]
      · rfl
    · exact publishers_setService_same hp s

theorem removeForAddr_publishersOf (d : Data) (addr : UInt32) (s : CString) :
    (dataRemoveLocalSubscriptionsForAddr d addr).publishers s = d.publishers s := by
  unfold dataRemoveLocalSubscriptionsForAddr Data.publishers
  simp only [HashTable.lookup_foreachRemove, HashTable.lookup_foreach]
  cases d.localSubscriptionsTable.lookup s with
  | none => rfl
  | some entry =>
    by_cases he : dataRemoveEmptyServices (dataRemoveLocalEntriesForAddr entry addr) = true
    · have := publishers_of_empty he
      rw [removeForAddr_publishers] at this
      simp [Option.filter, he, this]
    · simp [Option.filter, he]

theorem addPublisher_publishers {d d' : Data} {service : CString} {transportInfo : TransportInfo}
    (h : dataAddPublisher d service transportInfo = some d') (registry : Registry)
    (hr : ∀ s, d.publishers s = registry s) (s : CString) :
    d'.publishers s = registryStep registry (.addPublisher service transportInfo) s := by
  obtain ⟨transport, ht, rfl⟩ := Option.map_eq_some_iff.mp h
  simp only [registryStep, ht]
  show (d.setService service _).publishers s = _
  rw [publishers_setService]
  split
  · next hs =>
    rw [hs, ← hr, ← getServiceEntryOrCreate_publishers]
    rfl
  · exact hr s

theorem removePublisher_publishers {d d' : Data} {service : CString}
    {transportInfo : TransportInfo} (h : dataRemovePublisher d service transportInfo = some d')
    (registry : Registry) (hr : ∀ s, d.publishers s = registry s) (s : CString) :
    d'.publishers s = registryStep registry (.removePublisher service transportInfo) s := by
  unfold dataRemovePublisher at h
  cases hl : d.localSubscriptionsTable.lookup service with
  | none =>
    -- no entry, no publisher: there is nothing to deregister
    have hnil : registry service = [] := by
      rw [← hr, Data.publishers, hl]
    simp only [hl, Option.some.injEq] at h
    subst h
    simp only [registryStep]
    cases transportInfoToTransport transportInfo with
    | none => exact hr s
    | some transport =>
      dsimp only
      split
      · next hs => rw [hr, hs, hnil, List.eraseP_nil]
      · exact hr s
  | some entry =>
    simp only [hl] at h
    obtain ⟨transport, ht, rfl⟩ := Option.map_eq_some_iff.mp h
    simp only [registryStep, ht]
    rw [publishers_setService]
    split
    · next hs =>
      rw [hs, ← hr, publishers_of_lookup hl]
      simp only [ServiceDataEntry.publishers, List.eraseP_map]
      rfl
    · exact hr s

/-! ## The operation that forgets the publishers -/

/-- Removing this local subscription takes the last transport of the last method
of a service that has publishers. -/
def RemovesLastSubscription (d : Data) (info : SubscriptionInfo) : Prop :=
  ∃ entry method, d.localSubscriptionsTable.lookup info.service = some entry ∧
    entry.children ≠ [] ∧ entry.methods = [method] ∧ method.methodName = info.methodName ∧
    method.transports.eraseP (transportInfoCompare · info.transportInfo) = []

/-- `data_remove_local_subscription` forgets the publishers of its service when
it takes the last subscription, and never else. -/
theorem removeLocalSubscription_publishers (d : Data) (info : SubscriptionInfo) :
    (¬ RemovesLastSubscription d info ∧
        ∀ s, (dataRemoveLocalSubscription d info).publishers s = d.publishers s) ∨
      (RemovesLastSubscription d info ∧ d.publishers info.service ≠ [] ∧
        (dataRemoveLocalSubscription d info).publishers info.service = []) := by
  unfold dataRemoveLocalSubscription
  cases hl : d.localSubscriptionsTable.lookup info.service with
  | none =>
    refine .inl ⟨?_, fun _ => rfl⟩
    rintro ⟨entry, method, he, _⟩
    rw [hl] at he
    cases he
  | some entry =>
    have hpub := publishers_of_lookup hl
    cases hm : entry.method? info.methodName with
    | none =>
      simp only [hm]
      refine .inl ⟨?_, fun _ => trivial⟩
      rintro ⟨entry', method, he, _, hmethods, hname, _⟩
      rw [hl] at he
      obtain rfl := Option.some.inj he
      simp [ServiceDataEntry.method?, hmethods, hname] at hm
    | some method =>
      have hafter := removeTransport_method? hm info.transportInfo
      have hlen := eraseP_method_length hafter
      rw [removeTransport_methods_length] at hlen
      simp only [hm, hafter, Option.map_some, Option.getD_some, hlen]
      -- the publishers are kept whenever the entry is
      have hkeep : ∀ methods s, (d.setService info.service
          { dataRemoveTransportFromMethod entry method info.transportInfo with methods }).publishers s =
            d.publishers s := fun methods s =>
        publishers_setService_same (by
          rw [hpub, ← removeTransport_publishers entry method info.transportInfo]
          rfl) s
      by_cases ht : (method.transports.eraseP
          (transportInfoCompare · info.transportInfo)).length = 0
      · by_cases hone : entry.methods.length - 1 = 0
        · simp only [if_pos ht, if_pos hone]
          have hsingle : entry.methods = [method] := by
            have hmem := List.mem_of_find?_eq_some hm
            cases hmethods : entry.methods with
            | nil => simp [hmethods] at hmem
            | cons first rest =>
              cases rest with
              | nil => simpa [hmethods, eq_comm] using hmem
              | cons second rest => simp [hmethods] at hone
          by_cases hc : entry.children = []
          · refine .inl ⟨?_, fun s => ?_⟩
            · rintro ⟨entry', _, he, hne, _⟩
              rw [hl] at he
              obtain rfl := Option.some.inj he
              exact hne hc
            · rw [publishers_destroyService]
              split
              · next hs => rw [hs, hpub, ServiceDataEntry.publishers, hc, List.map_nil]
              · rfl
          · refine .inr ⟨⟨entry, method, hl, hc, hsingle, method?_name hm,
              List.length_eq_zero_iff.mp ht⟩, ?_, ?_⟩
            · rw [hpub]
              simpa [ServiceDataEntry.publishers] using hc
            · rw [publishers_destroyService, if_pos rfl]
        · simp only [if_pos ht, if_neg hone]
          refine .inl ⟨?_, hkeep _⟩
          rintro ⟨entry', _, he, _, hmethods, _⟩
          rw [hl] at he
          obtain rfl := Option.some.inj he
          simp [hmethods] at hone
      · simp only [if_neg ht]
        refine .inl ⟨?_, hkeep _⟩
        rintro ⟨entry', method', he, _, hmethods, hname, hnil⟩
        rw [hl] at he
        obtain rfl := Option.some.inj he
        have : method' = method := by
          simpa [ServiceDataEntry.method?, hmethods, hname] using hm
        rw [this] at hnil
        exact ht (by simp [hnil])

/-- The removal of a local subscription leaves the publishers alone. -/
def KeepsPublishers (x : Data × Registry) : Op → Prop
  | .removeLocalSubscription info => ¬ RemovesLastSubscription x.1 info
  | .removeSubscription info => info.remoteAddr = none → ¬ RemovesLastSubscription x.1 info
  | _ => True

/-- Every publisher in the registry, and no other, is a child of the composite
client of its service. -/
def PublishersRegistered (x : Data × Registry) : Prop := ∀ s, x.1.publishers s = x.2 s

theorem registeredStep_eq_some {x x' : Data × Registry} {op : Op} {o : List RemoteSync} :
    registeredStep x op = some (x', o) ↔
      dataStep x.1 op = some (x'.1, o) ∧ x'.2 = registryStep x.2 op := by
  obtain ⟨d', registry'⟩ := x'
  simp only [registeredStep, Option.map_eq_some_iff, Prod.mk.injEq, Prod.exists]
  constructor
  · rintro ⟨d, o', hs, ⟨rfl, rfl⟩, rfl⟩
    exact ⟨hs, rfl⟩
  · rintro ⟨hs, rfl⟩
    exact ⟨d', o, hs, ⟨rfl, rfl⟩, rfl⟩

theorem remoteSubscription_publishers (d : Data) (info : SubscriptionInfo) (s : CString) :
    (dataRemoveRemoteSubscription d info).1.publishers s = d.publishers s := by
  unfold dataRemoveRemoteSubscription
  split <;> rfl

theorem publishersRegistered_step {x x' : Data × Registry} {op : Op} {o : List RemoteSync}
    (h : PublishersRegistered x) (hc : KeepsPublishers x op)
    (hs : registeredStep x op = some (x', o)) : PublishersRegistered x' := by
  obtain ⟨d', registry'⟩ := x'
  obtain ⟨hd, hr⟩ := registeredStep_eq_some.mp hs
  dsimp only at hd hr
  intro s
  show d'.publishers s = registry' s
  rw [hr]
  have keep : d'.publishers s = x.1.publishers s → registryStep x.2 op = x.2 →
      d'.publishers s = registryStep x.2 op s := fun hp hop => by rw [hp, hop, h s]
  have local_removed : ∀ info, ¬ RemovesLastSubscription x.1 info →
      (dataRemoveLocalSubscription x.1 info).publishers s = x.1.publishers s := by
    intro info hn
    rcases removeLocalSubscription_publishers x.1 info with ⟨_, hp⟩ | ⟨hl, _⟩
    · exact hp s
    · exact absurd hl hn
  cases op with
  | addSubscription info =>
    refine keep ?_ rfl
    simp only [dataStep, dataAddSubscription] at hd
    split at hd
    · obtain ⟨rfl, rfl⟩ := Prod.mk.inj (Option.some.inj hd)
      rfl
    · obtain ⟨d₁, ha, he⟩ := Option.map_eq_some_iff.mp hd
      obtain ⟨rfl, rfl⟩ := Prod.mk.inj he
      exact addLocalSubscription_publishers ha s
  | removeSubscription info =>
    refine keep ?_ rfl
    have hx := congrArg Prod.fst (Option.some.inj hd)
    simp only [dataRemoveSubscription] at hx
    split at hx
    · rw [← hx]
      exact remoteSubscription_publishers x.1 info s
    · next hnone =>
      rw [← hx]
      exact local_removed info (hc hnone)
  | addLocalSubscription info =>
    refine keep ?_ rfl
    obtain ⟨d₁, ha, he⟩ := Option.map_eq_some_iff.mp hd
    obtain ⟨rfl, rfl⟩ := Prod.mk.inj he
    exact addLocalSubscription_publishers ha s
  | removeLocalSubscription info =>
    refine keep ?_ rfl
    obtain ⟨rfl, rfl⟩ := Prod.mk.inj (Option.some.inj hd)
    exact local_removed info hc
  | removeSubscriber service transportInfo =>
    refine keep ?_ rfl
    have hx : (dataRemoveSubscriber x.1 service transportInfo).1 = d' :=
      congrArg Prod.fst (Option.some.inj hd)
    rw [← hx]
    exact removeSubscriber_publishers x.1 service transportInfo s
  | removeLocalSubscriptionsForAddr addr =>
    refine keep ?_ rfl
    obtain ⟨rfl, rfl⟩ := Prod.mk.inj (Option.some.inj hd)
    exact removeForAddr_publishersOf x.1 addr s
  | addPublisher service transportInfo =>
    obtain ⟨d₁, ha, he⟩ := Option.map_eq_some_iff.mp hd
    obtain ⟨rfl, rfl⟩ := Prod.mk.inj he
    exact addPublisher_publishers ha x.2 h s
  | removePublisher service transportInfo =>
    obtain ⟨d₁, ha, he⟩ := Option.map_eq_some_iff.mp hd
    obtain ⟨rfl, rfl⟩ := Prod.mk.inj he
    exact removePublisher_publishers ha x.2 h s

/-- A removal that takes the last subscription loses the publishers of its
service, which nobody deregistered. -/
theorem publishers_lost_step {x : Data × Registry} {op : Op} (h : PublishersRegistered x)
    (hc : ¬ KeepsPublishers x op) :
    ∃ x' o, registeredStep x op = some (x', o) ∧ ¬ PublishersRegistered x' := by
  have lost : ∀ info, RemovesLastSubscription x.1 info →
      ¬ PublishersRegistered (dataRemoveLocalSubscription x.1 info, x.2) := by
    intro info hl hp
    rcases removeLocalSubscription_publishers x.1 info with ⟨hn, _⟩ | ⟨_, hne, hnil⟩
    · exact hn hl
    · rw [h info.service] at hne
      have hreg : _ = x.2 info.service := hp info.service
      exact hne (hreg.symm.trans hnil)
  cases op with
  | removeLocalSubscription info =>
    exact ⟨(dataRemoveLocalSubscription x.1 info, x.2), [],
      registeredStep_eq_some.mpr ⟨rfl, rfl⟩, lost info (not_not.mp hc)⟩
  | removeSubscription info =>
    obtain ⟨hnone, hl⟩ := Classical.not_imp.mp hc
    refine ⟨(dataRemoveLocalSubscription x.1 info, x.2), [], ?_, lost info (not_not.mp hl)⟩
    refine registeredStep_eq_some.mpr ⟨?_, rfl⟩
    simp [dataStep, dataRemoveSubscription, hnone]
  | _ => exact absurd trivial hc

/-- **Publishers stay registered** until they are deregistered, all along a run,
exactly when no removal of a local subscription of the run takes the last
transport of the last method of a service that has publishers. -/
theorem publishers_registered_iff (ops : List Op) :
    Always registeredStep PublishersRegistered (dataInit, fun _ => []) ops ↔
      Guarded registeredStep KeepsPublishers (dataInit, fun _ => []) ops :=
  always_iff_guarded (A := fun _ => True) (I := PublishersRegistered) (fun _ h => h)
    (fun _ _ _ _ hI _ hC hs => publishersRegistered_step hI hC hs)
    (fun _ _ hI _ hC => publishers_lost_step hI hC) (fun _ => rfl) ops fun _ _ => trivial

/-- The daemon forgets a publisher when the only subscription for its service,
added before it registered, is removed. -/
theorem removeLocalSubscription_forgets_publisher :
    let unix (path : CString) : TransportInfo := ⟨false, .unixInfo path⟩
    let info : SubscriptionInfo := ⟨[0x73], unix [0x61], [0x6d], none⟩
    ∃ d registry o, exec registeredStep (dataInit, fun _ => [])
        [.addLocalSubscription info, .addPublisher [0x73] (unix [0x70]),
          .removeLocalSubscription info] = some ((d, registry), o) ∧
      registry [0x73] = [.unix false [0x70]] ∧ d.publishers [0x73] = [] :=
  ⟨_, _, _, rfl, by decide, by decide⟩

end Cmsg.Psd
