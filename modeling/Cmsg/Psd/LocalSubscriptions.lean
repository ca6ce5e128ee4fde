import Cmsg.Psd.Cleanup

/-! # The local subscriptions as a table

The service and method entries hold a list of transports for every service and
method. What the operations of the daemon do is said here of these lists alone. -/
namespace Cmsg.Psd
open Cmsg.Base Cmsg.Base.Runs

/-- The transports subscribed to a method of a service. -/
def transportsAt (d : Data) (service method : CString) : List TransportInfo :=
  (getServiceEntryOrCreate d service).transportsOf method

def NamesOk (d : Data) : Prop := ∀ s, (getServiceEntryOrCreate d s).NamesUnique

theorem namesOk_init : NamesOk dataInit := fun _ => namesUnique_nil

theorem namesOk_step {d d' : Data} {op : Op} {o : List RemoteSync} (hu : NamesOk d)
    (hs : dataStep d op = some (d', o)) : NamesOk d' := by
  by_cases hop : ∃ s t, op = .removeSubscriber s t
  · obtain ⟨s, t, rfl⟩ := hop
    have hx : (dataRemoveSubscriber d s t).1 = d' := congrArg Prod.fst (Option.some.inj hs)
    rw [← hx]
    exact (subscriberRemoved hu s t).names
  · exact (dataStep_effect hu (fun s t he => hop ⟨s, t, he⟩) hs).names

section
variable {d d' : Data}

theorem transportsAt_setService (d : Data) (service : CString) (entry : ServiceDataEntry)
    (s m : CString) : transportsAt (d.setService service entry) s m =
      if s = service then entry.transportsOf m else transportsAt d s m := by
  unfold transportsAt
  rw [getServiceEntryOrCreate_setService]
  split
  · rfl
  · rfl

theorem transportsAt_destroyService (d : Data) (service s m : CString) :
    transportsAt (d.destroyService service) s m =
      if s = service then [] else transportsAt d s m := by
  unfold transportsAt
  rw [getServiceEntryOrCreate_destroyService]
  split
  · rfl
  · rfl

/-- A subscription goes to the front of the list of its method. -/
theorem transportsAt_addLocal (hu : NamesOk d) {info : SubscriptionInfo}
    (h : dataAddLocalSubscription d info = some d') :
    ∃ copy, transportInfoCopy info.transportInfo = some copy ∧ ∀ s m, transportsAt d' s m =
      if s = info.service ∧ m = info.methodName then copy :: transportsAt d s m
      else transportsAt d s m := by
  obtain ⟨copy, hcopy, rfl⟩ := Option.map_eq_some_iff.mp h
  obtain ⟨_, hfound, ht⟩ := getMethodEntryOrCreate_spec (hu info.service) info.methodName
  refine ⟨copy, hcopy, fun s m => ?_⟩
  rw [transportsAt_setService]
  by_cases hs : s = info.service
  · subst hs
    rw [if_pos rfl]
    have hset := transportsOf_setTransports hfound
      (copy :: (getServiceEntryOrCreate d info.service).transportsOf info.methodName) m
    rw [← ht info.methodName, ht m] at hset
    refine hset.trans ?_
    by_cases hm : m = info.methodName
    · rw [if_pos hm, if_pos ⟨rfl, hm⟩, ht, hm]
      rfl
    · rw [if_neg hm, if_neg fun he => hm he.2]
      rfl
  · rw [if_neg hs, if_neg fun he => hs he.1]

theorem transportsOf_removeTransport {e : ServiceDataEntry} {name : CString}
    {method : MethodDataEntry} (hm : e.method? name = some method) (info : TransportInfo)
    (j : CString) : (dataRemoveTransportFromMethod e method info).transportsOf j =
      if j = name then (e.transportsOf j).eraseP (transportInfoCompare · info)
      else e.transportsOf j := by
  split
  · next hj =>
    rw [hj, transportsOf_of_method? (removeTransport_method? hm info), transportsOf_of_method? hm]
  · next hj =>
    rw [ServiceDataEntry.transportsOf, removeTransport_method?_of_ne (method?_name hm ▸ hj)]
    rfl

/-- What changes at one method of one service, by what the new entry of the service has. -/
theorem transportsAt_replaced {service name : CString} {e : ServiceDataEntry}
    {after : CString → List TransportInfo} {f : List TransportInfo → List TransportInfo}
    (hl : d.localSubscriptionsTable.lookup service = some e)
    (hd' : ∀ s m, transportsAt d' s m = if s = service then after m else transportsAt d s m)
    (hafter : ∀ j, after j = if j = name then f (e.transportsOf j) else e.transportsOf j)
    (s m : CString) : transportsAt d' s m =
      if s = service ∧ m = name then f (transportsAt d s m) else transportsAt d s m := by
  rw [hd']
  by_cases hs : s = service
  · rw [if_pos hs, hafter, hs, transportsAt, getServiceEntryOrCreate_of_lookup hl]
    simp only [true_and]
  · rw [if_neg hs, if_neg fun he => hs he.1]

/-- The first subscription that compares equal goes. -/
theorem transportsAt_removeLocal (hu : NamesOk d) (info : SubscriptionInfo) (s m : CString) :
    transportsAt (dataRemoveLocalSubscription d info) s m =
      if s = info.service ∧ m = info.methodName then
        (transportsAt d s m).eraseP (transportInfoCompare · info.transportInfo)
      else transportsAt d s m := by
  have hnothing : (transportsAt d info.service info.methodName = []) → ∀ s m, transportsAt d s m =
      if s = info.service ∧ m = info.methodName then
        (transportsAt d s m).eraseP (transportInfoCompare · info.transportInfo)
      else transportsAt d s m := by
    intro hnil s m
    split
    · next h =>
      rw [h.1, h.2, hnil]
      rfl
    · rfl
  unfold dataRemoveLocalSubscription
  cases hl : d.localSubscriptionsTable.lookup info.service with
  | none =>
    refine hnothing ?_ s m
    simp [transportsAt, getServiceEntryOrCreate, hl, ServiceDataEntry.transportsOf,
      ServiceDataEntry.method?]
  | some e =>
    have hget := getServiceEntryOrCreate_of_lookup hl
    have hue : e.NamesUnique := hget ▸ hu info.service
    cases hm : e.method? info.methodName with
    | none =>
      simp only [hm]
      refine hnothing ?_ s m
      rw [transportsAt, hget, ServiceDataEntry.transportsOf, hm]
      rfl
    | some method =>
      have hafter := removeTransport_method? hm info.transportInfo
      have hue' := namesUnique_removeTransport hue method info.transportInfo
      have hentry := transportsOf_removeTransport hm info.transportInfo
      simp only [hm, hafter, Option.map_some, Option.getD_some]
      split
      · next hempty =>
        have hnil : (dataRemoveTransportFromMethod e method info.transportInfo).transportsOf
            info.methodName = [] := by
          rw [transportsOf_of_method? hafter]
          exact List.length_eq_zero_iff.mp hempty
        have hforget := transportsOf_forgetMethod hue' hnil
        split
        · next hnone =>
          -- the entry had no other method
          refine transportsAt_replaced hl (transportsAt_destroyService d info.service)
            (fun j => ?_) s m
          rw [← hentry, ← hforget]
          exact (transportsOf_of_no_methods (List.length_eq_zero_iff.mp hnone) j).symm
        · refine transportsAt_replaced hl (transportsAt_setService d info.service _)
            (fun j => ?_) s m
          rw [← hentry]
          exact hforget j
      · exact transportsAt_replaced hl (transportsAt_setService d info.service _) hentry s m

/-- An entry that is not needed any more has no transports. -/
theorem transportsOf_of_empty {entry : ServiceDataEntry} (h : dataRemoveEmptyServices entry = true)
    (m : CString) : entry.transportsOf m = [] := by
  simp only [dataRemoveEmptyServices, Bool.and_eq_true, beq_iff_eq] at h
  exact transportsOf_of_no_methods (List.length_eq_zero_iff.mp h.1) m

theorem transportsOf_removeFromMethods {e : ServiceDataEntry} (hu : e.NamesUnique)
    (info : TransportInfo) (j : CString) :
    (removeFromMethods e info e.methods).transportsOf j =
      (e.transportsOf j).eraseP (transportInfoCompare · info) := by
  obtain ⟨_, hremoved, hrest⟩ := removeFromMethods_spec hu info e.methods hu
    fun m hm => method?_of_mem hu hm
  cases hm : e.method? j with
  | none =>
    have hnone := hrest j fun m hmem he => by
      rw [he, method?_of_mem hu hmem] at hm
      cases hm
    rw [ServiceDataEntry.transportsOf, hnone, ServiceDataEntry.transportsOf, hm]
    rfl
  | some method =>
    have hafter := hremoved method (List.mem_of_find?_eq_some hm)
    rw [method?_name hm] at hafter
    rw [transportsOf_of_method? hafter, transportsOf_of_method? hm]

/-- A subscriber that is removed leaves every method of the service once. -/
theorem transportsAt_removeSubscriber (hu : NamesOk d) (service : CString) (info : TransportInfo)
    (s m : CString) : transportsAt (dataRemoveSubscriber d service info).1 s m =
      if s = service then (transportsAt d s m).eraseP (transportInfoCompare · info)
      else transportsAt d s m := by
  unfold dataRemoveSubscriber
  cases hl : d.localSubscriptionsTable.lookup service with
  | none =>
    show transportsAt d s m = _
    split
    · next hs =>
      have hnil : transportsAt d s m = [] := by
        simp [hs, transportsAt, getServiceEntryOrCreate, hl, ServiceDataEntry.transportsOf,
          ServiceDataEntry.method?]
      rw [hnil]
      rfl
    · rfl
  | some e =>
    have hget := getServiceEntryOrCreate_of_lookup hl
    have hue : e.NamesUnique := hget ▸ hu service
    have hleft : ∀ j, (dataPruneEmptyMethods (removeFromMethods e info e.methods)).transportsOf j =
        (e.transportsOf j).eraseP (transportInfoCompare · info) := by
      intro j
      rw [transportsOf_prune (removeFromMethods_spec hue info e.methods hue
        fun m hm => method?_of_mem hue hm).1, transportsOf_removeFromMethods hue]
    dsimp only
    split
    · next hempty =>
      have hnone := transportsOf_of_empty hempty m
      change transportsAt (d.destroyService service) s m = _
      rw [transportsAt_destroyService]
      by_cases hs : s = service
      · rw [if_pos hs, if_pos hs, hs, transportsAt, hget, ← hleft]
        exact hnone.symm
      · rw [if_neg hs, if_neg hs]
    · change transportsAt (d.setService service
        (dataPruneEmptyMethods (removeFromMethods e info e.methods))) s m = _
      rw [transportsAt_setService]
      by_cases hs : s = service
      · rw [if_pos hs, if_pos hs, hs, hleft, transportsAt, hget]
      · rw [if_neg hs, if_neg hs]

/-- A host that is gone takes everything at its address along. -/
theorem transportsAt_removeForAddr (hu : NamesOk d) (addr : UInt32) (s m : CString) :
    transportsAt (dataRemoveLocalSubscriptionsForAddr d addr) s m =
      (transportsAt d s m).filter (!hasAddr addr ·) := by
  have hlookup : (dataRemoveLocalSubscriptionsForAddr d addr).localSubscriptionsTable.lookup s =
      ((d.localSubscriptionsTable.lookup s).map fun e => dataRemoveLocalEntriesForAddr e addr).filter
        fun e => !dataRemoveEmptyServices e := rfl
  have hleft := transportsOf_removeLocalEntriesForAddr (hu s) addr m
  unfold transportsAt
  rw [← hleft, getServiceEntryOrCreate, hlookup, getServiceEntryOrCreate]
  cases d.localSubscriptionsTable.lookup s with
  | none => rfl
  | some e =>
    by_cases hempty : dataRemoveEmptyServices (dataRemoveLocalEntriesForAddr e addr) = true
    · have hnone := transportsOf_of_empty hempty m
      have hnil := (@transportsOf_of_no_methods ⟨[], []⟩ rfl m).trans hnone.symm
      simpa [Option.filter, hempty] using hnil
    · simp [Option.filter, hempty]

/-- Publishers come and go without a change to the subscriptions. -/
theorem PublishersChange.transportsAt_eq (h : PublishersChange d d') (s m : CString) :
    transportsAt d' s m = transportsAt d s m := by
  unfold transportsAt
  rw [transportsOf_of_methods (h.methods s)]

end

/-! ## Counting by endpoint -/

/-- The `s_addr` that a transport to the endpoint has; in an IPv6 address this is the
flow information. -/
def endpointAddr : Endpoint → Option UInt32
  | .unix _ _ => none
  | .tcp _ (.ipv4 addr) _ => some addr
  | .tcp _ (.ipv6 _) _ => some 0

theorem hasAddr_iff {addr : UInt32} {t : TransportInfo} :
    hasAddr addr t = true ↔ endpointAddr t.endpoint = some addr := by
  obtain ⟨oneWay, data⟩ := t
  cases data with
  | unixInfo path =>
    unfold hasAddr transportInfoToTransport
    cases printFormat path <;> simp [TransportInfo.endpoint, endpointAddr]
  | tcpInfo info =>
    obtain ⟨ipAddr, port, scopeId, dev⟩ := info
    cases ipAddr <;>
      simp [hasAddr, transportInfoToTransport, Sockaddr.sinAddr, TransportInfo.endpoint,
        endpointAddr]

/-- What is copied to an endpoint of a host describes that endpoint. -/
theorem endpoint_of_copy {t copy : TransportInfo} (h : transportInfoCopy t = some copy) {e : Endpoint}
    {addr : UInt32} (he : endpointAddr e = some addr) : copy.endpoint = e ↔ t.endpoint = e := by
  obtain ⟨transport, ht, rfl⟩ := Option.map_eq_some_iff.mp h
  rw [transportInfoCreate_endpoint]
  obtain ⟨oneWay, data⟩ := t
  cases data with
  | tcpInfo info =>
    obtain rfl := Option.some.inj ht
    obtain ⟨ipAddr, port, scopeId, dev⟩ := info
    cases ipAddr <;> rfl
  | unixInfo path =>
    obtain ⟨out, _, rfl⟩ := Option.map_eq_some_iff.mp ht
    refine iff_of_false (fun h => ?_) fun h => ?_
    · subst h
      cases he
    · subst h
      cases he

/-- What tells subscriptions apart: the service, the method and the endpoint. -/
abbrev SubscriptionKey := CString × CString × Endpoint

def SubscriptionInfo.key (info : SubscriptionInfo) : SubscriptionKey :=
  (info.service, info.methodName, info.transportInfo.endpoint)

/-- How often the endpoint is subscribed to the method. -/
def heldCount (d : Data) (k : SubscriptionKey) : Nat :=
  ((transportsAt d k.1 k.2.1).map (·.endpoint)).count k.2.2

section
variable {d d' : Data} {addr : UInt32} {k : SubscriptionKey}

theorem heldCount_addLocal (hu : NamesOk d) {info : SubscriptionInfo} (hk : endpointAddr k.2.2 = some addr)
    (h : dataAddLocalSubscription d info = some d') :
    heldCount d' k = if info.key = k then heldCount d k + 1 else heldCount d k := by
  obtain ⟨s, m, e⟩ := k
  obtain ⟨copy, hcopy, ht⟩ := transportsAt_addLocal hu h
  have he := endpoint_of_copy hcopy hk
  unfold heldCount
  rw [ht]
  by_cases hkey : info.key = (s, m, e)
  · obtain ⟨rfl, rfl, rfl⟩ : info.service = s ∧ info.methodName = m ∧
        info.transportInfo.endpoint = e := by
      simpa [SubscriptionInfo.key] using hkey
    rw [if_pos ⟨rfl, rfl⟩, if_pos hkey, List.map_cons, he.mpr rfl, List.count_cons_self]
  · rw [if_neg hkey]
    split
    · next hsm =>
      refine List.count_cons_of_ne fun hc => hkey ?_
      rw [SubscriptionInfo.key, he.mp hc, ← hsm.1, ← hsm.2]
    · rfl

theorem count_endpoint_eraseP (transports : List TransportInfo) (t : TransportInfo) (e : Endpoint) :
    ((transports.eraseP (transportInfoCompare · t)).map (·.endpoint)).count e =
      (transports.map (·.endpoint)).count e - if t.endpoint = e then 1 else 0 := by
  rw [List.map_eraseP_eq_erase fun _ _ => transportInfoCompare_iff _ _, List.count_erase]
  simp only [beq_iff_eq]

theorem heldCount_removeLocal (hu : NamesOk d) (info : SubscriptionInfo) :
    heldCount (dataRemoveLocalSubscription d info) k =
      if info.key = k then heldCount d k - 1 else heldCount d k := by
  obtain ⟨s, m, e⟩ := k
  unfold heldCount
  rw [transportsAt_removeLocal hu]
  by_cases hkey : info.key = (s, m, e)
  · obtain ⟨rfl, rfl, rfl⟩ : info.service = s ∧ info.methodName = m ∧
        info.transportInfo.endpoint = e := by
      simpa [SubscriptionInfo.key] using hkey
    rw [if_pos ⟨rfl, rfl⟩, if_pos hkey, count_endpoint_eraseP, if_pos rfl]
  · rw [if_neg hkey]
    split
    · next hsm =>
      rw [count_endpoint_eraseP, if_neg, Nat.sub_zero]
      intro he
      refine hkey ?_
      rw [SubscriptionInfo.key, he, ← hsm.1, ← hsm.2]
    · rfl

theorem heldCount_removeSubscriber (hu : NamesOk d) (service : CString) {t : TransportInfo}
    (ht : t.endpoint ≠ k.2.2) : heldCount (dataRemoveSubscriber d service t).1 k = heldCount d k := by
  unfold heldCount
  rw [transportsAt_removeSubscriber hu]
  split
  · rw [count_endpoint_eraseP, if_neg ht, Nat.sub_zero]
  · rfl

theorem heldCount_removeForAddr (hu : NamesOk d) {gone : UInt32} (hk : endpointAddr k.2.2 = some addr)
    (hne : gone ≠ addr) : heldCount (dataRemoveLocalSubscriptionsForAddr d gone) k = heldCount d k := by
  unfold heldCount
  rw [transportsAt_removeForAddr hu, List.count_eq_countP, List.count_eq_countP, List.countP_map,
    List.countP_map, List.countP_filter]
  refine List.countP_congr fun t _ => ?_
  simp only [Function.comp_apply, Bool.and_eq_true, Bool.not_eq_true', ← Bool.not_eq_true,
    hasAddr_iff, beq_iff_eq]
  refine ⟨fun h => h.1, fun h => ⟨h, fun hgone => hne ?_⟩⟩
  rw [h, hk] at hgone
  exact (Option.some.inj hgone).symm

end

end Cmsg.Psd
