import Cmsg.Psd.LocalSubscriptions

/-! # Entries without a purpose

A service entry is there for its publishers or for its methods, and a method for
its subscribers. Each removing operation destroys what it has emptied, except
`data_remove_publisher`, which looks at neither. -/
namespace Cmsg.Psd
open Cmsg.Base Cmsg.Base.Runs

/-- Somebody needs the entry and each of its methods. -/
structure ServiceDataEntry.Occupied (entry : ServiceDataEntry) : Prop where
  used : entry.children ≠ [] ∨ entry.methods ≠ []
  subscribed : NoEmptyMethods entry

def NoOrphans (d : Data) : Prop :=
  ∀ service entry, d.localSubscriptionsTable.lookup service = some entry → entry.Occupied

/-- The publisher that deregisters is the only one of a service to which nobody is
subscribed. -/
def LeavesOrphan (d : Data) : Op → Prop
  | .removePublisher service transportInfo => ∃ entry transport child,
    d.localSubscriptionsTable.lookup service = some entry ∧
      transportInfoToTransport transportInfo = some transport ∧ entry.methods = [] ∧
      entry.children = [child] ∧ transportCompare child.transport transport = true
  | _ => False

section
variable {d d' : Data}

theorem NoOrphans.setService (h : NoOrphans d) {service : CString} {entry : ServiceDataEntry}
    (he : entry.Occupied) : NoOrphans (d.setService service entry) := by
  intro s e hl
  by_cases hs : s = service
  · subst hs
    have hstored : some entry = some e := (HashTable.lookup_insert_self ..).symm.trans hl
    obtain rfl := Option.some.inj hstored
    exact he
  · exact h s e ((HashTable.lookup_insert_of_ne _ hs _).symm.trans hl)

theorem NoOrphans.destroyService (h : NoOrphans d) (service : CString) :
    NoOrphans (d.destroyService service) := by
  intro s e hl
  by_cases hs : s = service
  · subst hs
    have hgone : none = some e := (HashTable.lookup_remove_self ..).symm.trans hl
    cases hgone
  · exact h s e ((HashTable.lookup_remove_of_ne _ hs).symm.trans hl)

theorem NoOrphans.noEmptyMethods (h : NoOrphans d) (service : CString) :
    NoEmptyMethods (getServiceEntryOrCreate d service) := by
  unfold getServiceEntryOrCreate
  cases hl : d.localSubscriptionsTable.lookup service with
  | none => exact fun m hm => by cases hm
  | some e => exact (h service e hl).subscribed

/-- An entry that `data_remove_empty_services` leaves is used. -/
theorem used_of_not_empty {entry : ServiceDataEntry} (h : dataRemoveEmptyServices entry ≠ true) :
    entry.children ≠ [] ∨ entry.methods ≠ [] := by
  by_contra hnone
  obtain ⟨hchildren, hmethods⟩ := not_or.mp hnone
  refine h ?_
  rw [dataRemoveEmptyServices, not_not.mp hchildren, not_not.mp hmethods]
  rfl

/-! ## The operations -/

theorem noOrphans_addLocal (h : NoOrphans d) (hu : NamesOk d) {info : SubscriptionInfo}
    (hs : dataAddLocalSubscription d info = some d') : NoOrphans d' := by
  obtain ⟨copy, _, rfl⟩ := Option.map_eq_some_iff.mp hs
  obtain ⟨hnames, hfound, _⟩ := getMethodEntryOrCreate_spec (hu info.service) info.methodName
  refine h.setService ⟨.inr fun hnil => ?_,
    noEmptyMethods_addTransport hnames (h.noEmptyMethods info.service) _ _⟩
  obtain ⟨method, hmethod⟩ := Option.isSome_iff_exists.mp hfound
  have hset := method?_setTransports
    (getMethodEntryOrCreate (getServiceEntryOrCreate d info.service) info.methodName)
    info.methodName (copy :: (getMethodEntryOrCreate (getServiceEntryOrCreate d info.service)
      info.methodName).transportsOf info.methodName)
  rw [hmethod] at hset
  exact List.ne_nil_of_mem (List.mem_of_find?_eq_some hset) hnil

/-- The method that is left without transports goes, and then the service that is left
without methods. -/
theorem noOrphans_removeLocal (h : NoOrphans d) (hu : NamesOk d) (info : SubscriptionInfo) :
    NoOrphans (dataRemoveLocalSubscription d info) := by
  unfold dataRemoveLocalSubscription
  cases hl : d.localSubscriptionsTable.lookup info.service with
  | none => exact h
  | some e =>
    have hold := (h info.service e hl).subscribed
    have hue : e.NamesUnique := getServiceEntryOrCreate_of_lookup hl ▸ hu info.service
    cases hm : e.method? info.methodName with
    | none =>
      simp only [hm]
      exact h
    | some method =>
      have hafter := removeTransport_method? hm info.transportInfo
      have hue' := namesUnique_removeTransport hue method info.transportInfo
      simp only [hm, hafter, Option.map_some, Option.getD_some]
      split
      · split
        · exact h.destroyService info.service
        · next hleft =>
          refine h.setService ⟨.inr (mt List.length_eq_zero_iff.mpr hleft), fun m hmem => ?_⟩
          exact other_removeTransport hm hold hue' (List.mem_of_mem_eraseP hmem)
            (forgotten_name hue' hmem)
      · next hleft =>
        exact h.setService ⟨.inr (List.ne_nil_of_mem (List.mem_of_find?_eq_some hafter)),
          noEmptyMethods_removeTransport hm hold hue' hleft⟩

theorem noOrphans_removeSubscriber (h : NoOrphans d) (service : CString) (info : TransportInfo) :
    NoOrphans (dataRemoveSubscriber d service info).1 := by
  unfold dataRemoveSubscriber
  split
  · exact h
  · dsimp only
    split
    · exact h.destroyService service
    · next hleft => exact h.setService ⟨used_of_not_empty hleft, prune_nonempty _⟩

theorem noOrphans_removeForAddr (d : Data) (addr : UInt32) :
    NoOrphans (dataRemoveLocalSubscriptionsForAddr d addr) := by
  intro s e hl
  obtain ⟨hfound, hleft⟩ := Option.filter_eq_some_iff.mp hl
  obtain ⟨e₀, _, rfl⟩ := Option.map_eq_some_iff.mp hfound
  refine ⟨used_of_not_empty (by simpa using hleft), ?_⟩
  unfold dataRemoveLocalEntriesForAddr
  dsimp only
  split
  · exact prune_nonempty _
  · exact prune_nonempty _

theorem noOrphans_addPublisher (h : NoOrphans d) {service : CString} {transportInfo : TransportInfo}
    (hs : dataAddPublisher d service transportInfo = some d') : NoOrphans d' := by
  obtain ⟨transport, _, rfl⟩ := Option.map_eq_some_iff.mp hs
  exact h.setService ⟨.inl (List.cons_ne_nil _ _), h.noEmptyMethods service⟩

/-- The entry of the service is what the publisher leaves of it. -/
theorem noOrphans_removePublisher (h : NoOrphans d) {service : CString}
    {transportInfo : TransportInfo} (hc : ¬ LeavesOrphan d (.removePublisher service transportInfo))
    (hs : dataRemovePublisher d service transportInfo = some d') : NoOrphans d' := by
  unfold dataRemovePublisher at hs
  cases hl : d.localSubscriptionsTable.lookup service with
  | none =>
    simp only [hl, Option.some.injEq] at hs
    exact hs ▸ h
  | some e =>
    simp only [hl] at hs
    obtain ⟨transport, ht, rfl⟩ := Option.map_eq_some_iff.mp hs
    have he := h service e hl
    refine h.setService ⟨?_, he.subscribed⟩
    by_cases hmethods : e.methods = []
    · refine .inl fun hnil => ?_
      rcases List.eraseP_eq_nil_iff.mp hnil with hnone | ⟨child, hmatch, hchild⟩
      · exact he.used.elim (· hnone) (· hmethods)
      · exact hc ⟨e, transport, child, hl, ht, hmethods, hchild, hmatch⟩
    · exact .inr hmethods

theorem noOrphans_step {op : Op} {o : List RemoteSync} (h : NoOrphans d) (hu : NamesOk d)
    (hc : ¬ LeavesOrphan d op) (hs : dataStep d op = some (d', o)) : NoOrphans d' := by
  cases op with
  | addSubscription info =>
    simp only [dataStep, dataAddSubscription] at hs
    cases haddr : info.remoteAddr with
    | some addr =>
      simp only [haddr, Option.some.injEq, Prod.mk.injEq] at hs
      obtain ⟨rfl, _⟩ := hs
      exact h
    | none =>
      simp only [haddr] at hs
      obtain ⟨d₁, ha, he⟩ := Option.map_eq_some_iff.mp hs
      obtain ⟨rfl, _⟩ := Prod.mk.inj he
      exact noOrphans_addLocal h hu ha
  | removeSubscription info =>
    have hx := congrArg Prod.fst (Option.some.inj hs)
    simp only [dataRemoveSubscription] at hx
    split at hx
    · rw [← hx]
      unfold dataRemoveRemoteSubscription
      split
      · exact h
      · exact h
    · rw [← hx]
      exact noOrphans_removeLocal h hu info
  | addLocalSubscription info =>
    obtain ⟨d₁, ha, he⟩ := Option.map_eq_some_iff.mp hs
    obtain ⟨rfl, _⟩ := Prod.mk.inj he
    exact noOrphans_addLocal h hu ha
  | removeLocalSubscription info =>
    obtain ⟨rfl, _⟩ := Prod.mk.inj (Option.some.inj hs)
    exact noOrphans_removeLocal h hu info
  | removeSubscriber service info =>
    have hx : (dataRemoveSubscriber d service info).1 = d' := congrArg Prod.fst (Option.some.inj hs)
    rw [← hx]
    exact noOrphans_removeSubscriber h service info
  | removeLocalSubscriptionsForAddr addr =>
    obtain ⟨rfl, _⟩ := Prod.mk.inj (Option.some.inj hs)
    exact noOrphans_removeForAddr d addr
  | addPublisher service info =>
    obtain ⟨d₁, ha, he⟩ := Option.map_eq_some_iff.mp hs
    obtain ⟨rfl, _⟩ := Prod.mk.inj he
    exact noOrphans_addPublisher h ha
  | removePublisher service info =>
    obtain ⟨d₁, ha, he⟩ := Option.map_eq_some_iff.mp hs
    obtain ⟨rfl, _⟩ := Prod.mk.inj he
    exact noOrphans_removePublisher h hc ha

/-- And the entry that such a publisher leaves stays in the table. -/
theorem orphan_of_leavesOrphan {op : Op} (hc : LeavesOrphan d op) :
    ∃ d' o, dataStep d op = some (d', o) ∧ ¬ NoOrphans d' := by
  cases op with
  | removePublisher service info =>
    obtain ⟨e, transport, child, hl, ht, hmethods, hchild, hmatch⟩ := hc
    have hleft : e.children.eraseP (transportCompare ·.transport transport) = [] :=
      List.eraseP_eq_nil_iff.mpr (.inr ⟨child, hmatch, hchild⟩)
    refine ⟨d.setService service ⟨[], []⟩, [], ?_, fun h => ?_⟩
    · simp only [dataStep, dataRemovePublisher, hl, ht, Option.map_some, hmethods, hleft]
    · exact (h service ⟨[], []⟩ (HashTable.lookup_insert_self ..)).used.elim (· rfl) (· rfl)
  | _ => exact hc.elim

end

/-- **No orphans.** Every entry and every method is needed in every state of a run
exactly when, whenever a publisher deregisters, its service has another publisher or
a subscription. -/
theorem no_orphans_iff (ops : List Op) : Always dataStep NoOrphans dataInit ops ↔
    Guarded dataStep (fun d op => ¬ LeavesOrphan d op) dataInit ops := by
  refine always_iff_guarded (A := fun _ => True) (I := fun d => NoOrphans d ∧ NamesOk d)
    (fun _ h => h.1) (fun d op d' o h _ hc hs => ?_) (fun d op _ _ hc => ?_) ⟨?_, namesOk_init⟩ ops
    fun _ _ => trivial
  · exact ⟨noOrphans_step h.1 h.2 hc hs, namesOk_step h.2 hs⟩
  · exact orphan_of_leavesOrphan (not_not.mp hc)
  · intro s e hl
    cases hl

/-- A publisher registers and deregisters. -/
theorem orphan_left :
    ∃ d o, exec dataStep dataInit [.addPublisher [0x73] ⟨false, .unixInfo [0x61]⟩,
        .removePublisher [0x73] ⟨false, .unixInfo [0x61]⟩] = some (d, o) ∧
      d.localSubscriptionsTable.lookup [0x73] = some ⟨[], []⟩ ∧ ¬ NoOrphans d := by
  refine ⟨_, _, rfl, rfl, fun h => ?_⟩
  exact (h [0x73] ⟨[], []⟩ rfl).used.elim (· rfl) (· rfl)

end Cmsg.Psd
