import Cmsg.Psd.Agreement

/-! # What the daemon sends its publishers

Every operation on the subscriptions sends each publisher exactly the updates
that its own change of the service entry represents. -/
namespace Cmsg.Psd
open Cmsg.Base Cmsg.Base.Runs

variable {κ : Type} {D : TransportInfo → Prop} {key : TransportInfo → κ}

/-! ## Well-formed entries and their snapshot -/

structure EntryOk (D : TransportInfo → Prop) (entry : ServiceDataEntry) : Prop where
  names : entry.NamesUnique
  transports : ∀ m, ∀ t ∈ entry.transportsOf m, D t

theorem EntryOk.mem {entry : ServiceDataEntry} (hok : EntryOk D entry) {method : MethodDataEntry}
    (hm : method ∈ entry.methods) {t : TransportInfo} (ht : t ∈ method.transports) : D t :=
  hok.transports method.methodName t
    (transportsOf_of_method? (method?_of_mem hok.names hm) ▸ ht)

/-- With unique names, all the transports listed for a method are in its entry. -/
theorem flatMap_transports {entry : ServiceDataEntry} (hu : entry.NamesUnique) (j : CString) :
    (entry.methods.filter (·.methodName == j)).flatMap (·.transports) = entry.transportsOf j := by
  unfold ServiceDataEntry.NamesUnique at hu
  unfold ServiceDataEntry.transportsOf ServiceDataEntry.method?
  generalize entry.methods = methods at hu
  induction methods with
  | nil => rfl
  | cons method methods ih =>
    simp only [List.map_cons, List.nodup_cons] at hu
    by_cases hj : method.methodName = j
    · have hnone : methods.filter (·.methodName == j) = [] := by
        refine List.filter_eq_nil_iff.mpr fun m hm he => hu.1 ?_
        rw [hj, ← beq_iff_eq.mp he]
        exact List.mem_map_of_mem hm
      simp [hj, hnone]
    · have hj' : (method.methodName == j) = false := beq_eq_false_iff_ne.mpr hj
      simp only [List.filter_cons, hj', Bool.false_eq_true, if_false, List.find?_cons]
      exact ih hu.2

/-- The publisher agrees with the entry whose methods it was given. -/
theorem initSubscribers_agrees (hk : KeyOn D key) {entry : ServiceDataEntry}
    (hok : EntryOk D entry) :
    ∃ table, publisherInitSubscribers entry.methods = some table ∧
      Agrees D key table entry.transportsOf := by
  obtain ⟨table, hfold, h⟩ := snapshot_methods hk entry.methods
    (fun method hm t ht => hok.mem hm ht) agrees_empty
  refine ⟨table, hfold, h.congr fun j => ?_⟩
  rw [List.append_nil, flatMap_transports hok.names]

/-! ## Changes of one service entry -/

/-- The entry `e'` comes from `e` by changes that are sent as they are made: a
publisher that agrees with `e` agrees with `e'` once it has processed what was
sent. -/
structure Follows (D : TransportInfo → Prop) (key : TransportInfo → κ)
    (e e' : ServiceDataEntry) : Prop where
  ok : EntryOk D e'
  sent : ∃ us, e'.children = e.children.map (fun c => { c with sent := c.sent ++ us }) ∧
    ∀ table, Agrees D key table e.transportsOf →
      ∃ table', publisherProcess table us = some table' ∧ Agrees D key table' e'.transportsOf

/-- A change that the publishers need not know of. -/
theorem Follows.quiet {e e' : ServiceDataEntry} (hc : e'.children = e.children)
    (hu : e'.NamesUnique) (ht : ∀ m, e'.transportsOf m = e.transportsOf m) (hok : EntryOk D e) :
    Follows D key e e' where
  ok := ⟨hu, fun m t hm => hok.transports m t (ht m ▸ hm)⟩
  sent := ⟨[], by simp [hc], fun table ha => ⟨table, rfl, ha.congr fun m => by rw [ht]⟩⟩

theorem Follows.refl {e : ServiceDataEntry} (hok : EntryOk D e) : Follows D key e e :=
  .quiet rfl hok.names (fun _ => rfl) hok

theorem Follows.trans {e e' e'' : ServiceDataEntry} (h : Follows D key e e')
    (h' : Follows D key e' e'') : Follows D key e e'' := by
  obtain ⟨us, hc, hf⟩ := h.sent
  obtain ⟨vs, hc', hf'⟩ := h'.sent
  refine ⟨h'.ok, us ++ vs, ?_, fun table ha => ?_⟩
  · rw [hc', hc, List.map_map]
    simp [Function.comp_def]
  · obtain ⟨table', hp, ha'⟩ := hf table ha
    obtain ⟨table'', hp', ha''⟩ := hf' table' ha'
    exact ⟨table'', by rw [publisherProcess_append, hp]; exact hp', ha''⟩

/-- A change sent as one update. -/
theorem Follows.send {e e' : ServiceDataEntry} {update : Update} (hc : e'.children = e.children)
    (hok : EntryOk D e')
    (hf : ∀ table, Agrees D key table e.transportsOf →
      ∃ table', publisherUpdate table update = some table' ∧ Agrees D key table' e'.transportsOf) :
    Follows D key e (e'.send update) where
  ok := ⟨hok.names, hok.transports⟩
  sent := by
    refine ⟨[update], by simp [ServiceDataEntry.send, hc], fun table ha => ?_⟩
    obtain ⟨table', hp, ha'⟩ := hf table ha
    exact ⟨table', by simp [publisherProcess, hp], ha'⟩

/-! ## The operations on one entry -/

@[simp] theorem getMethodEntryOrCreate_children (e : ServiceDataEntry) (m : CString) :
    (getMethodEntryOrCreate e m).children = e.children := by
  unfold getMethodEntryOrCreate
  split <;> rfl

theorem follows_addTransport (hk : KeyOn D key) {e : ServiceDataEntry} (hok : EntryOk D e)
    (m : CString) {info : TransportInfo} (hD : D info) :
    Follows D key e (updatePublishersWithMethodChange
      ((getMethodEntryOrCreate e m).setTransports m (info :: e.transportsOf m)) m info true) := by
  obtain ⟨hu, hm, ht⟩ := getMethodEntryOrCreate_spec hok.names m
  have htransports := transportsOf_setTransports hm (info :: e.transportsOf m)
  simp only [ht] at htransports
  refine .send (getMethodEntryOrCreate_children e m)
    ⟨namesUnique_setTransports hu _ _, fun j t hj => ?_⟩ fun table ha => ?_
  · rw [htransports] at hj
    split at hj
    · rcases List.mem_cons.mp hj with rfl | hj
      · exact hD
      · exact hok.transports m t hj
    · exact hok.transports j t hj
  · exact ha.add hk hD htransports

theorem follows_removeTransport (hk : KeyOn D key) {e : ServiceDataEntry} (hok : EntryOk D e)
    {method : MethodDataEntry} (hm : e.method? method.methodName = some method)
    {info : TransportInfo} (hD : D info) :
    Follows D key e (dataRemoveTransportFromMethod e method info) := by
  unfold dataRemoveTransportFromMethod
  split
  · next hany =>
    have htransports := transportsOf_setTransports (Option.isSome_iff_exists.mpr ⟨method, hm⟩)
      (method.transports.eraseP (transportInfoCompare · info))
    rw [← transportsOf_of_method? hm] at htransports ⊢
    refine .send rfl ⟨namesUnique_setTransports hok.names _ _, fun j t hj => ?_⟩
      fun table ha => ?_
    · rw [htransports] at hj
      split at hj
      · exact hok.transports _ t (List.mem_of_mem_eraseP hj)
      · exact hok.transports j t hj
    · refine ha.remove hk hD (hok.transports _) ?_ htransports
      rw [transportsOf_of_method? hm]
      intro hnil
      simp [hnil] at hany
  · exact .refl hok

theorem removeTransport_method?_of_ne {e : ServiceDataEntry} {method : MethodDataEntry}
    {j : CString} (hj : j ≠ method.methodName) (info : TransportInfo) :
    (dataRemoveTransportFromMethod e method info).method? j = e.method? j := by
  unfold dataRemoveTransportFromMethod
  split
  · exact method?_setTransports_of_ne hj _
  · rfl

/-- The loop of `data_remove_subscriber`, over methods that the entry still has
as they were when the loop began. -/
theorem follows_foldl_removeTransport (hk : KeyOn D key) {info : TransportInfo} (hD : D info)
    (methods : List MethodDataEntry) :
    ∀ {e : ServiceDataEntry}, EntryOk D e → (methods.map (·.methodName)).Nodup →
      (∀ method ∈ methods, e.method? method.methodName = some method) →
      Follows D key e (methods.foldl
        (fun entry method => dataRemoveTransportFromMethod entry method info) e) := by
  induction methods with
  | nil => exact fun hok _ _ => .refl hok
  | cons method methods ih =>
    intro e hok hnodup hfound
    rw [List.map_cons, List.nodup_cons] at hnodup
    have h₁ := follows_removeTransport hk hok (hfound method (by simp)) hD
    refine h₁.trans (ih h₁.ok hnodup.2 fun m hm => ?_)
    rw [removeTransport_method?_of_ne, hfound m (by simp [hm])]
    exact fun he => hnodup.1 (he ▸ List.mem_map_of_mem hm)

theorem follows_prune {e : ServiceDataEntry} (hok : EntryOk D e) :
    Follows D key e (dataPruneEmptyMethods e) :=
  .quiet rfl (namesUnique_prune hok.names) (transportsOf_prune hok.names) hok

/-- Forgetting the method found under a name, once it has no transports left. -/
theorem follows_forgetMethod {e : ServiceDataEntry} (hok : EntryOk D e) {name : CString}
    (hm : e.transportsOf name = []) :
    Follows D key e { e with methods := e.methods.eraseP fun m => m.methodName == name } := by
  exact .quiet rfl ((List.eraseP_sublist.map _).nodup hok.names)
    (transportsOf_forgetMethod hok.names hm) hok

theorem transportsOf_removeClientsWithAddr (e : ServiceDataEntry) (addr : UInt32) (j : CString) :
    ({ e with methods := e.methods.map fun m => (dataRemoveClientsWithAddrFromMethod m addr).1 } :
      ServiceDataEntry).transportsOf j = (e.transportsOf j).filter (!hasAddr addr ·) := by
  unfold ServiceDataEntry.transportsOf ServiceDataEntry.method?
  rw [List.find?_map]
  show (Option.map _ (Option.map _ (e.methods.find? fun m => m.methodName == j))).getD [] = _
  cases e.methods.find? fun m => m.methodName == j <;> rfl

theorem namesUnique_removeClientsWithAddr {e : ServiceDataEntry} (hu : e.NamesUnique)
    (addr : UInt32) :
    ({ e with methods := e.methods.map fun m => (dataRemoveClientsWithAddrFromMethod m addr).1 } :
      ServiceDataEntry).NamesUnique := by
  unfold ServiceDataEntry.NamesUnique
  rw [List.map_map]
  exact hu

theorem transportsOf_removeLocalEntriesForAddr {e : ServiceDataEntry} (hu : e.NamesUnique)
    (addr : UInt32) (j : CString) : (dataRemoveLocalEntriesForAddr e addr).transportsOf j =
      (e.transportsOf j).filter (!hasAddr addr ·) := by
  rw [← transportsOf_removeClientsWithAddr,
    ← transportsOf_prune (namesUnique_removeClientsWithAddr hu addr)]
  unfold dataRemoveLocalEntriesForAddr
  dsimp only
  split
  · rfl
  · rfl

theorem follows_removeForAddr (hk : KeyOn D key) {e : ServiceDataEntry} (hok : EntryOk D e)
    (addr : UInt32) : Follows D key e (dataRemoveLocalEntriesForAddr e addr) := by
  have hu := namesUnique_removeClientsWithAddr hok.names addr
  have ht : ∀ j, (dataPruneEmptyMethods { e with methods := e.methods.map fun m =>
      (dataRemoveClientsWithAddrFromMethod m addr).1 }).transportsOf j =
        (e.transportsOf j).filter (!hasAddr addr ·) := fun j => by
    rw [transportsOf_prune hu, transportsOf_removeClientsWithAddr]
  unfold dataRemoveLocalEntriesForAddr
  dsimp only
  split
  · refine .send rfl ⟨namesUnique_prune hu, fun j t hj => ?_⟩ fun table ha => ?_
    · rw [ht] at hj
      exact hok.transports j t (List.mem_filter.mp hj).1
    · refine ⟨_, rfl, ?_⟩
      have h := ha.hostRemoval hk hok.transports addr
      exact h.congr fun m => by rw [ht]
  · next hnone =>
    -- nothing was removed from any method
    refine .quiet rfl (namesUnique_prune hu) (fun j => ?_) hok
    rw [ht, List.filter_eq_self]
    intro t htj
    by_contra hne
    refine hnone (List.any_eq_true.mpr ?_)
    unfold ServiceDataEntry.transportsOf at htj
    cases hm : e.method? j with
    | none => simp [hm] at htj
    | some method =>
      refine ⟨method, List.mem_of_find?_eq_some hm, List.any_eq_true.mpr ⟨t, ?_, by simpa using hne⟩⟩
      simpa [hm] using htj

end Cmsg.Psd
