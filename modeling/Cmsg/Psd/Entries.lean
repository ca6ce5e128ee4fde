import Cmsg.Psd.Data

/-! # Methods of a service entry

What the operations on one service entry do to the transports of its methods.
A method that is not in the list counts as one without transports; as long as
the names are unique, pruning makes no difference to this reading. -/
namespace Cmsg.Psd
open Cmsg.Base

/-- The transports subscribed to a method. -/
def ServiceDataEntry.transportsOf (entry : ServiceDataEntry) (name : CString) :
    List TransportInfo :=
  ((entry.method? name).map (·.transports)).getD []

def ServiceDataEntry.NamesUnique (entry : ServiceDataEntry) : Prop :=
  (entry.methods.map (·.methodName)).Nodup

/-! ## Looking methods up -/

theorem method?_name {entry : ServiceDataEntry} {name : CString} {method : MethodDataEntry}
    (h : entry.method? name = some method) : method.methodName = name := by
  simpa using List.find?_some h

theorem method?_setTransports (entry : ServiceDataEntry) (name : CString)
    (transports : List TransportInfo) :
    (entry.setTransports name transports).method? name =
      (entry.method? name).map fun m => { m with transports } :=
  List.find?_modifyFirst (p := fun m : MethodDataEntry => m.methodName == name)
    (f := fun m => { m with transports }) (fun _ => rfl) entry.methods

theorem method?_setTransports_of_ne {entry : ServiceDataEntry} {name j : CString} (hj : j ≠ name)
    (transports : List TransportInfo) :
    (entry.setTransports name transports).method? j = entry.method? j := by
  refine List.find?_modifyFirst_of_disjoint (p := fun m : MethodDataEntry => m.methodName == name)
    (f := fun m => { m with transports }) (q := fun m => m.methodName == j) (fun _ => rfl) ?_
    entry.methods
  intro a ha
  rw [beq_iff_eq] at ha
  exact beq_eq_false_iff_ne.mpr fun he => hj (he.symm.trans ha)

theorem removeTransport_methods_length (entry : ServiceDataEntry) (method : MethodDataEntry)
    (transportInfo : TransportInfo) :
    (dataRemoveTransportFromMethod entry method transportInfo).methods.length =
      entry.methods.length := by
  unfold dataRemoveTransportFromMethod
  split
  · exact List.length_modifyFirst entry.methods
  · rfl

/-- The transports left in the method that a transport is removed from. -/
theorem removeTransport_method? {entry : ServiceDataEntry} {name : CString}
    {method : MethodDataEntry} (h : entry.method? name = some method)
    (transportInfo : TransportInfo) :
    (dataRemoveTransportFromMethod entry method transportInfo).method? name =
      some { method with
        transports := method.transports.eraseP (transportInfoCompare · transportInfo) } := by
  obtain rfl := method?_name h
  unfold dataRemoveTransportFromMethod
  split
  · show (entry.setTransports method.methodName _).method? method.methodName = _
    rw [method?_setTransports, h]
    rfl
  · next hn =>
    have herase : method.transports.eraseP (transportInfoCompare · transportInfo) =
        method.transports :=
      List.eraseP_of_forall_not fun a ha hc => hn (List.any_eq_true.mpr ⟨a, ha, hc⟩)
    rw [herase, h]

theorem eraseP_method_length {entry : ServiceDataEntry} {name : CString} {method : MethodDataEntry}
    (h : entry.method? name = some method) :
    (entry.methods.eraseP fun m => m.methodName == name).length = entry.methods.length - 1 :=
  List.length_eraseP_of_mem (List.mem_of_find?_eq_some h) (by simpa using method?_name h)

/-- Where names are unique, the method found under the name of a listed one is
that one. -/
theorem method?_of_mem {entry : ServiceDataEntry} (hu : entry.NamesUnique)
    {method : MethodDataEntry} (hm : method ∈ entry.methods) :
    entry.method? method.methodName = some method := by
  unfold ServiceDataEntry.NamesUnique at hu
  unfold ServiceDataEntry.method?
  generalize entry.methods = methods at hu hm
  induction methods with
  | nil => cases hm
  | cons a methods ih =>
    simp only [List.map_cons, List.nodup_cons] at hu
    rcases List.mem_cons.mp hm with rfl | hm'
    · simp
    · have hne : (a.methodName == method.methodName) = false := by
        rw [beq_eq_false_iff_ne]
        exact fun he => hu.1 (he ▸ List.mem_map_of_mem hm')
      rw [List.find?_cons, hne]
      exact ih hu.2 hm'

theorem transportsOf_of_method? {entry : ServiceDataEntry} {name : CString}
    {method : MethodDataEntry} (h : entry.method? name = some method) :
    entry.transportsOf name = method.transports := by
  rw [ServiceDataEntry.transportsOf, h]
  rfl

/-! ## Changing one method -/

theorem namesUnique_setTransports {entry : ServiceDataEntry} (hu : entry.NamesUnique)
    (name : CString) (transports : List TransportInfo) :
    (entry.setTransports name transports).NamesUnique := by
  unfold ServiceDataEntry.NamesUnique ServiceDataEntry.setTransports
  rw [List.map_modifyFirst (p := fun m : MethodDataEntry => m.methodName == name)
    (f := fun m => { m with transports }) _ fun _ => rfl]
  exact hu

theorem transportsOf_setTransports {entry : ServiceDataEntry} {name : CString}
    (h : (entry.method? name).isSome) (transports : List TransportInfo) (j : CString) :
    (entry.setTransports name transports).transportsOf j =
      if j = name then transports else entry.transportsOf j := by
  unfold ServiceDataEntry.transportsOf
  by_cases hj : j = name
  · subst hj
    obtain ⟨method, hm⟩ := Option.isSome_iff_exists.mp h
    rw [method?_setTransports, hm, if_pos rfl]
    rfl
  · rw [method?_setTransports_of_ne hj, if_neg hj]

theorem getMethodEntryOrCreate_spec {entry : ServiceDataEntry} (hu : entry.NamesUnique)
    (name : CString) :
    (getMethodEntryOrCreate entry name).NamesUnique ∧
      ((getMethodEntryOrCreate entry name).method? name).isSome ∧
      ∀ j, (getMethodEntryOrCreate entry name).transportsOf j = entry.transportsOf j := by
  unfold getMethodEntryOrCreate
  cases hm : entry.method? name with
  | some method => exact ⟨hu, by simp [hm], fun _ => rfl⟩
  | none =>
    have hnone : ∀ m ∈ entry.methods, m.methodName ≠ name := by
      simpa [ServiceDataEntry.method?] using hm
    refine ⟨?_, ?_, fun j => ?_⟩
    · refine List.nodup_cons.mpr ⟨?_, hu⟩
      rintro hmem
      obtain ⟨m, hm', he⟩ := List.mem_map.mp hmem
      exact hnone m hm' he
    · simp [ServiceDataEntry.method?]
    · unfold ServiceDataEntry.transportsOf
      by_cases hj : j = name
      · subst hj
        rw [hm]
        simp [ServiceDataEntry.method?]
      · have : (name == j) = false := beq_eq_false_iff_ne.mpr fun he => hj he.symm
        simp [ServiceDataEntry.method?, this]

/-! ## Dropping methods -/

/-- Dropping methods without transports changes no method's transports. -/
theorem transportsOf_of_sublist {entry : ServiceDataEntry} (hu : entry.NamesUnique)
    {methods : List MethodDataEntry} (hs : methods.Sublist entry.methods)
    (hempty : ∀ m ∈ entry.methods, m ∉ methods → m.transports = []) (j : CString) :
    ({ entry with methods } : ServiceDataEntry).transportsOf j = entry.transportsOf j := by
  have hu' : ({ entry with methods } : ServiceDataEntry).NamesUnique := (hs.map _).nodup hu
  cases hm : entry.method? j with
  | none =>
    have hnone : ({ entry with methods } : ServiceDataEntry).method? j = none := by
      unfold ServiceDataEntry.method? at hm ⊢
      rw [List.find?_eq_none] at hm ⊢
      exact fun m hm' => hm m (hs.mem hm')
    rw [ServiceDataEntry.transportsOf, ServiceDataEntry.transportsOf, hm, hnone]
  | some method =>
    have hmem := List.mem_of_find?_eq_some hm
    obtain rfl := method?_name hm
    rw [transportsOf_of_method? hm]
    by_cases hin : method ∈ methods
    · exact transportsOf_of_method? (method?_of_mem hu' hin)
    · rw [hempty method hmem hin]
      have hnone : ({ entry with methods } : ServiceDataEntry).method? method.methodName = none := by
        unfold ServiceDataEntry.method?
        rw [List.find?_eq_none]
        intro m hm' he
        have : m = method := by
          have h₁ := method?_of_mem hu (hs.mem hm')
          rw [beq_iff_eq.mp he, hm] at h₁
          exact (Option.some.inj h₁).symm
        exact hin (this ▸ hm')
      rw [ServiceDataEntry.transportsOf, hnone]
      rfl

theorem transportsOf_of_no_methods {entry : ServiceDataEntry} (h : entry.methods = [])
    (m : CString) : entry.transportsOf m = [] := by
  simp [ServiceDataEntry.transportsOf, ServiceDataEntry.method?, h]

/-- Dropping a method that has no transports left. -/
theorem transportsOf_forgetMethod {entry : ServiceDataEntry} (hu : entry.NamesUnique)
    {name : CString} (h : entry.transportsOf name = []) (j : CString) :
    ({ entry with methods := entry.methods.eraseP fun m => m.methodName == name } :
      ServiceDataEntry).transportsOf j = entry.transportsOf j := by
  refine transportsOf_of_sublist hu List.eraseP_sublist (fun m hm hn => ?_) j
  by_cases hname : m.methodName = name
  · have hfound := method?_of_mem hu hm
    rw [hname] at hfound
    rw [← h, transportsOf_of_method? hfound]
  · exact absurd ((List.mem_eraseP_of_neg (by simpa using hname)).mpr hm) hn

theorem namesUnique_prune {entry : ServiceDataEntry} (hu : entry.NamesUnique) :
    (dataPruneEmptyMethods entry).NamesUnique :=
  ((List.filter_sublist).map _).nodup hu

theorem transportsOf_prune {entry : ServiceDataEntry} (hu : entry.NamesUnique) (j : CString) :
    (dataPruneEmptyMethods entry).transportsOf j = entry.transportsOf j := by
  refine transportsOf_of_sublist hu List.filter_sublist (fun m hm hn => ?_) j
  by_contra hne
  exact hn (List.mem_filter.mpr ⟨hm, by simpa using hne⟩)

theorem prune_nonempty (entry : ServiceDataEntry) :
    ∀ m ∈ (dataPruneEmptyMethods entry).methods, m.transports ≠ [] := by
  intro m hm
  simpa using (List.mem_filter.mp hm).2

end Cmsg.Psd
