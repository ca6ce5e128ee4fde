import Cmsg.Sld.Listeners

/-! # What the table of services holds

Six operations create, change and destroy the entries of the table, and some of
them lose listeners while they are at it. An entry that is left with neither
servers nor listeners is destroyed by the operation that emptied it. -/
namespace Cmsg.Sld
open Cmsg.Base Cmsg.Base.Runs

/-- An entry that the table has a reason to hold. -/
def ServiceDataEntry.InUse (entry : ServiceDataEntry) : Prop :=
  entry.servers ≠ [] ∨ entry.listeners ≠ []

/-- Of any two servers of the entry, neither compares equal to the other. -/
def ServiceDataEntry.Distinct (entry : ServiceDataEntry) : Prop :=
  entry.servers.Pairwise fun a b => findServer a b = false ∧ findServer b a = false

def AllInUse (d : Data) : Prop :=
  ∀ service entry, d.hashTable.lookup service = some entry → entry.InUse

theorem distinct_of_nodup {entry : ServiceDataEntry} (h : (entry.servers.map serverKey).Nodup) :
    entry.Distinct := by
  have hne : entry.servers.Pairwise fun a b => serverKey a ≠ serverKey b := List.pairwise_map.mp h
  refine hne.imp fun {a b} hab => ?_
  rw [findServer_eq, findServer_eq]
  exact ⟨beq_false_of_ne hab, beq_false_of_ne hab.symm⟩

section
variable {d : Data}

theorem AllInUse.setService (h : AllInUse d) {service : CString} {entry : ServiceDataEntry}
    {effects : List Effect} (he : entry.InUse) : AllInUse (d.setService service entry effects) := by
  intro s e hl
  by_cases hs : s = service
  · subst hs
    have hstored : some entry = some e := (HashTable.lookup_insert_self ..).symm.trans hl
    obtain rfl := Option.some.inj hstored
    exact he
  · exact h s e ((HashTable.lookup_insert_of_ne _ hs _).symm.trans hl)

/-- Whatever the entry of one service has become, pruning it is enough. -/
theorem allInUse_prune (h : AllInUse d) (service : CString) (entry : ServiceDataEntry)
    (effects : List Effect) :
    AllInUse (dataRemoveServiceDataEntryIfEmpty (d.setService service entry effects) service) := by
  unfold dataRemoveServiceDataEntryIfEmpty
  split
  · intro s e hl
    by_cases hs : s = service
    · subst hs
      rw [HashTable.lookup_remove_self] at hl
      cases hl
    · refine h s e (Eq.trans ?_ hl)
      rw [HashTable.lookup_remove_of_ne _ hs]
      exact (HashTable.lookup_insert_of_ne _ hs _).symm
  · next hne =>
    refine h.setService ?_
    by_contra hempty
    obtain ⟨hservers, hlisteners⟩ := not_or.mp hempty
    refine hne ((HashTable.lookup_insert_self ..).trans ?_)
    obtain ⟨servers, listeners⟩ := entry
    obtain rfl := not_not.mp hservers
    obtain rfl := not_not.mp hlisteners
    rfl

/-- The bulk operations prune every entry. -/
theorem allInUse_foreachRemove (d : Data) (f : ServiceDataEntry → ServiceDataEntry × List Effect) :
    AllInUse (d.foreachRemove f) := by
  intro s e hl
  obtain ⟨_, hkept⟩ := Option.filter_eq_some_iff.mp hl
  by_contra hempty
  obtain ⟨hservers, hlisteners⟩ := not_or.mp hempty
  dsimp only at hkept
  rw [not_not.mp hservers, not_not.mp hlisteners] at hkept
  cases hkept

theorem allInUse_removeServer (h : AllInUse d) (sends : Nat → Nat → Bool) (serverInfo : ServiceInfo)
    (isLocal : Bool) : AllInUse (dataRemoveServer sends d serverInfo isLocal) := by
  unfold dataRemoveServer
  split
  · exact h
  · dsimp only
    split
    · exact allInUse_prune h _ _ _
    · exact h

/-- The server that was added is there, whoever could be told of it. -/
theorem allInUse_addServer (h : AllInUse d) (sends : Nat → Nat → Bool) (serverInfo : ServiceInfo)
    (isLocal : Bool) : AllInUse (dataAddServer sends d serverInfo isLocal) := by
  have hremoved := allInUse_removeServer h sends { serverInfo with isLocal } isLocal
  exact hremoved.setService (.inl (List.cons_ne_nil _ _))

/-- A listener that cannot be told of the servers is dropped, but then there are some. -/
theorem allInUse_addListener {d' : Data} (h : AllInUse d) {sends : Nat → Nat → Bool}
    {info : ListenerInfo} (hs : dataAddListener sends d info = some d') : AllInUse d' := by
  obtain ⟨transport, _, rfl⟩ := Option.map_eq_some_iff.mp hs
  let listener : ListenerData := ⟨d.nextClient, transport, info.id, info.pid⟩
  let entry := getServiceEntryOrCreate d info.service
  have hstored : AllInUse (d.setService info.service
      { entry with listeners :=
          if (sendServers (sends listener.client) listener 0 entry.servers).2
          then listener :: entry.listeners else entry.listeners } []) := by
    refine h.setService ?_
    by_cases hservers : entry.servers = []
    · refine .inr ?_
      dsimp only
      rw [hservers]
      exact List.cons_ne_nil _ _
    · exact .inl hservers
  exact hstored

theorem allInUse_removeListener (h : AllInUse d) (info : ListenerInfo) :
    AllInUse (dataRemoveListener d info) := by
  unfold dataRemoveListener
  split
  · exact h
  · dsimp only
    split
    · exact h
    · exact allInUse_prune h _ _ _

theorem allInUse_step {d' : Data} {op : Op × (Nat → Nat → Bool)} {o : List Empty} (h : AllInUse d)
    (hs : dataStep d op = some (d', o)) : AllInUse d' := by
  obtain ⟨op, sends⟩ := op
  cases op with
  | addServer serverInfo isLocal =>
    obtain ⟨rfl, _⟩ := Prod.mk.inj (Option.some.inj hs)
    exact allInUse_addServer h sends serverInfo isLocal
  | removeServer serverInfo isLocal =>
    obtain ⟨rfl, _⟩ := Prod.mk.inj (Option.some.inj hs)
    exact allInUse_removeServer h sends serverInfo isLocal
  | removeServersByAddr addr =>
    obtain ⟨rfl, _⟩ := Prod.mk.inj (Option.some.inj hs)
    exact allInUse_foreachRemove d _
  | removeByPid pid =>
    obtain ⟨rfl, _⟩ := Prod.mk.inj (Option.some.inj hs)
    exact allInUse_foreachRemove d _
  | addListener info =>
    obtain ⟨d₁, ha, he⟩ := Option.map_eq_some_iff.mp hs
    obtain ⟨rfl, _⟩ := Prod.mk.inj he
    exact allInUse_addListener h ha
  | removeListener info =>
    obtain ⟨rfl, _⟩ := Prod.mk.inj (Option.some.inj hs)
    exact allInUse_removeListener h info

end

/-- **The entries are in use.** In every state that a run reaches, whatever sends
fail, each entry of the table has a server or a listener, and no two servers of
it compare equal. -/
theorem entries_in_use (ops : List (Op × (Nat → Nat → Bool))) {d : Data} {o : List Empty}
    (he : exec dataStep dataInit ops = some (d, o)) :
    ∀ service entry, d.hashTable.lookup service = some entry → entry.InUse ∧ entry.Distinct := by
  have hok : DataOk d := exec_invariant (fun _ _ _ _ h hs => dataOk_step h hs) dataOk_init he
  have hused : AllInUse d := by
    refine exec_invariant (fun _ _ _ _ h hs => allInUse_step h hs) ?_ he
    intro s e hl
    cases hl
  intro service entry hl
  have hs := hok service
  rw [getServiceEntryOrCreate_of_lookup hl] at hs
  exact ⟨hused service entry hl, distinct_of_nodup hs.distinct⟩

/-- The listener is lost with the server that its process never heard of. -/
theorem entries_in_use_lost :
    let server : ServiceInfo := ⟨[0x73], ⟨false, .unixInfo [0x61]⟩, 2, true⟩
    let listener (service : CString) : ListenerInfo := ⟨service, ⟨false, .unixInfo [0x6c]⟩, 0, 1⟩
    ∃ d o, exec dataStep dataInit
        [(.addListener (listener [0x73]), fun _ _ => true),
          (.addListener (listener [0x74]), fun _ _ => true),
          (.addServer server true, fun _ _ => false),
          (.removeServer server true, fun _ _ => false)] = some (d, o) ∧
      d.hashTable.lookup [0x73] = none ∧
      ∃ entry, d.hashTable.lookup [0x74] = some entry ∧ entry.InUse ∧ entry.Distinct := by
  intro server listener
  have h := entries_in_use
    [(.addListener (listener [0x73]), fun _ _ => true),
      (.addListener (listener [0x74]), fun _ _ => true),
      (.addServer server true, fun _ _ => false),
      (.removeServer server true, fun _ _ => false)] rfl
  exact ⟨_, _, rfl, rfl, _, rfl, h [0x74] _ rfl⟩

end Cmsg.Sld
