import Cmsg.Sld.RemoteSync

/-! # Removing a host

When a host is removed the servers at its address are. The daemon does not look
at who sent a message, though, so one of the host that is still on its way puts
a server back. -/
namespace Cmsg.Sld
open Cmsg.Base Cmsg.Base.Runs

/-- **What removing a host is for.** No TCP server at its IPv4 address is recorded,
and no listener has been told since then that one was added. -/
structure HostGone (addr : UInt32) (d d' : Data) : Prop where
  servers : ∀ s, ∀ x ∈ serversOf d' s, serverHasAddr addr x = false
  told : ∀ s c event, .serverAdded c event ∈ newEffects d d' s →
    serverHasAddr addr event.serviceInfo = false

/-- The operation adds no server at the address. -/
def AddsNone (addr : UInt32) (op : HostOp) : Prop := ∀ x, op.Adds x → serverHasAddr addr x = false

/-! ## Operations that add no server at the address -/

/-- `HostGone` with the trace that leads from one state to the other. -/
def GoneSince (addr : UInt32) (d d' : Data) : Prop := ∀ s,
  (∀ x ∈ serversOf d' s, serverHasAddr addr x = false) ∧
    ∃ effects, d'.trace s = d.trace s ++ effects ∧
      ∀ c event, .serverAdded c event ∈ effects → serverHasAddr addr event.serviceInfo = false

section
variable {addr : UInt32} {d d₁ : Data}

theorem GoneSince.hostGone (h : GoneSince addr d d₁) : HostGone addr d d₁ := by
  refine ⟨fun s => (h s).1, fun s => ?_⟩
  obtain ⟨_, effects, htrace, htold⟩ := h s
  unfold newEffects
  rw [htrace, List.drop_left]
  exact htold

theorem GoneSince.runs (h : GoneSince addr d d₁) {P : ServiceInfo → Prop} {d₂ : Data}
    (hP : ∀ x, P x → serverHasAddr addr x = false) (hrun : Runs P d₁ d₂) : GoneSince addr d d₂ := by
  intro s
  obtain ⟨hservers, effects, htrace, htold⟩ := h s
  obtain ⟨effects₁, htrace₁, hrun₁⟩ := hrun s
  obtain ⟨hservers₁, htold₁⟩ := hrun₁.all hP hservers
  refine ⟨hservers₁, effects ++ effects₁, by rw [htrace₁, htrace, List.append_assoc], ?_⟩
  intro c event hmem
  rcases List.mem_append.mp hmem with hmem | hmem
  · exact htold c event hmem
  · exact htold₁ c event hmem

theorem goneSince_removeServersByAddr (sends : Nat → Nat → Bool) (d : Data) (addr : UInt32) :
    GoneSince addr (dataRemoveServersByAddr sends d addr) (dataRemoveServersByAddr sends d addr) := by
  intro s
  refine ⟨fun x hx => ?_, [], (List.append_nil _).symm, fun _ _ hmem => by cases hmem⟩
  rw [serversOf_removeServersByAddr] at hx
  simpa using (List.mem_filter.mp hx).2

/-! ## Operations that add one -/

theorem exists_addServer (sends : Nat → Nat → Bool) (x : ServiceInfo) (isLocal : Bool)
    (h : serverHasAddr addr x = true ∨ ∃ s, ∃ y ∈ serversOf d s, serverHasAddr addr y = true) :
    ∃ s, ∃ y ∈ serversOf (dataAddServer sends d x isLocal) s, serverHasAddr addr y = true := by
  rcases h with hx | ⟨s, y, hy, haddr⟩
  · refine ⟨x.service, { x with isLocal }, ?_, hx⟩
    rw [serversOf_addServer, if_pos rfl]
    exact List.mem_cons_self
  · by_cases hs : s = x.service
    · subst hs
      by_cases hfound : findServer y x = true
      · -- the server that goes has the address of the one that comes
        rw [findServer_eq, beq_iff_eq] at hfound
        refine ⟨x.service, { x with isLocal }, ?_, (serverHasAddr_congr hfound addr).symm.trans haddr⟩
        rw [serversOf_addServer, if_pos rfl]
        exact List.mem_cons_self
      · refine ⟨x.service, y, ?_, haddr⟩
        rw [serversOf_addServer, if_pos rfl]
        exact List.mem_cons_of_mem _ ((List.mem_eraseP_of_neg (p := (findServer · x)) hfound).mpr hy)
    · refine ⟨s, y, ?_, haddr⟩
      rw [serversOf_addServer, if_neg hs]
      exact hy

theorem exists_bulkSyncLoop (sends : Nat → Nat → Bool) {data : List ServiceInfo} (k : Nat)
    {t : Host} (h : (∃ info ∈ data, isTcp info = true ∧ serverHasAddr addr info = true) ∨
      ∃ s, ∃ y ∈ serversOf t.data s, serverHasAddr addr y = true) :
    ∃ s, ∃ y ∈ serversOf (bulkSyncLoop sends k t data).1.data s, serverHasAddr addr y = true := by
  induction data generalizing k t with
  | nil =>
    rcases h with ⟨_, hmem, _⟩ | h
    · cases hmem
    · exact h
  | cons info rest ih =>
    unfold bulkSyncLoop
    split
    · refine ih (t := { t with data := _ }) (k + 2) ?_
      rcases h with ⟨info', hmem, htcp, haddr⟩ | h
      · rcases List.mem_cons.mp hmem with rfl | hmem
        · exact .inr (exists_addServer _ _ _ (.inl haddr))
        · exact .inl ⟨info', hmem, htcp, haddr⟩
      · exact .inr (exists_addServer _ _ _ (.inr h))
    · next htcp =>
      refine ih k ?_
      rcases h with ⟨info', hmem, htcp', haddr⟩ | h
      · rcases List.mem_cons.mp hmem with rfl | hmem
        · exact absurd htcp' htcp
        · exact .inl ⟨info', hmem, htcp', haddr⟩
      · exact .inr h

/-- A server that an operation adds is recorded, or one that compares equal. -/
theorem exists_of_adds {t : Host} {op : HostOp} {x : ServiceInfo} (hadds : op.Adds x)
    (haddr : serverHasAddr addr x = true) : ∃ t' o, hostStep t op = some (t', o) ∧
      ∃ s, ∃ y ∈ serversOf t'.data s, serverHasAddr addr y = true := by
  cases op with
  | addressSet addr' created => cases hadds
  | addHost addr' order => cases hadds
  | deleteHost addr' sends order => cases hadds
  | onData op sends order =>
    cases op with
    | addServer serverInfo isLocal =>
      obtain rfl : x = { serverInfo with isLocal } := hadds
      exact ⟨_, _, rfl, exists_addServer sends serverInfo isLocal (.inl haddr)⟩
    | removeServer serverInfo isLocal => cases hadds
    | removeServersByAddr addr' => cases hadds
    | removeByPid pid => cases hadds
    | addListener info => cases hadds
    | removeListener info => cases hadds
  | receive message sends =>
    refine ⟨(remoteSyncImpl sends t message).1, (remoteSyncImpl sends t message).2, rfl, ?_⟩
    cases message with
    | bulkSync data =>
      obtain ⟨info, hmem, htcp, rfl⟩ := hadds
      exact exists_bulkSyncLoop sends 0 (.inl ⟨info, hmem, htcp, haddr⟩)
    | addServer info =>
      obtain ⟨htcp, rfl⟩ := hadds
      rw [remoteSyncImpl_addServer, if_pos htcp]
      exact exists_addServer sends info false (.inl haddr)
    | removeServer info => cases hadds

end

/-! ## The run after the removal -/

/-- **Servers of a removed host.** From the state in which a host has been removed on,
none of its servers is recorded and none announced exactly as long as no
operation adds one, that is as long as no message and no process brings a server
at its address. -/
theorem hostGone_iff {ops : List HostOp} {t : Host} {o : List (UInt32 × SyncMessage)} {addr : UInt32}
    {sends : Nat → Nat → Bool} {order : List CString}
    (he : exec hostStep hostInit (ops ++ [.deleteHost addr sends order]) = some (t, o))
    (later : List HostOp) :
    Always hostStep (fun t' : Host => HostGone addr t.data t'.data) t later ↔
      Guarded hostStep (fun _ op => AddsNone addr op) t later := by
  have hok : DataOk t.data := exec_invariant (I := fun t => DataOk t.data)
    (fun _ _ _ _ h hs => (runs_hostStep h hs).1) dataOk_init he
  obtain ⟨t₀, _, _, _, hd, _⟩ := exec_append.mp he
  obtain ⟨_, _, _, hs, hn, _⟩ := exec_cons.mp hd
  obtain ⟨rfl, _⟩ := Prod.mk.inj (Option.some.inj hs)
  obtain ⟨rfl, _⟩ := Prod.mk.inj (Option.some.inj hn)
  have hgone := goneSince_removeServersByAddr sends (remoteSyncDeleteHost t₀ addr).data addr
  refine always_iff_guarded (A := fun _ => True)
    (I := fun t' : Host => DataOk t'.data ∧ GoneSince addr _ t'.data) (fun _ h => h.2.hostGone)
    (fun t' op t'' o' h _ hnone hs => ?_) (fun t' op _ _ hnone => ?_) ⟨hok, hgone⟩ later
    fun _ _ => trivial
  · obtain ⟨hok', hrun⟩ := runs_hostStep h.1 hs
    exact ⟨hok', h.2.runs hnone hrun⟩
  · unfold AddsNone at hnone
    push Not at hnone
    obtain ⟨x, hadds, haddr⟩ := hnone
    obtain ⟨t'', o', hs, s, y, hy, hyaddr⟩ := exists_of_adds hadds ((Bool.not_eq_false _).mp haddr)
    refine ⟨t'', o', hs, fun hgone' => ?_⟩
    rw [hgone'.servers s y hy] at hyaddr
    cases hyaddr

-- a host at 10.0.0.1 and a message of it
def sampleRemote : ServiceInfo := ⟨[0x73], ⟨true, .tcpInfo ⟨.ipv4 0x0100000A, 0x1234, 0, none⟩⟩, 7, true⟩

/-- The host comes, its server is recorded, and it goes. -/
def sampleRemoval : List HostOp :=
  [.addHost 0x0100000A [], .receive (.addServer sampleRemote) fun _ _ => true] ++
    [.deleteHost 0x0100000A (fun _ _ => true) []]

theorem hostGone_sample : ∃ t o, exec hostStep hostInit sampleRemoval = some (t, o) ∧
    Always hostStep (fun t' : Host => HostGone 0x0100000A t.data t'.data) t
      [.receive (.removeServer sampleRemote) fun _ _ => true] := by
  obtain ⟨t, o, ht⟩ : ∃ t o, exec hostStep hostInit sampleRemoval = some (t, o) := ⟨_, _, rfl⟩
  refine ⟨t, o, ht, (hostGone_iff ht _).mpr ⟨fun x hx => ?_, trivial⟩⟩
  cases hx

/-- A message that the host had sent before it was removed records its server again. -/
theorem removed_host_recorded : ∃ t o t' o',
    exec hostStep hostInit sampleRemoval = some (t, o) ∧
    exec hostStep t [.receive (.addServer sampleRemote) fun _ _ => true] = some (t', o') ∧
    ¬ HostGone 0x0100000A t.data t'.data := by
  refine ⟨_, _, _, _, rfl, rfl, fun h => ?_⟩
  have hrecorded := h.servers [0x73] { sampleRemote with isLocal := false } List.mem_cons_self
  cases hrecorded

end Cmsg.Sld
