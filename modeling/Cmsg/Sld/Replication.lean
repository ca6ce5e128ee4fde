import Cmsg.Sld.SyncKeys

/-! # The tables of two hosts

Host A sends host B all its servers when B is added and every change from then
on, over one connection. Whatever is on its way, the table of B and the messages
together say what A records. -/
namespace Cmsg.Sld
open Cmsg.Base Cmsg.Base.Runs

/-- Two hosts, and the messages from A to B that B has not processed yet. -/
structure Pair where
  a : Host
  b : Host
  channel : List SyncMessage

def pairInit : Pair := ⟨hostInit, hostInit, []⟩

inductive PairOp
  | onA (op : HostOp)
  | onB (op : HostOp)
  | deliver (sends : Nat → Nat → Bool)

/-- The messages to one of the hosts. -/
def messagesTo (peer : UInt32) (out : List (UInt32 × SyncMessage)) : List SyncMessage :=
  out.filterMap fun m => if m.1 = peer then some m.2 else none

/-- One step of either host. What A sends to B arrives in order. -/
def pairStep (addrB : UInt32) : Machine Pair PairOp Empty
  | p, .onA op =>
    (hostStep p.a op).map fun r =>
      ({ p with a := r.1, channel := p.channel ++ messagesTo addrB r.2 }, [])
  | p, .onB op => (hostStep p.b op).map fun r => ({ p with b := r.1 }, [])
  | p, .deliver sends =>
    match p.channel with
    | [] => none
    | message :: rest =>
      (hostStep p.b (.receive message sends)).map fun r => ({ p with b := r.1, channel := rest }, [])

/-- The order in which the table is iterated over: each key comes once. -/
def Lists (d : Data) (order : List CString) : Prop :=
  order.Nodup ∧ ∀ s, d.hashTable.lookup s ≠ none → s ∈ order

def HostOp.Iterates (d : Data) : HostOp → Prop
  | .addHost _ order => Lists d order
  | .deleteHost _ _ order => Lists d order
  | .onData _ _ order => Lists d order
  | _ => True

/-- The only thing that A does to the host B is to add it once, after its own
address was set. -/
def HostOp.AddsOnce (addrA addrB : UInt32) (t : Host) : HostOp → Prop
  | .addHost addr _ => addr = addrB → t.remoteSyncServer = true ∧ t.localIpAddr = addrA ∧
      addrB ∉ t.compClient.getD []
  | .deleteHost addr _ _ => addr ≠ addrB
  | _ => True

/-- The steps that the replication is made for. What B does by itself is no business
of A: nothing on B names a server at the address of A. -/
def PairOk (addrA addrB : UInt32) : Pair → PairOp → Prop
  | p, .onA op => op.Iterates p.a.data ∧ op.AddsOnce addrA addrB p.a
  | _, .onB op => op.Away addrA
  | _, .deliver _ => True

/-- The servers recorded for a service at an address, as they are told apart. -/
def serversAt (addr : UInt32) (d : Data) (s : CString) : List Endpoint :=
  ((serversOf d s).filter (serverHasAddr addr)).map serverKey

/-! ## What A sends -/

/-- A sends its changes to the peer. -/
structure SyncsWith (addr peer : UInt32) (t : Host) : Prop where
  server : t.remoteSyncServer = true
  address : t.localIpAddr = addr
  child : ∃ children, t.compClient = some children ∧ children.count peer = 1

section
variable {addr peer : UInt32} {t t' : Host} {P : ServiceInfo → Prop}

@[simp] theorem messagesTo_append (peer : UInt32) (out out' : List (UInt32 × SyncMessage)) :
    messagesTo peer (out ++ out') = messagesTo peer out ++ messagesTo peer out' :=
  List.filterMap_append

theorem messagesTo_children (peer : UInt32) (children : List UInt32) (m : SyncMessage) :
    messagesTo peer (children.map fun child => (child, m)) =
      List.replicate (children.count peer) m := by
  induction children with
  | nil => rfl
  | cons child children ih =>
    rw [List.map_cons, ← List.singleton_append, messagesTo_append, ih, List.count_cons]
    by_cases hc : child = peer
    · simp [messagesTo, hc, List.replicate_succ]
    · simp [messagesTo, hc]

theorem messagesTo_effect (h : SyncsWith addr peer t) (e : Effect) :
    messagesTo peer (effectMessages t e) = syncMessages addr e := by
  obtain ⟨children, hchildren, hcount⟩ := h.child
  have hone : ∀ x added, messagesTo peer (remoteSyncServerAddedRemoved t x added) =
      if serverHasAddr addr x then [if added then .addServer x else .removeServer x] else [] := by
    intro x added
    unfold remoteSyncServerAddedRemoved serverHasAddr
    rw [hchildren]
    cases hx : x.serverInfo.data with
    | unixInfo path => rfl
    | tcpInfo info =>
      obtain ⟨ipAddr, port, scopeId, vrfBindDev⟩ := info
      cases ipAddr with
      | ipv6 addr6 => rfl
      | ipv4 addr4 =>
        dsimp only
        rw [h.address]
        by_cases hsame : addr4 = addr
        · subst hsame
          simp [messagesTo_children, hcount]
        · simp [hsame, messagesTo]
  cases e with
  | remoteSyncServerAdded x => exact hone x true
  | remoteSyncServerRemoved x => exact hone x false
  | _ => rfl

theorem messagesTo_update (h : SyncsWith addr peer t) (d : Data) (order : List CString) :
    messagesTo peer (t.update d order).2 =
      order.flatMap fun s => (newEffects t.data d s).flatMap (syncMessages addr) := by
  have heffects : ∀ effects : List Effect, messagesTo peer (effects.flatMap (effectMessages t)) =
      effects.flatMap (syncMessages addr) := by
    intro effects
    induction effects with
    | nil => rfl
    | cons e effects ih =>
      rw [List.flatMap_cons, List.flatMap_cons, messagesTo_append, messagesTo_effect h, ih]
  unfold Host.update
  induction order with
  | nil => rfl
  | cons s order ih =>
    dsimp only at ih ⊢
    rw [List.flatMap_cons, List.flatMap_cons, messagesTo_append, heffects, ih]

/-- The messages of an operation are its changes, whatever the order in which it
came to the services. -/
theorem recordedAt_update (h : SyncsWith addr peer t) (hok : DataOk t.data)
    (hhome : ∀ s, Home s (serversOf t.data s)) {d : Data} (hrun : Runs P t.data d)
    {order : List CString} (hnodup : order.Nodup) (horder : ∀ s, s ∉ order → d.trace s = t.data.trace s)
    (s : CString) : recordedAt addr d s =
      (messagesTo peer (t.update d order).2).foldl (applyMessage addr s)
        (recordedAt addr t.data s) := by
  have hsynced : ∀ s', Synced addr s' (serversOf t.data s') (newEffects t.data d s')
      (serversOf d s') := by
    intro s'
    obtain ⟨effects, htrace, hrun'⟩ := hrun s'
    unfold newEffects
    rw [htrace, List.drop_left]
    exact hrun'.synced (hok s').distinct (hhome s')
  rw [messagesTo_update h, List.foldl_flatMap_single hnodup (a := s)]
  · split
    · exact (hsynced s).keys
    · next hs =>
      have hkeys := (hsynced s).keys
      have hnone : newEffects t.data d s = [] := by
        unfold newEffects
        rw [horder s hs]
        exact List.drop_length
      rw [hnone] at hkeys
      exact hkeys
  · intro s' _ hs' m hm keys
    exact ((hsynced s').about m hm).other (Ne.symm hs') keys

/-! ## The services an operation comes to -/

theorem trace_setService {d : Data} {service s : CString} (hs : s ≠ service)
    (entry : ServiceDataEntry) (effects : List Effect) :
    (d.setService service entry effects).trace s = d.trace s := by
  simp [Data.setService, hs]

theorem trace_removeServer (d : Data) (sends : Nat → Nat → Bool) (x : ServiceInfo) (isLocal : Bool)
    {s : CString} (hs : s ≠ x.service) : (dataRemoveServer sends d x isLocal).trace s = d.trace s := by
  unfold dataRemoveServer
  split
  · rfl
  · dsimp only
    split
    · rw [(trace_removeIfEmpty _ _).1]
      exact trace_setService hs _ _
    · rfl

theorem trace_addServer (d : Data) (sends : Nat → Nat → Bool) (x : ServiceInfo) (isLocal : Bool)
    {s : CString} (hs : s ≠ x.service) : (dataAddServer sends d x isLocal).trace s = d.trace s :=
  (trace_setService hs _ _).trans (trace_removeServer d sends { x with isLocal } isLocal hs)

theorem trace_foreachRemove {d : Data} {order : List CString} (horder : Lists d order)
    (f : ServiceDataEntry → ServiceDataEntry × List Effect) {s : CString} (hs : s ∉ order) :
    (d.foreachRemove f).trace s = d.trace s := by
  have hnone : d.hashTable.lookup s = none := by
    by_contra hsome
    exact hs (horder.2 s hsome)
  simp [Data.foreachRemove, hnone]

theorem trace_dataStep {d d' : Data} {op : Op} {sends : Nat → Nat → Bool} {o : List Empty}
    {order : List CString} (horder : Lists d order) (hs : dataStep d (op, sends) = some (d', o))
    {s : CString} (hnot : s ∉ op.services order) : d'.trace s = d.trace s := by
  cases op with
  | addServer x isLocal =>
    obtain ⟨rfl, _⟩ := Prod.mk.inj (Option.some.inj hs)
    exact trace_addServer d sends x isLocal (List.ne_of_not_mem_cons hnot)
  | removeServer x isLocal =>
    obtain ⟨rfl, _⟩ := Prod.mk.inj (Option.some.inj hs)
    exact trace_removeServer d sends x isLocal (List.ne_of_not_mem_cons hnot)
  | removeServersByAddr addr' =>
    obtain ⟨rfl, _⟩ := Prod.mk.inj (Option.some.inj hs)
    exact trace_foreachRemove horder _ hnot
  | removeByPid pid =>
    obtain ⟨rfl, _⟩ := Prod.mk.inj (Option.some.inj hs)
    exact trace_foreachRemove horder _ hnot
  | addListener info =>
    obtain ⟨d₁, ha, he⟩ := Option.map_eq_some_iff.mp hs
    obtain ⟨rfl, _⟩ := Prod.mk.inj he
    obtain ⟨transport, _, rfl⟩ := Option.map_eq_some_iff.mp ha
    have hne : s ≠ info.service := List.ne_of_not_mem_cons hnot
    simp [Data.setService, hne]
  | removeListener info =>
    obtain ⟨rfl, _⟩ := Prod.mk.inj (Option.some.inj hs)
    unfold dataRemoveListener
    split
    · rfl
    · dsimp only
      split
      · rfl
      · rw [(trace_removeIfEmpty _ _).1]
        exact trace_setService (List.ne_of_not_mem_cons hnot) _ _

theorem nodup_services (op : Op) {order : List CString} (h : order.Nodup) :
    (op.services order).Nodup := by
  cases op with
  | removeServersByAddr addr' => exact h
  | removeByPid pid => exact h
  | _ => exact List.nodup_singleton _

/-! ## The steps of A -/

theorem home_runs (hok : DataOk t.data) (hhome : ∀ s, Home s (serversOf t.data s)) {d : Data}
    (hrun : Runs P t.data d) (s : CString) : Home s (serversOf d s) := by
  obtain ⟨effects, _, hrun'⟩ := hrun s
  exact (@EntryRun.synced 0 _ _ _ _ _ hrun' (hok s).distinct (hhome s)).home

theorem SyncsWith.update (h : SyncsWith addr peer t) (d : Data) (order : List CString) :
    SyncsWith addr peer (t.update d order).1 := ⟨h.server, h.address, h.child⟩

/-- The changes of a host and the messages of them. -/
def Sends (addr peer : UInt32) (t : Host) (r : Host × List (UInt32 × SyncMessage)) : Prop :=
  SyncsWith addr peer r.1 ∧ ∀ s, recordedAt addr r.1.data s =
    (messagesTo peer r.2).foldl (applyMessage addr s) (recordedAt addr t.data s)

theorem sends_refl (h : SyncsWith addr peer t) : Sends addr peer t (t, []) := ⟨h, fun _ => rfl⟩

theorem sends_update (h : SyncsWith addr peer t) (hok : DataOk t.data)
    (hhome : ∀ s, Home s (serversOf t.data s)) {d : Data} (hrun : Runs P t.data d)
    {order : List CString} (hnodup : order.Nodup)
    (horder : ∀ s, s ∉ order → d.trace s = t.data.trace s) :
    Sends addr peer t (t.update d order) :=
  ⟨h.update d order, recordedAt_update h hok hhome hrun hnodup horder⟩

theorem sends_addServer (h : SyncsWith addr peer t) (hok : DataOk t.data)
    (hhome : ∀ s, Home s (serversOf t.data s)) (sends : Nat → Nat → Bool) (x : ServiceInfo)
    (isLocal : Bool) :
    Sends addr peer t (t.update (dataAddServer sends t.data x isLocal) [x.service]) :=
  sends_update h hok hhome (runs_addServer (P := fun _ => True) hok sends x isLocal trivial)
    (List.nodup_singleton _) fun _ hs => trace_addServer t.data sends x isLocal
      (List.ne_of_not_mem_cons hs)

theorem sends_bulkSyncLoop (sends : Nat → Nat → Bool) {data : List ServiceInfo} (k : Nat)
    (h : SyncsWith addr peer t) (hok : DataOk t.data) (hhome : ∀ s, Home s (serversOf t.data s)) :
    Sends addr peer t (bulkSyncLoop sends k t data) := by
  induction data generalizing k t with
  | nil => exact sends_refl h
  | cons info rest ih =>
    unfold bulkSyncLoop
    split
    · have hok₁ := dataOk_addServer hok (fun client j => sends client (k + j)) info false
      have hrun := runs_addServer (P := fun _ => True) hok (fun client j => sends client (k + j))
        info false trivial
      obtain ⟨hsync₁, hkeys₁⟩ := sends_addServer h hok hhome
        (fun client j => sends client (k + j)) info false
      obtain ⟨hsync₂, hkeys₂⟩ := ih (k + 2) hsync₁ hok₁ (home_runs hok hhome hrun)
      refine ⟨hsync₂, fun s => ?_⟩
      dsimp only
      rw [messagesTo_append, List.foldl_append, ← hkeys₁]
      exact hkeys₂ s
    · exact ih k h hok hhome

theorem SyncsWith.deleteHost (h : SyncsWith addr peer t) {addr' : UInt32} (hne : addr' ≠ peer) :
    SyncsWith addr peer (remoteSyncDeleteHost t addr') := by
  obtain ⟨children, hchildren, hcount⟩ := h.child
  have hcount' : (children.erase addr').count peer = 1 := by
    rw [List.count_erase_of_ne hne.symm]
    exact hcount
  have hsome : children.erase addr' ≠ [] := by
    intro hnil
    rw [hnil] at hcount'
    cases hcount'
  unfold remoteSyncDeleteHost
  rw [hchildren]
  dsimp only
  rw [if_neg hsome]
  exact ⟨h.server, h.address, _, rfl, hcount'⟩

/-- A host that syncs with the peer keeps doing so. -/
theorem sends_hostStep {op : HostOp} {o : List (UInt32 × SyncMessage)} (h : SyncsWith addr peer t)
    (hok : DataOk t.data) (hhome : ∀ s, Home s (serversOf t.data s)) (hiter : op.Iterates t.data)
    (honce : op.AddsOnce addr peer t) (hs : hostStep t op = some (t', o)) :
    Sends addr peer t (t', o) := by
  cases op with
  | addressSet addr' created =>
    obtain ⟨rfl, rfl⟩ := Prod.mk.inj (Option.some.inj hs)
    rw [remoteSyncAddressSet, if_pos h.server]
    exact sends_refl h
  | addHost addr' order =>
    obtain ⟨rfl, rfl⟩ := Prod.mk.inj (Option.some.inj hs)
    obtain ⟨children, hchildren, hcount⟩ := h.child
    have hne : addr' ≠ peer := by
      intro he
      obtain ⟨_, _, hnot⟩ := honce he
      rw [hchildren] at hnot
      have hmem : 0 < children.count peer := by
        rw [hcount]
        exact Nat.one_pos
      exact hnot (List.count_pos_iff.mp hmem)
    refine ⟨⟨h.server, h.address, addr' :: children, by simp [hchildren], ?_⟩, fun s => ?_⟩
    · rw [List.count_cons_of_ne hne, hcount]
    · simp [messagesTo, hne]
  | deleteHost addr' sends order =>
    obtain ⟨rfl, rfl⟩ := Prod.mk.inj (Option.some.inj hs)
    have hdata := remoteSyncDeleteHost_data t addr'
    have hok₁ : DataOk (remoteSyncDeleteHost t addr').data := by
      rw [hdata]
      exact hok
    have hhome₁ : ∀ s, Home s (serversOf (remoteSyncDeleteHost t addr').data s) := by
      rw [hdata]
      exact hhome
    have hiter₁ : Lists (remoteSyncDeleteHost t addr').data order := by
      rw [hdata]
      exact hiter
    obtain ⟨hsync, hkeys⟩ := sends_update (P := fun _ => False) (h.deleteHost honce) hok₁ hhome₁
      (runs_removeServersByAddr sends addr') hiter.1 fun s hs => trace_foreachRemove hiter₁ _ hs
    exact ⟨hsync, fun s => (hkeys s).trans
      (congrArg (fun d => List.foldl _ (recordedAt addr d s) _) hdata)⟩
  | onData op sends order =>
    obtain ⟨⟨d, o'⟩, hd, he⟩ := Option.map_eq_some_iff.mp hs
    obtain ⟨rfl, rfl⟩ := Prod.mk.inj he
    exact sends_update h hok hhome (runs_step hok hd) (nodup_services op hiter.1)
      fun s hs => trace_dataStep hiter hd hs
  | receive message sends =>
    have he := Option.some.inj hs
    rw [← he]
    cases message with
    | bulkSync data => exact sends_bulkSyncLoop sends 0 h hok hhome
    | addServer info =>
      rw [remoteSyncImpl_addServer]
      split
      · exact sends_addServer h hok hhome sends info false
      · exact sends_refl h
    | removeServer info =>
      rw [remoteSyncImpl_removeServer]
      split
      · exact sends_update h hok hhome
          (runs_removeServer (P := fun _ => False) sends info false) (List.nodup_singleton _)
          fun _ hs => trace_removeServer t.data sends info false (List.ne_of_not_mem_cons hs)
      · exact sends_refl h

/-! ## Before the peer is added -/

theorem not_mem_update {d : Data} {order : List CString} (hnot : peer ∉ t.compClient.getD []) :
    messagesTo peer (t.update d order).2 = [] := by
  refine List.filterMap_eq_nil_iff.mpr fun m hm => if_neg fun hpeer => hnot ?_
  obtain ⟨s, _, hm⟩ := List.mem_flatMap.mp hm
  obtain ⟨e, _, hm⟩ := List.mem_flatMap.mp hm
  have hchild : ∀ x added, m ∈ remoteSyncServerAddedRemoved t x added →
      m.1 ∈ t.compClient.getD [] := by
    intro x added hmem
    unfold remoteSyncServerAddedRemoved at hmem
    split at hmem
    · cases hmem
    · cases hmem
    · next children info hchildren _ =>
      split at hmem
      · cases hmem
      · split at hmem
        · cases hmem
        · obtain ⟨child, hc, rfl⟩ := List.mem_map.mp hmem
          rw [hchildren]
          exact hc
  rw [← hpeer]
  cases e with
  | remoteSyncServerAdded x => exact hchild x true hm
  | remoteSyncServerRemoved x => exact hchild x false hm
  | _ => cases hm

theorem not_mem_bulkSyncLoop (sends : Nat → Nat → Bool) {data : List ServiceInfo} (k : Nat)
    (hnot : peer ∉ t.compClient.getD []) :
    peer ∉ (bulkSyncLoop sends k t data).1.compClient.getD [] ∧
      messagesTo peer (bulkSyncLoop sends k t data).2 = [] := by
  induction data generalizing k t with
  | nil => exact ⟨hnot, rfl⟩
  | cons info rest ih =>
    unfold bulkSyncLoop
    split
    · obtain ⟨hnot₂, hnone₂⟩ := ih (k + 2) (t := (t.update
        (dataAddServer (fun client j => sends client (k + j)) t.data info false) [info.service]).1) hnot
      refine ⟨hnot₂, ?_⟩
      dsimp only
      rw [messagesTo_append, not_mem_update hnot]
      exact hnone₂
    · exact ih k hnot

/-- Nothing is sent to a host that is not added. -/
theorem quiet_hostStep {op : HostOp} {o : List (UInt32 × SyncMessage)}
    (hnot : peer ∉ t.compClient.getD []) (hadd : ∀ order, op ≠ .addHost peer order)
    (hs : hostStep t op = some (t', o)) :
    peer ∉ t'.compClient.getD [] ∧ messagesTo peer o = [] := by
  cases op with
  | addressSet addr' created =>
    obtain ⟨rfl, rfl⟩ := Prod.mk.inj (Option.some.inj hs)
    unfold remoteSyncAddressSet
    split
    · exact ⟨hnot, rfl⟩
    · exact ⟨hnot, rfl⟩
  | addHost addr' order =>
    obtain ⟨rfl, rfl⟩ := Prod.mk.inj (Option.some.inj hs)
    have hne : addr' ≠ peer := fun he => hadd order (by rw [he])
    refine ⟨fun hmem => ?_, by simp [messagesTo, hne]⟩
    rcases List.mem_cons.mp hmem with rfl | hmem
    · exact hne rfl
    · exact hnot hmem
  | deleteHost addr' sends order =>
    obtain ⟨rfl, rfl⟩ := Prod.mk.inj (Option.some.inj hs)
    have hnot₁ : peer ∉ (remoteSyncDeleteHost t addr').compClient.getD [] := by
      unfold remoteSyncDeleteHost
      split
      · exact hnot
      · next children hchildren =>
        rw [hchildren] at hnot
        dsimp only
        split
        · exact List.not_mem_nil
        · exact fun hmem => hnot (List.mem_of_mem_erase hmem)
    exact ⟨hnot₁, not_mem_update hnot₁⟩
  | onData op sends order =>
    obtain ⟨⟨d, o'⟩, hd, he⟩ := Option.map_eq_some_iff.mp hs
    obtain ⟨rfl, rfl⟩ := Prod.mk.inj he
    exact ⟨hnot, not_mem_update hnot⟩
  | receive message sends =>
    have he := Option.some.inj hs
    have hquiet : peer ∉ (remoteSyncImpl sends t message).1.compClient.getD [] ∧
        messagesTo peer (remoteSyncImpl sends t message).2 = [] := by
      cases message with
      | bulkSync data => exact not_mem_bulkSyncLoop sends 0 hnot
      | addServer info =>
        rw [remoteSyncImpl_addServer]
        split
        · exact ⟨hnot, not_mem_update hnot⟩
        · exact ⟨hnot, rfl⟩
      | removeServer info =>
        rw [remoteSyncImpl_removeServer]
        split
        · exact ⟨hnot, not_mem_update hnot⟩
        · exact ⟨hnot, rfl⟩
    rw [he] at hquiet
    exact hquiet

/-- The first message says what there is. -/
theorem bulkSync_recordedAt {d : Data} (hhome : ∀ s, Home s (serversOf d s)) {order : List CString}
    (horder : Lists d order) (s : CString) :
    (dataGetServersByAddr d addr order).foldl (addKey addr s) ∅ = recordedAt addr d s := by
  have hfold : ∀ (data : List ServiceInfo) keys, data.foldl (addKey addr s) keys =
      {k | k ∈ keys ∨ ∃ x ∈ data, x.service = s ∧ serverHasAddr addr x = true ∧ serverKey x = k} := by
    intro data
    induction data with
    | nil =>
      intro keys
      ext k
      simp
    | cons x data ih =>
      intro keys
      rw [List.foldl_cons, ih]
      ext k
      simp only [addKey, Set.mem_ofPred_eq, List.exists_mem_cons_iff]
      exact or_assoc
  rw [hfold]
  ext k
  constructor
  · rintro (hk | ⟨x, hx, hs, haddr, rfl⟩)
    · cases hk
    · obtain ⟨s', _, hx⟩ := List.mem_flatMap.mp (List.mem_reverse.mp hx)
      have hserver := (List.mem_filter.mp hx).1
      obtain rfl : s' = s := (hhome s' x hserver).symm.trans hs
      exact ⟨x, hserver, haddr, rfl⟩
  · rintro ⟨x, hx, haddr, rfl⟩
    refine .inr ⟨x, List.mem_reverse.mpr (List.mem_flatMap.mpr ⟨s, ?_, ?_⟩), hhome s x hx, haddr, rfl⟩
    · refine horder.2 s fun hnone => ?_
      simp [serversOf, getServiceEntryOrCreate, hnone] at hx
    · exact List.mem_filter.mpr ⟨hx, haddr⟩

end

/-! ## Both hosts -/

/-- **The table of B and the messages on their way say what A records.** -/
structure Replicated (addrA addrB : UInt32) (p : Pair) : Prop where
  okA : DataOk p.a.data
  okB : DataOk p.b.data
  homeA : ∀ s, Home s (serversOf p.a.data s)
  remoteB : RemoteAt addrA p.b.data
  before : addrB ∉ p.a.compClient.getD [] → p.channel = [] ∧ ∀ s, recordedAt addrA p.b.data s = ∅
  after : addrB ∈ p.a.compClient.getD [] → SyncsWith addrA addrB p.a ∧ ∀ s,
    recordedAt addrA p.a.data s =
      p.channel.foldl (applyMessage addrA s) (recordedAt addrA p.b.data s)

section
variable {addrA addrB : UInt32} {p p' : Pair}

theorem replicated_init (addrA addrB : UInt32) : Replicated addrA addrB pairInit where
  okA := dataOk_init
  okB := dataOk_init
  homeA _ _ hx := by cases hx
  remoteB _ _ hx := by cases hx
  before _ := ⟨rfl, fun s => Set.eq_empty_of_forall_notMem fun k ⟨_, hx, _⟩ => by cases hx⟩
  after hmem := by cases hmem

theorem SyncsWith.mem {t : Host} (h : SyncsWith addrA addrB t) : addrB ∈ t.compClient.getD [] := by
  obtain ⟨children, hchildren, hcount⟩ := h.child
  rw [hchildren]
  refine List.count_pos_iff.mp (show 0 < children.count addrB from ?_)
  rw [hcount]
  exact Nat.one_pos

/-- What A adds to itself is no concern of the rest. -/
theorem replicated_onA {op : HostOp} {a' : Host} {out : List (UInt32 × SyncMessage)}
    (h : Replicated addrA addrB p) (hiter : op.Iterates p.a.data) (honce : op.AddsOnce addrA addrB p.a)
    (hs : hostStep p.a op = some (a', out)) :
    Replicated addrA addrB { p with a := a', channel := p.channel ++ messagesTo addrB out } := by
  obtain ⟨hok', hrun⟩ := runs_hostStep h.okA hs
  have hhome' := home_runs h.okA h.homeA hrun
  by_cases hmem : addrB ∈ p.a.compClient.getD []
  · obtain ⟨hsync, hkeys⟩ := h.after hmem
    obtain ⟨hsync', hkeys'⟩ := sends_hostStep hsync h.okA h.homeA hiter honce hs
    refine ⟨hok', h.okB, hhome', h.remoteB, fun hnot => absurd hsync'.mem hnot, fun _ => ⟨hsync', ?_⟩⟩
    intro s
    dsimp only
    rw [List.foldl_append, ← hkeys s]
    exact hkeys' s
  · obtain ⟨hchannel, hempty⟩ := h.before hmem
    by_cases hadd : ∃ order, op = .addHost addrB order
    · obtain ⟨order, rfl⟩ := hadd
      obtain ⟨rfl, rfl⟩ := Prod.mk.inj (Option.some.inj hs)
      obtain ⟨hserver, haddress, _⟩ := honce rfl
      have hcount : (addrB :: p.a.compClient.getD []).count addrB = 1 := by
        rw [List.count_cons_self, List.count_eq_zero_of_not_mem hmem]
      have hsync : SyncsWith addrA addrB (remoteSyncAddHost p.a addrB order).1 :=
        ⟨hserver, haddress, _, rfl, hcount⟩
      refine ⟨hok', h.okB, hhome', h.remoteB, fun hnot => absurd hsync.mem hnot, fun _ => ⟨hsync, ?_⟩⟩
      intro s
      rw [hchannel, hempty s, haddress]
      simp only [messagesTo, List.filterMap_cons, if_true, List.filterMap_nil, List.nil_append,
        List.foldl_cons, List.foldl_nil]
      exact (bulkSync_recordedAt h.homeA hiter s).symm
    · obtain ⟨hnot', hnone⟩ := quiet_hostStep hmem (fun order he => hadd ⟨order, he⟩) hs
      refine ⟨hok', h.okB, hhome', h.remoteB, fun _ => ⟨?_, hempty⟩, fun hmem' => absurd hmem' hnot'⟩
      dsimp only
      rw [hchannel, hnone]
      rfl

theorem RemoteAt.runs {d d' : Data} {P : ServiceInfo → Prop} (h : RemoteAt addrA d)
    (hP : ∀ x, P x → serverHasAddr addrA x = true → x.isLocal = false) (hrun : Runs P d d') :
    RemoteAt addrA d' := by
  intro s
  obtain ⟨_, _, hrun'⟩ := hrun s
  exact (hrun'.all hP (h s)).1

theorem adds_away {op : HostOp} (h : op.Away addrA) {x : ServiceInfo} (hadds : op.Adds x) :
    serverHasAddr addrA x = false := by
  cases op with
  | onData op sends order =>
    cases op with
    | addServer y isLocal =>
      obtain rfl : x = { y with isLocal } := hadds
      exact h
    | _ => cases hadds
  | receive message sends =>
    cases message with
    | bulkSync data =>
      obtain ⟨y, hy, _, rfl⟩ := hadds
      exact h y hy
    | addServer y =>
      obtain ⟨_, rfl⟩ := hadds
      exact h
    | removeServer y => cases hadds
  | _ => cases hadds

theorem replicated_onB {op : HostOp} {b' : Host} {out : List (UInt32 × SyncMessage)}
    (h : Replicated addrA addrB p) (haway : op.Away addrA) (hs : hostStep p.b op = some (b', out)) :
    Replicated addrA addrB { p with b := b' } := by
  obtain ⟨hok', hrun⟩ := runs_hostStep h.okB hs
  have hkeys := recordedAt_away h.okB h.remoteB haway hs
  refine ⟨h.okA, hok', h.homeA, h.remoteB.runs (fun x hx haddr => ?_) hrun, fun hnot => ?_,
    fun hmem => ?_⟩
  · rw [adds_away haway hx] at haddr
    cases haddr
  · obtain ⟨hchannel, hempty⟩ := h.before hnot
    exact ⟨hchannel, fun s => (hkeys s).trans (hempty s)⟩
  · obtain ⟨hsync, hagree⟩ := h.after hmem
    refine ⟨hsync, fun s => ?_⟩
    dsimp only
    rw [hkeys s]
    exact hagree s

theorem replicated_deliver {message : SyncMessage} {rest : List SyncMessage}
    {sends : Nat → Nat → Bool} (h : Replicated addrA addrB p) (hchannel : p.channel = message :: rest) :
    Replicated addrA addrB
      { p with b := (remoteSyncImpl sends p.b message).1, channel := rest } := by
  obtain ⟨hok', hrun⟩ := @runs_hostStep _ _ (.receive message sends) _ h.okB rfl
  refine ⟨h.okA, hok', h.homeA, h.remoteB.runs (fun x hx _ => ?_) hrun, fun hnot => ?_, fun hmem => ?_⟩
  · cases message with
    | bulkSync data =>
      obtain ⟨_, _, _, rfl⟩ := hx
      rfl
    | addServer y =>
      obtain ⟨_, rfl⟩ := hx
      rfl
    | removeServer y => cases hx
  · have hempty := (h.before hnot).1
    rw [hchannel] at hempty
    cases hempty
  · obtain ⟨hsync, hagree⟩ := h.after hmem
    refine ⟨hsync, fun s => ?_⟩
    have hs := hagree s
    rw [hchannel, List.foldl_cons] at hs
    dsimp only
    rw [recordedAt_receive h.okB]
    exact hs

theorem replicated_step {op : PairOp} {o : List Empty} (h : Replicated addrA addrB p)
    (hok : PairOk addrA addrB p op) (hs : pairStep addrB p op = some (p', o)) :
    Replicated addrA addrB p' := by
  cases op with
  | onA op =>
    obtain ⟨⟨a', out⟩, ha, he⟩ := Option.map_eq_some_iff.mp hs
    obtain ⟨rfl, _⟩ := Prod.mk.inj he
    exact replicated_onA h hok.1 hok.2 ha
  | onB op =>
    obtain ⟨⟨b', out⟩, hb, he⟩ := Option.map_eq_some_iff.mp hs
    obtain ⟨rfl, _⟩ := Prod.mk.inj he
    exact replicated_onB h hok hb
  | deliver sends =>
    simp only [pairStep] at hs
    split at hs
    · cases hs
    · next message rest hchannel =>
      obtain ⟨rfl, _⟩ := Prod.mk.inj (Option.some.inj hs)
      exact replicated_deliver h hchannel

/-- B has been added once it was, and is not removed. -/
theorem added_step {op : PairOp} {o : List Empty} (h : Replicated addrA addrB p)
    (hok : PairOk addrA addrB p op) (hs : pairStep addrB p op = some (p', o))
    (hadded : addrB ∈ p.a.compClient.getD [] ∨ ∃ order, op = .onA (.addHost addrB order)) :
    addrB ∈ p'.a.compClient.getD [] := by
  cases op with
  | onA op =>
    obtain ⟨⟨a', out⟩, ha, he⟩ := Option.map_eq_some_iff.mp hs
    obtain ⟨rfl, _⟩ := Prod.mk.inj he
    rcases hadded with hmem | ⟨order, ho⟩
    · exact (sends_hostStep (h.after hmem).1 h.okA h.homeA hok.1 hok.2 ha).1.mem
    · obtain rfl := PairOp.onA.inj ho
      obtain ⟨rfl, _⟩ := Prod.mk.inj (Option.some.inj ha)
      exact List.mem_cons_self
  | onB op =>
    obtain ⟨⟨b', out⟩, hb, he⟩ := Option.map_eq_some_iff.mp hs
    obtain ⟨rfl, _⟩ := Prod.mk.inj he
    rcases hadded with hmem | ⟨order, ho⟩
    · exact hmem
    · cases ho
  | deliver sends =>
    simp only [pairStep] at hs
    split at hs
    · cases hs
    · obtain ⟨rfl, _⟩ := Prod.mk.inj (Option.some.inj hs)
      rcases hadded with hmem | ⟨order, ho⟩
      · exact hmem
      · cases ho

/-- **Tables are replicated.** In every run in which A adds B once, when B has
processed all messages it records for every service exactly the servers, up to
what tells them apart, that A records at the address it syncs with. -/
theorem tables_replicated {ops : List PairOp} {o : List Empty}
    (hok : Guarded (pairStep addrB) (PairOk addrA addrB) pairInit ops)
    (he : exec (pairStep addrB) pairInit ops = some (p, o))
    (hadded : ∃ order, .onA (.addHost addrB order) ∈ ops) (hchannel : p.channel = []) (s : CString) :
    (serversAt addrA p.b.data s).Perm (serversAt p.a.localIpAddr p.a.data s) := by
  have hrun := exec_track_guarded (C := PairOk addrA addrB)
    (R := fun p is _ => Replicated addrA addrB p ∧
      ((∃ order, .onA (.addHost addrB order) ∈ is) → addrB ∈ p.a.compClient.getD []))
    (fun p is os i p' o h hC hs => ⟨replicated_step h.1 hC hs, fun ⟨order, hmem⟩ => ?_⟩)
    ⟨replicated_init addrA addrB, fun ⟨_, hmem⟩ => by cases hmem⟩ hok he
  · obtain ⟨h, hmem⟩ := hrun
    obtain ⟨hsync, hagree⟩ := h.after (hmem hadded)
    have hkeys := hagree s
    rw [hchannel] at hkeys
    have hnodup : ∀ {d : Data}, DataOk d → (serversAt addrA d s).Nodup := fun hok =>
      (List.filter_sublist.map serverKey).nodup (hok s).distinct
    have hmem : ∀ (d : Data) k, k ∈ serversAt addrA d s ↔ k ∈ recordedAt addrA d s := by
      intro d k
      constructor
      · intro hk
        obtain ⟨x, hx, rfl⟩ := List.mem_map.mp hk
        exact ⟨x, (List.mem_filter.mp hx).1, (List.mem_filter.mp hx).2, rfl⟩
      · rintro ⟨x, hx, haddr, rfl⟩
        exact List.mem_map_of_mem (List.mem_filter.mpr ⟨hx, haddr⟩)
    rw [hsync.address]
    refine (List.perm_ext_iff_of_nodup (hnodup h.okB) (hnodup h.okA)).mpr fun k => ?_
    rw [hmem, hmem, hkeys]
    rfl
  · rcases List.mem_append.mp hmem with hmem | hmem
    · exact added_step h.1 hC hs (.inl (h.2 ⟨order, hmem⟩))
    · exact added_step h.1 hC hs (.inr ⟨order, (List.mem_singleton.mp hmem).symm⟩)

end

-- host A at 10.0.0.1 has one server when it adds host B at 10.0.0.2
def sampleServer : ServiceInfo := ⟨[0x73], ⟨true, .tcpInfo ⟨.ipv4 0x0100000A, 0x1234, 0, none⟩⟩, 7, true⟩

def sampleSync : List PairOp :=
  [.onA (.addressSet 0x0100000A true),
    .onA (.onData (.addServer sampleServer true) (fun _ _ => true) []),
    .onA (.addHost 0x0200000A [[0x73]]), .deliver fun _ _ => true]

theorem tables_replicated_sample : ∃ p o,
    exec (pairStep 0x0200000A) pairInit sampleSync = some (p, o) ∧
      serversAt p.a.localIpAddr p.a.data [0x73] = [.tcp true (.ipv4 0x0100000A) 0x1234] ∧
      (serversAt 0x0100000A p.b.data [0x73]).Perm (serversAt p.a.localIpAddr p.a.data [0x73]) := by
  have hrun : exec (pairStep 0x0200000A) pairInit sampleSync = some (_, _) := rfl
  have hlists : Lists dataInit [] := ⟨List.nodup_nil, fun _ h => absurd rfl h⟩
  refine ⟨_, _, hrun, rfl, @tables_replicated 0x0100000A _ _ _ _ ?_ hrun ⟨[[0x73]], ?_⟩ rfl _⟩
  · refine ⟨⟨trivial, trivial⟩, ⟨hlists, trivial⟩, ⟨⟨List.nodup_singleton _, fun s hs => ?_⟩,
      fun _ => ⟨rfl, rfl, List.not_mem_nil⟩⟩, trivial, trivial⟩
    by_contra hother
    have hne : s ≠ [0x73] := fun he => hother (List.mem_singleton.mpr he)
    exact hs (if_neg hne)
  · exact List.mem_cons_of_mem _ (List.mem_cons_of_mem _ List.mem_cons_self)

end Cmsg.Sld
