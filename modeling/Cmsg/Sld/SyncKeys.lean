import Mathlib.Data.Set.Insert
import Cmsg.Sld.RemoteSync

/-! # The servers at one address

What a replica has to know of a host is, for every service, which servers there
are at the address of the host, up to what tells servers apart. The messages of
the host are changes of these sets. -/
namespace Cmsg.Sld
open Cmsg.Base Cmsg.Base.Runs

/-- The servers at the address, up to `cmsg_transport_info_compare`. -/
def keysAt (addr : UInt32) (servers : List ServiceInfo) : Set Endpoint :=
  {k | ∃ x ∈ servers, serverHasAddr addr x = true ∧ serverKey x = k}

/-- And those that are recorded for a service. -/
def recordedAt (addr : UInt32) (d : Data) (service : CString) : Set Endpoint :=
  keysAt addr (serversOf d service)

/-- A server is added to the set of a service. -/
def addKey (addr : UInt32) (service : CString) (keys : Set Endpoint) (x : ServiceInfo) :
    Set Endpoint :=
  {k | k ∈ keys ∨ x.service = service ∧ serverHasAddr addr x = true ∧ serverKey x = k}

/-- A server is removed from the set of a service. -/
def removeKey (service : CString) (keys : Set Endpoint) (x : ServiceInfo) : Set Endpoint :=
  {k | k ∈ keys ∧ ¬ (x.service = service ∧ serverKey x = k)}

/-- What a message means for the set of a service. -/
def applyMessage (addr : UInt32) (service : CString) (keys : Set Endpoint) :
    SyncMessage → Set Endpoint
  | .bulkSync data => data.foldl (addKey addr service) keys
  | .addServer x => addKey addr service keys x
  | .removeServer x => removeKey service keys x

/-- The messages that tell of an effect. -/
def syncMessages (addr : UInt32) : Effect → List SyncMessage
  | .remoteSyncServerAdded x => if serverHasAddr addr x then [.addServer x] else []
  | .remoteSyncServerRemoved x => if serverHasAddr addr x then [.removeServer x] else []
  | _ => []

section
variable {addr : UInt32} {s : CString}

/-! ## Sets of servers -/

theorem keysAt_perm {servers servers' : List ServiceInfo} (h : servers.Perm servers') :
    keysAt addr servers = keysAt addr servers' := by
  ext k
  simp only [keysAt, Set.mem_ofPred_eq, h.mem_iff]

/-- Servers that do not have the address do not matter. -/
theorem addKey_of_not {x : ServiceInfo} (hx : serverHasAddr addr x = false) (keys : Set Endpoint) :
    addKey addr s keys x = keys := by
  ext k
  simp [addKey, hx]

theorem removeKey_keysAt_of_not {x : ServiceInfo} (hx : serverHasAddr addr x = false)
    (servers : List ServiceInfo) : removeKey s (keysAt addr servers) x = keysAt addr servers := by
  ext k
  refine ⟨And.left, fun hk => ⟨hk, fun hkey => ?_⟩⟩
  obtain ⟨y, _, hy, rfl⟩ := hk
  rw [serverHasAddr_congr hkey.2, hy] at hx
  cases hx

/-- Removing what is found by its key. -/
theorem keysAt_removed {servers servers' : List ServiceInfo} {x y : ServiceInfo}
    (hdistinct : (servers.map serverKey).Nodup) (hservers : servers.Perm (y :: servers'))
    (hkey : serverKey y = serverKey x) (hs : x.service = s) :
    keysAt addr servers' = removeKey s (keysAt addr servers) x := by
  have hnodup := (hservers.map serverKey).nodup_iff.mp hdistinct
  rw [List.map_cons, List.nodup_cons, hkey] at hnodup
  rw [keysAt_perm hservers]
  ext k
  constructor
  · rintro ⟨z, hz, haddr, rfl⟩
    refine ⟨⟨z, List.mem_cons_of_mem _ hz, haddr, rfl⟩, fun h => hnodup.1 ?_⟩
    rw [h.2]
    exact List.mem_map_of_mem hz
  · rintro ⟨⟨z, hz, haddr, rfl⟩, hne⟩
    rcases List.mem_cons.mp hz with rfl | hz
    · exact absurd ⟨hs, hkey.symm⟩ hne
    · exact ⟨z, hz, haddr, rfl⟩

theorem keysAt_cons {x : ServiceInfo} (hs : x.service = s) (servers : List ServiceInfo) :
    keysAt addr (x :: servers) = addKey addr s (keysAt addr servers) x := by
  ext k
  simp only [keysAt, addKey, Set.mem_ofPred_eq, List.exists_mem_cons_iff, hs, true_and]
  exact or_comm

theorem addKey_removeKey (x : ServiceInfo) (servers : List ServiceInfo) :
    addKey addr s (removeKey s (keysAt addr servers) x) x = addKey addr s (keysAt addr servers) x := by
  by_cases hx : serverHasAddr addr x = true
  · ext k
    refine ⟨Or.imp_left And.left, fun hk => ?_⟩
    by_cases hkey : x.service = s ∧ serverKey x = k
    · exact .inr ⟨hkey.1, hx, hkey.2⟩
    · exact .inl ⟨hk.resolve_right fun h => hkey ⟨h.1, h.2.2⟩, hkey⟩
  · rw [removeKey_keysAt_of_not (Bool.eq_false_iff.mpr hx)]

/-- Servers that do not use TCP have no address. -/
theorem serverHasAddr_of_not_tcp {x : ServiceInfo} (h : ¬ isTcp x = true) (addr : UInt32) :
    serverHasAddr addr x = false := by
  unfold isTcp at h
  unfold serverHasAddr
  cases hx : x.serverInfo.data with
  | unixInfo path => rfl
  | tcpInfo info => simp [hx] at h

/-! ## What an operation is for the sets -/

/-- The servers of a service are recorded under its name. -/
def Home (s : CString) (servers : List ServiceInfo) : Prop := ∀ x ∈ servers, x.service = s

/-- A message about one server of the service. -/
def SyncMessage.About (s : CString) : SyncMessage → Prop
  | .bulkSync _ => False
  | .addServer x => x.service = s
  | .removeServer x => x.service = s

theorem SyncMessage.About.other {m : SyncMessage} (h : m.About s) {s' : CString} (hs : s' ≠ s)
    (keys : Set Endpoint) : applyMessage addr s' keys m = keys := by
  cases m with
  | bulkSync data => cases h
  | addServer x =>
    have hx : ¬ x.service = s' := fun he => hs (he.symm.trans h)
    ext k
    simp [applyMessage, addKey, hx]
  | removeServer x =>
    have hx : ¬ x.service = s' := fun he => hs (he.symm.trans h)
    ext k
    simp [applyMessage, removeKey, hx]

/-- The messages of the effects lead from the servers there were to those there are. -/
structure Synced (addr : UInt32) (s : CString) (servers : List ServiceInfo) (effects : List Effect)
    (servers' : List ServiceInfo) : Prop where
  distinct : (servers'.map serverKey).Nodup
  home : Home s servers'
  about : ∀ m ∈ effects.flatMap (syncMessages addr), m.About s
  keys : keysAt addr servers' =
    (effects.flatMap (syncMessages addr)).foldl (applyMessage addr s) (keysAt addr servers)

variable {P : ServiceInfo → Prop} {entry entry₁ : ServiceDataEntry} {effects : List Effect}

theorem syncMessages_heard {servers : List ServiceInfo} (h : ∀ e ∈ effects, Heard servers e) :
    effects.flatMap (syncMessages addr) = [] := by
  refine List.flatMap_eq_nil_iff.mpr fun e he => ?_
  have hheard := h e he
  cases e with
  | remoteSyncServerAdded x => cases hheard
  | remoteSyncServerRemoved x => cases hheard
  | _ => rfl

theorem EntryStep.synced (h : EntryStep s P entry effects entry₁)
    (hdistinct : (entry.servers.map serverKey).Nodup) (hhome : Home s entry.servers) :
    Synced addr s entry.servers effects entry₁.servers := by
  cases h with
  | @heard servers servers' _ _ _ hservers heffects =>
    have hnone := @syncMessages_heard addr _ _ heffects
    refine ⟨(hservers.map serverKey).nodup_iff.mp hdistinct,
      fun x hx => hhome x (hservers.mem_iff.mpr hx), ?_, ?_⟩
    · rw [hnone]
      exact fun _ hm => by cases hm
    · rw [hnone]
      exact (keysAt_perm hservers).symm
  | @removed servers servers' _ _ events x y hservers hkey hservice hevents =>
    have hx : x.service = s := by
      rcases hservice with hx | rfl
      · exact hx
      · exact hhome x (hservers.mem_iff.mpr List.mem_cons_self)
    have hnone : events.flatMap (syncMessages addr) = [] := by
      refine List.flatMap_eq_nil_iff.mpr fun e he => ?_
      obtain ⟨_, _, rfl⟩ := hevents e he
      rfl
    have hnodup := (hservers.map serverKey).nodup_iff.mp hdistinct
    have hkeys := @keysAt_removed addr _ _ _ _ _ hdistinct hservers hkey hx
    refine ⟨(List.nodup_cons.mp hnodup).2,
      fun z hz => hhome z (hservers.mem_iff.mpr (List.mem_cons_of_mem _ hz)), ?_, ?_⟩
    · intro m hm
      rw [List.flatMap_append, hnone, List.nil_append, List.flatMap_singleton, syncMessages] at hm
      split at hm
      · obtain rfl := List.mem_singleton.mp hm
        exact hx
      · cases hm
    · rw [List.flatMap_append, hnone, List.nil_append, List.flatMap_singleton, syncMessages, hkeys]
      split
      · rfl
      · next haddr => exact removeKey_keysAt_of_not (Bool.eq_false_iff.mpr haddr) servers
  | @added servers _ _ events x hx hservice hfresh hevents =>
    have hnone : events.flatMap (syncMessages addr) = [] := by
      refine List.flatMap_eq_nil_iff.mpr fun e he => ?_
      obtain ⟨_, _, rfl⟩ := hevents e he
      rfl
    refine ⟨List.nodup_cons.mpr ⟨hfresh, hdistinct⟩, fun z hz => ?_, ?_, ?_⟩
    · rcases List.mem_cons.mp hz with rfl | hz
      · exact hservice
      · exact hhome z hz
    · intro m hm
      rw [List.flatMap_append, hnone, List.nil_append, List.flatMap_singleton, syncMessages] at hm
      split at hm
      · obtain rfl := List.mem_singleton.mp hm
        exact hservice
      · cases hm
    · rw [List.flatMap_append, hnone, List.nil_append, List.flatMap_singleton, syncMessages,
        keysAt_cons hservice]
      split
      · rfl
      · next haddr => exact addKey_of_not (Bool.eq_false_iff.mpr haddr) _

theorem EntryRun.synced (h : EntryRun s P entry effects entry₁)
    (hdistinct : (entry.servers.map serverKey).Nodup) (hhome : Home s entry.servers) :
    Synced addr s entry.servers effects entry₁.servers := by
  induction h with
  | refl => exact ⟨hdistinct, hhome, (fun _ hm => by cases hm), rfl⟩
  | step _ hstep ih =>
    have hstep' := @EntryStep.synced addr _ _ _ _ _ hstep ih.distinct ih.home
    refine ⟨hstep'.distinct, hstep'.home, fun m hm => ?_, ?_⟩
    · rw [List.flatMap_append] at hm
      rcases List.mem_append.mp hm with hm | hm
      · exact ih.about m hm
      · exact hstep'.about m hm
    · rw [List.flatMap_append, List.foldl_append, ← ih.keys, hstep'.keys]

end

/-! ## What a message is for the sets -/

section
variable {addr : UInt32} {d : Data}

theorem recordedAt_removeServer (hok : DataOk d) (sends : Nat → Nat → Bool) (x : ServiceInfo)
    (isLocal : Bool) (s : CString) : recordedAt addr (dataRemoveServer sends d x isLocal) s =
      removeKey s (recordedAt addr d s) x := by
  unfold recordedAt
  rw [serversOf_removeServer]
  by_cases hs : s = x.service
  · subst hs
    rw [if_pos rfl]
    by_cases hany : ∃ y ∈ serversOf d x.service, findServer y x = true
    · obtain ⟨y, hy, hservers⟩ := exists_removed (List.any_eq_true.mpr hany)
      exact keysAt_removed (hok x.service).distinct hservers hy rfl
    · rw [List.eraseP_of_forall_not fun y hy hfound => hany ⟨y, hy, hfound⟩]
      ext k
      refine ⟨fun hk => ⟨hk, fun hkey => ?_⟩, And.left⟩
      obtain ⟨y, hy, _, rfl⟩ := hk
      exact hany ⟨y, hy, by rw [findServer_eq, hkey.2, beq_self_eq_true]⟩
  · rw [if_neg hs]
    ext k
    exact ⟨fun hk => ⟨hk, fun hkey => hs hkey.1.symm⟩, And.left⟩

theorem recordedAt_addServer (hok : DataOk d) (sends : Nat → Nat → Bool) (x : ServiceInfo)
    (isLocal : Bool) (s : CString) : recordedAt addr (dataAddServer sends d x isLocal) s =
      addKey addr s (recordedAt addr d s) x := by
  have hremoved := @recordedAt_removeServer addr _ hok sends x isLocal s
  unfold recordedAt at hremoved ⊢
  rw [serversOf_removeServer] at hremoved
  rw [serversOf_addServer]
  by_cases hs : s = x.service
  · subst hs
    rw [if_pos rfl] at hremoved ⊢
    have hcons : keysAt addr ({ x with isLocal } :: (serversOf d x.service).eraseP (findServer · x)) =
        addKey addr x.service
          (keysAt addr ((serversOf d x.service).eraseP (findServer · x))) { x with isLocal } :=
      keysAt_cons rfl _
    rw [hcons, hremoved]
    exact addKey_removeKey x (serversOf d x.service)
  · rw [if_neg hs]
    ext k
    exact ⟨.inl, fun hk => hk.resolve_right fun h => hs h.1.symm⟩

/-- A replica that processes a message records what the message means. -/
theorem recordedAt_bulkSyncLoop (sends : Nat → Nat → Bool) {data : List ServiceInfo} (k : Nat)
    {t : Host} (hok : DataOk t.data) (s : CString) :
    recordedAt addr (bulkSyncLoop sends k t data).1.data s =
      data.foldl (addKey addr s) (recordedAt addr t.data s) := by
  induction data generalizing k t with
  | nil => rfl
  | cons info rest ih =>
    unfold bulkSyncLoop
    split
    · have hok₁ := dataOk_addServer hok (fun client j => sends client (k + j)) info false
      have hrest := ih (t := { t with data := _ }) (k + 2) hok₁
      rw [List.foldl_cons, ← recordedAt_addServer hok (fun client j => sends client (k + j)) info false]
      exact hrest
    · next htcp =>
      rw [List.foldl_cons, addKey_of_not (serverHasAddr_of_not_tcp htcp addr)]
      exact ih k hok

theorem recordedAt_receive {t : Host} (hok : DataOk t.data) (sends : Nat → Nat → Bool)
    (message : SyncMessage) (s : CString) :
    recordedAt addr (remoteSyncImpl sends t message).1.data s =
      applyMessage addr s (recordedAt addr t.data s) message := by
  cases message with
  | bulkSync data => exact recordedAt_bulkSyncLoop sends 0 hok s
  | addServer x =>
    rw [remoteSyncImpl_addServer]
    split
    · exact recordedAt_addServer hok sends x false s
    · next htcp => exact (addKey_of_not (serverHasAddr_of_not_tcp htcp addr) _).symm
  | removeServer x =>
    rw [remoteSyncImpl_removeServer]
    split
    · exact recordedAt_removeServer hok sends x false s
    · next htcp => exact (removeKey_keysAt_of_not (serverHasAddr_of_not_tcp htcp addr) _).symm

/-! ## What is no business of the host -/

/-- The operation names no server at the address. -/
def Op.Away (addr : UInt32) : Op → Prop
  | .addServer x _ => serverHasAddr addr x = false
  | .removeServer x _ => serverHasAddr addr x = false
  | .removeServersByAddr addr' => addr' ≠ addr
  | _ => True

def SyncMessage.Away (addr : UInt32) : SyncMessage → Prop
  | .bulkSync data => ∀ x ∈ data, serverHasAddr addr x = false
  | .addServer x => serverHasAddr addr x = false
  | .removeServer x => serverHasAddr addr x = false

def HostOp.Away (addr : UInt32) : HostOp → Prop
  | .deleteHost addr' _ _ => addr' ≠ addr
  | .onData op _ _ => op.Away addr
  | .receive message _ => message.Away addr
  | _ => True

/-- The servers at the address are remote ones. -/
def RemoteAt (addr : UInt32) (d : Data) : Prop :=
  ∀ s, ∀ x ∈ serversOf d s, serverHasAddr addr x = true → x.isLocal = false

theorem keysAt_filter {servers : List ServiceInfo} {p : ServiceInfo → Bool}
    (hp : ∀ x ∈ servers, serverHasAddr addr x = true → p x = true) :
    keysAt addr (servers.filter p) = keysAt addr servers := by
  ext k
  constructor
  · rintro ⟨x, hx, haddr, rfl⟩
    exact ⟨x, (List.mem_filter.mp hx).1, haddr, rfl⟩
  · rintro ⟨x, hx, haddr, rfl⟩
    exact ⟨x, List.mem_filter.mpr ⟨hx, hp x hx haddr⟩, haddr, rfl⟩

theorem recordedAt_removeServersByAddr {addr' : UInt32} (haddr : addr' ≠ addr)
    (sends : Nat → Nat → Bool) (s : CString) :
    recordedAt addr (dataRemoveServersByAddr sends d addr') s = recordedAt addr d s := by
  unfold recordedAt
  rw [serversOf_removeServersByAddr]
  refine keysAt_filter fun x _ hx => ?_
  unfold serverHasAddr at hx ⊢
  cases hdata : x.serverInfo.data with
  | unixInfo path => rfl
  | tcpInfo info =>
    rw [hdata] at hx
    dsimp only at hx ⊢
    rw [beq_iff_eq.mp hx]
    simp [Ne.symm haddr]

theorem recordedAt_dataStep {d' : Data} {op : Op} {sends : Nat → Nat → Bool} {o : List Empty}
    (hok : DataOk d) (hremote : RemoteAt addr d) (haway : op.Away addr)
    (hs : dataStep d (op, sends) = some (d', o)) (s : CString) :
    recordedAt addr d' s = recordedAt addr d s := by
  cases op with
  | addServer x isLocal =>
    obtain ⟨rfl, _⟩ := Prod.mk.inj (Option.some.inj hs)
    rw [recordedAt_addServer hok, addKey_of_not haway]
  | removeServer x isLocal =>
    obtain ⟨rfl, _⟩ := Prod.mk.inj (Option.some.inj hs)
    rw [recordedAt_removeServer hok, recordedAt, removeKey_keysAt_of_not haway]
  | removeServersByAddr addr' =>
    obtain ⟨rfl, _⟩ := Prod.mk.inj (Option.some.inj hs)
    exact recordedAt_removeServersByAddr haway sends s
  | removeByPid pid =>
    obtain ⟨rfl, _⟩ := Prod.mk.inj (Option.some.inj hs)
    unfold recordedAt
    rw [serversOf_removeByPid]
    refine keysAt_filter fun x hx haddr => ?_
    rw [hremote s x hx haddr]
    rfl
  | addListener info =>
    obtain ⟨d₁, ha, he⟩ := Option.map_eq_some_iff.mp hs
    obtain ⟨rfl, _⟩ := Prod.mk.inj he
    rw [recordedAt, serversOf_addListener ha, recordedAt]
  | removeListener info =>
    obtain ⟨rfl, _⟩ := Prod.mk.inj (Option.some.inj hs)
    rw [recordedAt, serversOf_removeListener, recordedAt]

theorem foldl_addKey_of_not {data : List ServiceInfo} (h : ∀ x ∈ data, serverHasAddr addr x = false)
    (s : CString) (keys : Set Endpoint) : data.foldl (addKey addr s) keys = keys := by
  induction data with
  | nil => rfl
  | cons x data ih =>
    rw [List.foldl_cons, addKey_of_not (h x List.mem_cons_self)]
    exact ih fun y hy => h y (List.mem_cons_of_mem _ hy)

theorem recordedAt_away {t t' : Host} {op : HostOp} {o : List (UInt32 × SyncMessage)}
    (hok : DataOk t.data) (hremote : RemoteAt addr t.data) (haway : op.Away addr)
    (hs : hostStep t op = some (t', o)) (s : CString) :
    recordedAt addr t'.data s = recordedAt addr t.data s := by
  cases op with
  | addressSet addr' created =>
    obtain ⟨rfl, _⟩ := Prod.mk.inj (Option.some.inj hs)
    unfold remoteSyncAddressSet
    split
    · rfl
    · rfl
  | addHost addr' order =>
    obtain ⟨rfl, _⟩ := Prod.mk.inj (Option.some.inj hs)
    rfl
  | deleteHost addr' sends order =>
    obtain ⟨rfl, _⟩ := Prod.mk.inj (Option.some.inj hs)
    simp only [remoteSyncDeleteHost_data]
    exact recordedAt_removeServersByAddr haway sends s
  | onData op sends order =>
    obtain ⟨⟨d, o'⟩, hd, he⟩ := Option.map_eq_some_iff.mp hs
    obtain ⟨rfl, _⟩ := Prod.mk.inj he
    exact recordedAt_dataStep hok hremote haway hd s
  | receive message sends =>
    have he := congrArg Prod.fst (Option.some.inj hs)
    have hreceived := @recordedAt_receive addr _ hok sends message s
    rw [show (remoteSyncImpl sends t message).1 = t' from he] at hreceived
    rw [hreceived]
    cases message with
    | bulkSync data => exact foldl_addKey_of_not haway s _
    | addServer x => exact addKey_of_not haway _
    | removeServer x => exact removeKey_keysAt_of_not haway _

end

end Cmsg.Sld
