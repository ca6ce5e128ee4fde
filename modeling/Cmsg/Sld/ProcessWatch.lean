import Cmsg.Base.Lists
import Cmsg.Base.Sums
import Cmsg.Sld.Unlisten

/-! # Watching processes

The daemon keeps a pidfd open for every process that it has recorded a local
server or a listener of, and counts the records. When the process exits the
pidfd becomes readable, and everything recorded of the process is removed. -/
namespace Cmsg.Sld
open Cmsg.Base Cmsg.Base.Runs

/-! ## The table of watches -/

/-- The hash table of `process_watch.c`: the reference count of each entry. -/
abbrev Watches := UInt32 → Option Nat

/-- `create_process_watch`, for a process that exists; `opens` tells whether
`pidfd_open` succeeds. -/
def createProcessWatch (opens : Bool) (w : Watches) (pid : UInt32) : Watches :=
  if opens then Function.update w pid (some 1) else w

/-- `process_watch_add` -/
def processWatchAdd (opens : Bool) (w : Watches) (pid : UInt32) : Watches :=
  match w pid with
  | some ref => Function.update w pid (some (ref + 1))
  | none => createProcessWatch opens w pid

/-- `process_watch_remove` -/
def processWatchRemove (w : Watches) (pid : UInt32) : Watches :=
  match w pid with
  | some ref => Function.update w pid (if ref = 1 then none else some (ref - 1))
  | none => w

/-- What an effect of the daemon does to the watches. -/
def watchStep (opens : Bool) (w : Watches) : Effect → Watches
  | .processWatchAdd pid => processWatchAdd opens w pid
  | .processWatchRemove pid => processWatchRemove w pid
  | _ => w

/-! ## The daemon -/

structure Daemon where
  data : Data
  watches : Watches

def daemonInit : Daemon := ⟨dataInit, fun _ => none⟩

/-- The calls of `process_watch_add` and `process_watch_remove` of an operation on
one service. -/
def Daemon.watch (t : Daemon) (opens : Bool) (service : CString) (d : Data) : Daemon :=
  ⟨d, ((d.trace service).drop (t.data.trace service).length).foldl (watchStep opens) t.watches⟩

inductive DaemonOp
  | addServer (serverInfo : ServiceInfo) (isLocal : Bool)
  | removeServer (serverInfo : ServiceInfo) (isLocal : Bool)
  | removeServersByAddr (addr : UInt32)
  | addListener (info : ListenerInfo)
  | removeListener (info : ListenerInfo)
  | pidfdRead (pid : UInt32)
deriving DecidableEq, Repr

/-- What the environment decides about one operation: the sends that succeed and
whether a pidfd can be opened. -/
structure Outcome where
  sends : Nat → Nat → Bool
  opens : Bool

/-- One operation of the daemon. `pidfd_read` is called for a pid that has a watch
and takes the watch away; the removals of several servers call nothing of
`process_watch.c`. -/
def daemonStep : Machine Daemon (DaemonOp × Outcome) Empty
  | t, (.addServer serverInfo isLocal, out) =>
    some (t.watch out.opens serverInfo.service
      (dataAddServer out.sends t.data serverInfo isLocal), [])
  | t, (.removeServer serverInfo isLocal, out) =>
    some (t.watch out.opens serverInfo.service
      (dataRemoveServer out.sends t.data serverInfo isLocal), [])
  | t, (.removeServersByAddr addr, out) =>
    some ({ t with data := dataRemoveServersByAddr out.sends t.data addr }, [])
  | t, (.addListener info, out) =>
    (dataAddListener out.sends t.data info).map fun d => (t.watch out.opens info.service d, [])
  | t, (.removeListener info, out) =>
    some (t.watch out.opens info.service (dataRemoveListener t.data info), [])
  | t, (.pidfdRead pid, out) =>
    match t.watches pid with
    | none => none
    | some _ => some (⟨dataRemoveByPid out.sends t.data pid, Function.update t.watches pid none⟩, [])

/-! ## What is recorded of a process -/

/-- The server counts for the process. -/
def serverOf (pid : UInt32) (serviceInfo : ServiceInfo) : Bool :=
  serviceInfo.isLocal && serviceInfo.pid == pid

/-- The servers and listeners of one service that count for the process. -/
def recordedIn (entry : ServiceDataEntry) (pid : UInt32) : Nat :=
  entry.servers.countP (serverOf pid) + entry.listeners.countP (·.pid == pid)

/-- And those of all services. -/
noncomputable def recorded (d : Data) (pid : UInt32) : Nat :=
  ∑ᶠ s, recordedIn (getServiceEntryOrCreate d s) pid

/-- The watches count what there is. -/
def Counted (w : Watches) (n : UInt32 → Nat) : Prop :=
  ∀ pid, w pid = if n pid = 0 then none else some (n pid)

/-- The table of services is finite. -/
def FiniteTable (d : Data) : Prop := {s | d.hashTable.lookup s ≠ none}.Finite

/-- **What the watches are for.** The table of services is finite, and the watch of
every process counts the servers and listeners recorded of it. -/
structure WatchesCount (t : Daemon) : Prop where
  finite : FiniteTable t.data
  counted : Counted t.watches (recorded t.data)

/-! ## The steps that keep the count -/

/-- The listeners are all sent the `k`-th notification of an operation. -/
def Sent (sends : Nat → Nat → Bool) (k : Nat) (listeners : List ListenerData) : Prop :=
  ∀ l ∈ listeners, sends l.client k = true

/-- The server that `data_remove_server` finds is one of the same process where it
counts, and where it does not, the process of the request has no watch. -/
def RemoveKept (w : Watches) (d : Data) (sends : Nat → Nat → Bool) (serverInfo : ServiceInfo)
    (isLocal : Bool) : Prop :=
  ∀ x, (getServiceEntryOrCreate d serverInfo.service).servers.find? (findServer · serverInfo) =
      some x →
    Sent sends 0 (listenersOf d serverInfo.service) ∧
      if x.isLocal then isLocal = true ∧ x.pid = serverInfo.pid
      else isLocal = true → w serverInfo.pid = none

/-- No notification drops a listener, no local server has an address that is
removed, and a server that is replaced or removed is the one of the request. -/
def WatchKept : Daemon → DaemonOp × Outcome → Prop
  | t, (.addServer serverInfo isLocal, out) =>
    RemoveKept t.watches t.data out.sends serverInfo isLocal ∧
      Sent out.sends 1 (listenersOf t.data serverInfo.service) ∧ (isLocal = true → out.opens = true)
  | t, (.removeServer serverInfo isLocal, out) =>
    RemoveKept t.watches t.data out.sends serverInfo isLocal
  | t, (.removeServersByAddr addr, out) => ∀ s,
    let entry := getServiceEntryOrCreate t.data s
    (∀ x ∈ entry.servers, serverHasAddr addr x = true → x.isLocal = false) ∧
      ∀ k < (entry.servers.filter (serverHasAddr addr)).length, Sent out.sends k entry.listeners
  | _, (.addListener _, out) => out.opens = true
  | _, (.removeListener _, _) => True
  | t, (.pidfdRead pid, out) => ∀ s,
    let entry := getServiceEntryOrCreate t.data s
    ∀ k < (entry.servers.filter (serverOf pid)).length,
      Sent out.sends k (entry.listeners.filter fun l => l.pid != pid)

/-! ## Counting one record more or less -/

section
variable {w : Watches} {n n' : UInt32 → Nat} {pid : UInt32}

theorem Counted.add (h : Counted w n) (hn : ∀ q, n' q = n q + if pid == q then 1 else 0) :
    Counted (processWatchAdd true w pid) n' := by
  intro q
  have hq := h q
  have hpid := h pid
  have hnq := hn q
  unfold processWatchAdd createProcessWatch
  by_cases he : q = pid
  · subst he
    rw [if_pos (beq_self_eq_true q)] at hnq
    by_cases hzero : n q = 0
    · rw [if_pos hzero] at hq
      simp [hq, hnq, hzero]
    · rw [if_neg hzero] at hq
      simp [hq, hnq]
  · rw [if_neg (fun h => he (beq_iff_eq.mp h).symm)] at hnq
    rw [hnq, Nat.add_zero, ← hq]
    cases w pid with
    | some ref => exact Function.update_of_ne he _ _
    | none => exact Function.update_of_ne he _ _

theorem Counted.remove (h : Counted w n) (hn : ∀ q, n q = n' q + if pid == q then 1 else 0) :
    Counted (processWatchRemove w pid) n' := by
  intro q
  have hq := h q
  have hnq := hn q
  unfold processWatchRemove
  by_cases he : q = pid
  · subst he
    rw [if_pos (beq_self_eq_true q)] at hnq
    rw [if_neg (by omega)] at hq
    rw [hq]
    simp [hnq]
  · rw [if_neg (fun h => he (beq_iff_eq.mp h).symm)] at hnq
    rw [← Nat.add_zero (n' q), ← hnq, ← hq]
    cases w pid with
    | some ref => exact Function.update_of_ne he _ _
    | none => rfl

end

/-! ## What an operation changes of the sum -/

section
variable {d : Data}

theorem FiniteTable.support (h : FiniteTable d) (pid : UInt32) :
    (Function.support fun s => recordedIn (getServiceEntryOrCreate d s) pid).Finite := by
  refine h.subset fun s hs hnone => ?_
  rw [Function.mem_support] at hs
  exact hs (by simp [getServiceEntryOrCreate, hnone, recordedIn])

theorem FiniteTable.setService (h : FiniteTable d) (service : CString) (entry : ServiceDataEntry)
    (effects : List Effect) : FiniteTable (d.setService service entry effects) := by
  refine (h.insert service).subset fun s hs => ?_
  by_cases he : s = service
  · exact .inl he
  · exact .inr fun hnone => hs (by simp [Data.setService, he, hnone])

theorem FiniteTable.removeIfEmpty (h : FiniteTable d) (service : CString) :
    FiniteTable (dataRemoveServiceDataEntryIfEmpty d service) := by
  unfold dataRemoveServiceDataEntryIfEmpty
  split
  · refine h.subset fun s hs hnone => hs ?_
    simp [HashTable.lookup_remove, hnone]
  · exact h

theorem FiniteTable.foreachRemove (h : FiniteTable d)
    (f : ServiceDataEntry → ServiceDataEntry × List Effect) : FiniteTable (d.foreachRemove f) := by
  refine h.subset fun s hs hnone => hs ?_
  simp [Data.foreachRemove, hnone]

theorem recorded_removeIfEmpty (d : Data) (service : CString) (pid : UInt32) :
    recorded (dataRemoveServiceDataEntryIfEmpty d service) pid = recorded d pid := by
  unfold recorded
  simp only [getServiceEntryOrCreate_removeIfEmpty]

/-- The entry of one service changes. -/
theorem recorded_setService (h : FiniteTable d) (service : CString) (entry : ServiceDataEntry)
    (effects : List Effect) (pid : UInt32) :
    recorded (d.setService service entry effects) pid +
        recordedIn (getServiceEntryOrCreate d service) pid =
      recorded d pid + recordedIn entry pid := by
  have hsum := finsum_add_of_agree (h.support pid) (k := service)
    (g := fun s => recordedIn (getServiceEntryOrCreate (d.setService service entry effects) s) pid)
    fun s hs => by simp [getServiceEntryOrCreate, Data.setService, hs]
  have hentry : getServiceEntryOrCreate (d.setService service entry effects) service = entry := by
    simp [getServiceEntryOrCreate, Data.setService]
  rw [hentry] at hsum
  exact hsum

/-- The entries of all services change. -/
theorem recorded_foreachRemove {f : ServiceDataEntry → ServiceDataEntry × List Effect}
    {pid : UInt32} {g : Nat → Nat} (hzero : g 0 = 0)
    (hf : ∀ s entry, d.hashTable.lookup s = some entry →
      recordedIn (f entry).1 pid = g (recordedIn entry pid)) :
    recorded (d.foreachRemove f) pid =
      ∑ᶠ s, g (recordedIn (getServiceEntryOrCreate d s) pid) := by
  unfold recorded
  refine finsum_congr fun s => ?_
  cases hl : d.hashTable.lookup s with
  | none => simp [getServiceEntryOrCreate, Data.foreachRemove, hl, recordedIn, hzero]
  | some entry =>
    rw [getServiceEntryOrCreate_foreachRemove hl, getServiceEntryOrCreate_of_lookup hl]
    exact hf s entry hl

end

/-! ## Notifications that arrive -/

section
variable {sends : Nat → Nat → Bool} {entry : ServiceDataEntry}

theorem notifyListeners_of_sent {k : Nat} (h : Sent sends k entry.listeners)
    (serverInfo : ServiceInfo) (added : Bool) :
    (notifyListeners (sends · k) serverInfo entry added).1 = entry := by
  have hall : (entry.listeners.filter fun l => sends l.client k) = entry.listeners :=
    List.filter_eq_self.mpr h
  simp only [notifyListeners, hall]

theorem notifyRemoved_of_sent (gone : List ServiceInfo) (k : Nat)
    (h : ∀ i < gone.length, Sent sends (k + i) entry.listeners) :
    (notifyRemoved sends k entry gone).1 = entry := by
  induction gone generalizing k with
  | nil => rfl
  | cons serviceInfo gone ih =>
    have hfirst := notifyListeners_of_sent (h 0 (Nat.succ_pos _)) serviceInfo false
    rw [Nat.add_zero] at hfirst
    simp only [notifyRemoved, hfirst]
    refine ih (k + 1) fun i hi => ?_
    rw [Nat.add_assoc, Nat.add_comm 1]
    exact h (i + 1) (Nat.succ_lt_succ hi)

theorem watch_notifyListeners (opens : Bool) (w : Watches) (sends : Nat → Bool)
    (serverInfo : ServiceInfo) (entry : ServiceDataEntry) (added : Bool) :
    (notifyListeners sends serverInfo entry added).2.foldl (watchStep opens) w = w := by
  simp only [notifyListeners, List.foldl_map]
  induction entry.listeners with
  | nil => rfl
  | cons l listeners ih =>
    cases added with
    | true => exact ih
    | false => exact ih

theorem watch_sendServers (opens : Bool) (w : Watches) (sends : Nat → Bool)
    (listener : ListenerData) (k : Nat) (servers : List ServiceInfo) :
    (sendServers sends listener k servers).1.foldl (watchStep opens) w = w := by
  induction servers generalizing k with
  | nil => rfl
  | cons serverInfo servers ih =>
    unfold sendServers
    split
    · exact ih (k + 1)
    · rfl

end

/-! ## The operations -/

/-- An operation on one service keeps the count. -/
def Follows (opens : Bool) (service : CString) (w : Watches) (d d' : Data) : Prop :=
  FiniteTable d' ∧ ∃ effects, d'.trace service = d.trace service ++ effects ∧
    Counted (effects.foldl (watchStep opens) w) (recorded d')

section
variable {opens : Bool} {service : CString} {w : Watches} {d d₁ d₂ : Data}
  {sends : Nat → Nat → Bool}

theorem Follows.watch {t : Daemon} (h : Follows opens service t.watches t.data d) :
    WatchesCount (t.watch opens service d) := by
  obtain ⟨hfinite, effects, htrace, hcounted⟩ := h
  refine ⟨hfinite, ?_⟩
  unfold Daemon.watch
  rw [htrace, List.drop_left]
  exact hcounted

theorem Follows.trans (h : Follows opens service w d d₁)
    (h₁ : ∀ w₁, FiniteTable d₁ → Counted w₁ (recorded d₁) → Follows opens service w₁ d₁ d₂) :
    Follows opens service w d d₂ := by
  obtain ⟨hfinite, effects₁, htrace₁, hcounted₁⟩ := h
  obtain ⟨hfinite₂, effects₂, htrace₂, hcounted₂⟩ := h₁ _ hfinite hcounted₁
  refine ⟨hfinite₂, effects₁ ++ effects₂, ?_, ?_⟩
  · rw [htrace₂, htrace₁, List.append_assoc]
  · rw [List.foldl_append]
    exact hcounted₂

theorem follows_refl (hfinite : FiniteTable d) (hcounted : Counted w (recorded d)) :
    Follows opens service w d d :=
  ⟨hfinite, [], (List.append_nil _).symm, hcounted⟩

theorem follows_setService (hfinite : FiniteTable d) {entry : ServiceDataEntry}
    {effects : List Effect} (hcounted : ∀ n,
      (∀ q, n q + recordedIn (getServiceEntryOrCreate d service) q =
        recorded d q + recordedIn entry q) → Counted (effects.foldl (watchStep opens) w) n) :
    Follows opens service w d (d.setService service entry effects) := by
  refine ⟨hfinite.setService service entry effects, effects, ?_, ?_⟩
  · simp [Data.setService]
  · exact hcounted _ (recorded_setService hfinite service entry effects)

theorem Follows.removeIfEmpty (h : Follows opens service w d d₁) :
    Follows opens service w d (dataRemoveServiceDataEntryIfEmpty d₁ service) := by
  obtain ⟨hfinite, effects, htrace, hcounted⟩ := h
  refine ⟨hfinite.removeIfEmpty service, effects, ?_, ?_⟩
  · rw [(trace_removeIfEmpty d₁ service).1, htrace]
  · intro q
    rw [recorded_removeIfEmpty]
    exact hcounted q

theorem exists_found {servers : List ServiceInfo} {serverInfo : ServiceInfo}
    (hany : servers.any (findServer · serverInfo)) :
    ∃ x, servers.find? (findServer · serverInfo) = some x :=
  Option.isSome_iff_exists.mp (List.find?_isSome.mpr (List.any_eq_true.mp hany))

theorem recordedIn_removed {entry : ServiceDataEntry} {serverInfo x : ServiceInfo}
    (hx : entry.servers.find? (findServer · serverInfo) = some x) (q : UInt32) :
    recordedIn { entry with servers := entry.servers.eraseP (findServer · serverInfo) } q +
      (if serverOf q x then 1 else 0) = recordedIn entry q := by
  have hcount := List.countP_eraseP_add hx (serverOf q)
  simp only [recordedIn]
  omega

theorem recordedIn_listened (entry : ServiceDataEntry) (listener : ListenerData) (q : UInt32) :
    recordedIn { entry with listeners := listener :: entry.listeners } q =
      recordedIn entry q + if listener.pid == q then 1 else 0 := by
  simp only [recordedIn, List.countP_cons]
  omega

theorem removeServer_follows (hfinite : FiniteTable d) (hcounted : Counted w (recorded d))
    {serverInfo : ServiceInfo} {isLocal : Bool} (hk : RemoveKept w d sends serverInfo isLocal) :
    Follows opens serverInfo.service w d (dataRemoveServer sends d serverInfo isLocal) := by
  unfold dataRemoveServer
  cases hl : d.hashTable.lookup serverInfo.service with
  | none => exact follows_refl hfinite hcounted
  | some entry =>
    have hentry := getServiceEntryOrCreate_of_lookup hl
    dsimp only
    split
    · next hany =>
      obtain ⟨x, hx⟩ := exists_found hany
      have hkept := hk x
      rw [listenersOf, hentry] at hkept
      obtain ⟨hsent, hsame⟩ := hkept hx
      have hstored := @notifyListeners_of_sent _
        { entry with servers := entry.servers.eraseP (findServer · serverInfo) } _ hsent serverInfo false
      rw [hstored]
      refine (follows_setService hfinite fun n hn => ?_).removeIfEmpty
      rw [hentry] at hn
      have hcount : ∀ q, recorded d q = n q + if serverOf q x then 1 else 0 := by
        intro q
        have hq := hn q
        rw [← recordedIn_removed hx q] at hq
        omega
      rw [List.foldl_append, watch_notifyListeners]
      cases hlocal : x.isLocal with
      | true =>
        rw [if_pos hlocal] at hsame
        obtain ⟨rfl, hpid⟩ := hsame
        refine hcounted.remove fun q => ?_
        rw [hcount q, serverOf, hlocal, hpid, Bool.true_and]
      | false =>
        rw [if_neg (by simp [hlocal])] at hsame
        have hsum : recorded d = n := by
          funext q
          rw [hcount q]
          simp [serverOf, hlocal]
        rw [hsum] at hcounted
        cases isLocal with
        | true =>
          show Counted (processWatchRemove w serverInfo.pid) n
          rw [processWatchRemove, hsame rfl]
          exact hcounted
        | false => exact hcounted
    · exact follows_refl hfinite hcounted

theorem listenersOf_removeServer {serverInfo : ServiceInfo} {isLocal : Bool}
    (hk : RemoveKept w d sends serverInfo isLocal) :
    listenersOf (dataRemoveServer sends d serverInfo isLocal) serverInfo.service =
      listenersOf d serverInfo.service := by
  unfold dataRemoveServer
  cases hl : d.hashTable.lookup serverInfo.service with
  | none => rfl
  | some entry =>
    have hentry := getServiceEntryOrCreate_of_lookup hl
    dsimp only
    split
    · next hany =>
      obtain ⟨x, hx⟩ := exists_found hany
      have hkept := hk x
      rw [listenersOf, hentry] at hkept
      have hstored := @notifyListeners_of_sent _
        { entry with servers := entry.servers.eraseP (findServer · serverInfo) } _ (hkept hx).1 serverInfo false
      rw [hstored, listenersOf, getServiceEntryOrCreate_removeIfEmpty, listenersOf, hentry]
      simp [getServiceEntryOrCreate, Data.setService]
    · rfl

theorem addServer_follows (hfinite : FiniteTable d) (hcounted : Counted w (recorded d))
    {serverInfo : ServiceInfo} {isLocal : Bool} (hk : RemoveKept w d sends serverInfo isLocal)
    (hsent : Sent sends 1 (listenersOf d serverInfo.service))
    (hopens : isLocal = true → opens = true) :
    Follows opens serverInfo.service w d (dataAddServer sends d serverInfo isLocal) := by
  have hk' : RemoveKept w d sends { serverInfo with isLocal } isLocal := hk
  refine (removeServer_follows hfinite hcounted hk').trans fun w₁ hfinite₁ hcounted₁ => ?_
  rw [← listenersOf_removeServer hk'] at hsent
  refine follows_setService hfinite₁ fun n hn => ?_
  have hstored := @notifyListeners_of_sent _
    ⟨{ serverInfo with isLocal } :: (getServiceEntryOrCreate
      (dataRemoveServer sends d { serverInfo with isLocal } isLocal) serverInfo.service).servers,
      listenersOf (dataRemoveServer sends d { serverInfo with isLocal } isLocal)
        serverInfo.service⟩ _ hsent { serverInfo with isLocal } true
  rw [List.foldl_append, watch_notifyListeners]
  have hcount : ∀ q, n q = recorded (dataRemoveServer sends d { serverInfo with isLocal } isLocal) q +
      if serverOf q { serverInfo with isLocal } then 1 else 0 := by
    intro q
    have hq := hn q
    simp only [listenersOf] at hstored
    rw [hstored] at hq
    simp only [recordedIn, List.countP_cons] at hq
    omega
  cases isLocal with
  | true =>
    rw [hopens rfl]
    refine hcounted₁.add fun q => ?_
    rw [hcount q, serverOf, Bool.true_and]
  | false =>
    have hsum : n = recorded (dataRemoveServer sends d { serverInfo with isLocal := false } false) := by
      funext q
      rw [hcount q]
      simp [serverOf]
    rw [hsum]
    exact hcounted₁

theorem addListener_follows (hfinite : FiniteTable d) (hcounted : Counted w (recorded d))
    {info : ListenerInfo} (ha : dataAddListener sends d info = some d₁) :
    Follows true info.service w d d₁ := by
  obtain ⟨transport, _, rfl⟩ := Option.map_eq_some_iff.mp ha
  let listener : ListenerData := ⟨d.nextClient, transport, info.id, info.pid⟩
  let entry := getServiceEntryOrCreate d info.service
  let r := sendServers (sends d.nextClient) listener 0 entry.servers
  have hset : Follows true info.service w d
      (d.setService info.service
        { entry with listeners := if r.2 then listener :: entry.listeners else entry.listeners }
        (.processWatchAdd info.pid :: r.1 ++ if r.2 then [] else [.processWatchRemove info.pid])) := by
    refine follows_setService hfinite fun n hn => ?_
    have hadded : Counted (processWatchAdd true w info.pid)
        fun q => recorded d q + if info.pid == q then 1 else 0 := hcounted.add fun _ => rfl
    rw [List.foldl_append, List.foldl_cons, watch_sendServers]
    cases hr : r.2 with
    | true =>
      have hsum : n = fun q => recorded d q + if info.pid == q then 1 else 0 := by
        funext q
        have hq := hn q
        rw [if_pos hr] at hq
        rw [recordedIn_listened entry listener q] at hq
        have hsum : n q + recordedIn entry q =
            recorded d q + (if info.pid == q then 1 else 0) + recordedIn entry q := by
          rw [Nat.add_assoc, Nat.add_comm (if info.pid == q then 1 else 0)]
          exact hq
        exact Nat.add_right_cancel hsum
      rw [hsum]
      exact hadded
    | false =>
      have hsum : n = recorded d := by
        funext q
        have hq := hn q
        rw [if_neg (by simp [hr])] at hq
        exact Nat.add_right_cancel hq
      rw [hsum]
      exact hadded.remove fun _ => rfl
  exact hset

theorem removeListener_follows (hfinite : FiniteTable d) (hcounted : Counted w (recorded d))
    (info : ListenerInfo) : Follows opens info.service w d (dataRemoveListener d info) := by
  unfold dataRemoveListener
  cases hl : d.hashTable.lookup info.service with
  | none => exact follows_refl hfinite hcounted
  | some entry =>
    have hentry := getServiceEntryOrCreate_of_lookup hl
    dsimp only
    split
    · exact follows_refl hfinite hcounted
    · next listener hx =>
      refine (follows_setService hfinite fun n hn => ?_).removeIfEmpty
      refine hcounted.remove fun q => ?_
      have hq := hn q
      have hcount := List.countP_eraseP_add hx (·.pid == q)
      rw [hentry] at hq
      simp only [recordedIn] at hq
      omega

/-- Remote servers do not count. -/
theorem recorded_removeServersByAddr {addr : UInt32}
    (hk : ∀ s, (∀ x ∈ (getServiceEntryOrCreate d s).servers,
        serverHasAddr addr x = true → x.isLocal = false) ∧
      ∀ k < ((getServiceEntryOrCreate d s).servers.filter (serverHasAddr addr)).length,
        Sent sends k (getServiceEntryOrCreate d s).listeners) :
    recorded (dataRemoveServersByAddr sends d addr) = recorded d := by
  funext q
  refine recorded_foreachRemove (g := id) rfl fun s entry hl => ?_
  have hs := hk s
  rw [getServiceEntryOrCreate_of_lookup hl] at hs
  obtain ⟨hremote, hsent⟩ := hs
  have hstored := @notifyRemoved_of_sent sends
    { entry with servers := entry.servers.filter (!serverHasAddr addr ·) }
    (entry.servers.filter (serverHasAddr addr)) 0 fun i hi => by
      rw [Nat.zero_add]
      exact hsent i hi
  unfold deleteServerByAddr
  dsimp only
  rw [hstored]
  simp only [recordedIn, id, List.countP_filter]
  congr 1
  refine List.countP_congr fun x hx => ?_
  have hlocal := hremote x hx
  simp only [serverOf, Bool.and_eq_true, Bool.not_eq_true']
  refine ⟨And.left, fun h => ⟨h, ?_⟩⟩
  by_contra haddr
  rw [hlocal (Bool.not_eq_false _ ▸ haddr)] at h
  cases h.1

/-- Nothing of the process is left, and everything of the others. -/
theorem recorded_removeByPid {pid : UInt32}
    (hk : ∀ s, ∀ k < ((getServiceEntryOrCreate d s).servers.filter (serverOf pid)).length,
      Sent sends k ((getServiceEntryOrCreate d s).listeners.filter fun l => l.pid != pid))
    (q : UInt32) :
    recorded (dataRemoveByPid sends d pid) q = if q = pid then 0 else recorded d q := by
  have hentry : ∀ s entry, d.hashTable.lookup s = some entry →
      (removeByPid sends pid entry).1 =
        ⟨entry.servers.filter (!serverOf pid ·), entry.listeners.filter fun l => l.pid != pid⟩ := by
    intro s entry hl
    have hs := hk s
    rw [getServiceEntryOrCreate_of_lookup hl] at hs
    have hstored := @notifyRemoved_of_sent sends
      { entry with listeners := entry.listeners.filter fun l => l.pid != pid }
      (entry.servers.filter (serverOf pid)) 0 fun i hi => by
        rw [Nat.zero_add]
        exact hs i hi
    unfold removeByPid
    dsimp only
    unfold serverOf at hstored
    rw [hstored]
    rfl
  by_cases hq : q = pid
  · subst hq
    rw [if_pos rfl, dataRemoveByPid, recorded_foreachRemove (g := fun _ => 0) rfl, finsum_zero]
    intro s entry hl
    rw [hentry s entry hl]
    simp [recordedIn, List.countP_filter]
  · rw [if_neg hq, dataRemoveByPid, recorded_foreachRemove (g := id) rfl]
    · rfl
    · intro s entry hl
      rw [hentry s entry hl]
      simp only [recordedIn, id, List.countP_filter]
      congr 1
      · refine List.countP_congr fun x _ => ?_
        simp only [serverOf, Bool.and_eq_true, beq_iff_eq, Bool.not_eq_true', Bool.and_eq_false_iff]
        exact ⟨And.left, fun h => ⟨h, .inr (beq_eq_false_iff_ne.mpr fun he => hq (h.2 ▸ he))⟩⟩
      · refine List.countP_congr fun l _ => ?_
        simp only [Bool.and_eq_true, beq_iff_eq, bne_iff_ne]
        exact ⟨And.left, fun h => ⟨h, fun he => hq (h ▸ he)⟩⟩

end

/-! ## The runs -/

theorem watchesCount_init : WatchesCount daemonInit where
  finite := Set.Finite.subset Set.finite_empty fun _ h => h rfl
  counted pid := by
    have hzero : recorded daemonInit.data pid = 0 := finsum_zero
    show none = _
    rw [hzero, if_pos rfl]

theorem watchesCount_step {t t' : Daemon} {op : DaemonOp × Outcome} {o : List Empty}
    (h : WatchesCount t) (hk : WatchKept t op) (hs : daemonStep t op = some (t', o)) :
    WatchesCount t' := by
  obtain ⟨op, out⟩ := op
  obtain ⟨hfinite, hcounted⟩ := h
  cases op with
  | addServer serverInfo isLocal =>
    obtain ⟨rfl, _⟩ := Prod.mk.inj (Option.some.inj hs)
    obtain ⟨hremove, hsent, hopens⟩ := hk
    exact (addServer_follows hfinite hcounted hremove hsent hopens).watch
  | removeServer serverInfo isLocal =>
    obtain ⟨rfl, _⟩ := Prod.mk.inj (Option.some.inj hs)
    exact (removeServer_follows hfinite hcounted hk).watch
  | removeServersByAddr addr =>
    obtain ⟨rfl, _⟩ := Prod.mk.inj (Option.some.inj hs)
    refine ⟨hfinite.foreachRemove _, ?_⟩
    show Counted t.watches (recorded (dataRemoveServersByAddr out.sends t.data addr))
    rw [recorded_removeServersByAddr hk]
    exact hcounted
  | addListener info =>
    obtain ⟨d, ha, he⟩ := Option.map_eq_some_iff.mp hs
    obtain ⟨rfl, _⟩ := Prod.mk.inj he
    rw [show out.opens = true from hk]
    exact (addListener_follows hfinite hcounted ha).watch
  | removeListener info =>
    obtain ⟨rfl, _⟩ := Prod.mk.inj (Option.some.inj hs)
    exact (removeListener_follows hfinite hcounted info).watch
  | pidfdRead pid =>
    simp only [daemonStep] at hs
    split at hs
    · cases hs
    · obtain ⟨rfl, _⟩ := Prod.mk.inj (Option.some.inj hs)
      refine ⟨hfinite.foreachRemove _, fun q => ?_⟩
      dsimp only
      rw [recorded_removeByPid hk]
      by_cases hq : q = pid
      · rw [if_pos hq, if_pos rfl, hq, Function.update_self]
      · rw [if_neg hq, Function.update_of_ne hq]
        exact hcounted q

/-- **The watch counts.** In every run whose steps drop no listener, remove no local
server by its address and take a server for none of another process, the watch
of every process counts what is recorded of it in every state reached. -/
theorem watch_counts {ops : List (DaemonOp × Outcome)}
    (hk : Guarded daemonStep WatchKept daemonInit ops) :
    Always daemonStep WatchesCount daemonInit ops :=
  always_of_guarded (I := WatchesCount) (fun _ h => h)
    (fun _ _ _ _ h hC hs => watchesCount_step h hC hs) watchesCount_init hk

-- a process that listens for a service and runs a server of another one
def allSent : Outcome := ⟨fun _ _ => true, true⟩

def sampleService (pid : UInt32) : ServiceInfo := ⟨[0x73], ⟨false, .unixInfo [0x74]⟩, pid, true⟩

def sampleListener (pid : UInt32) : ListenerInfo := ⟨[0x73], ⟨true, .unixInfo [0x65]⟩, 0, pid⟩

theorem watch_counts_sample : Always daemonStep WatchesCount daemonInit
    [(.addListener (sampleListener 7), allSent), (.addServer (sampleService 8) true, allSent),
      (.removeServer (sampleService 8) true, allSent), (.removeListener (sampleListener 7), allSent)] := by
  refine watch_counts ⟨rfl, ⟨?_, fun _ _ => rfl, fun _ => rfl⟩,
    fun x hx => ⟨fun _ _ => rfl, ?_⟩, trivial, trivial⟩
  · intro x hx
    cases hx
  · obtain rfl := Option.some.inj hx
    exact ⟨rfl, rfl⟩

/-- A listener that cannot be sent an event is dropped, and its watch stays. -/
theorem dropped_listener_watched : ¬ Always daemonStep WatchesCount daemonInit
    [(.addListener (sampleListener 7), allSent),
      (.addServer (sampleService 8) true, ⟨fun _ _ => false, true⟩)] := by
  intro h
  have hlast := h _ [] (List.append_nil _).symm _ _ rfl
  have hwatch := hlast.counted 7
  have hzero : ∀ t : Daemon, (∀ s, recordedIn (getServiceEntryOrCreate t.data s) 7 = 0) →
      recorded t.data 7 = 0 := fun t ht => (finsum_congr ht).trans finsum_zero
  rw [hzero _ fun s => ?_] at hwatch
  · cases hwatch
  · by_cases hs : s = [0x73]
    · subst hs
      rfl
    · show recordedIn ((if s = [0x73] then _ else if s = [0x73] then _ else none).getD ⟨[], []⟩) 7 = 0
      rw [if_neg hs, if_neg hs]
      rfl

end Cmsg.Sld
