import Cmsg.Psd.RemoteSync

/-! # The subscriptions of one host at another

Host A keeps the remote subscriptions for host B, and B is to hold the same ones as
local subscriptions. What A sends on one connection arrives in order; the events about
A's server reach B on their own, as do those about B's server at A. -/
namespace Cmsg.Psd
open Cmsg.Base Cmsg.Base.Runs

/-- The two hosts and, for each connection that A made to B, what A sent on it and B did
not process yet. -/
structure Pair where
  a : Host
  b : Host
  inFlight : Nat → List SyncMessage

def pairInit (serverA serverB : TcpTransport) : Pair :=
  ⟨hostInit serverA, hostInit serverB, fun _ => []⟩

inductive PairOp
  | onA (op : HostOp)
  | restartA
  | onB (op : HostOp)
  | deliver (conn : Nat)
deriving DecidableEq, Repr

/-- The messages to a host on one of the connections to it. -/
def messagesTo (addr : UInt32) (out : List (SyncClient × SyncMessage)) (conn : Nat) :
    List SyncMessage :=
  (out.filter fun m => m.1.transport.sAddr == addr && m.1.conn == conn).map (·.2)

/-- One step of the two hosts, where B has the address `addrB`. The connections that A had
before a restart keep what was sent on them. -/
def pairStep (addrB : UInt32) : Machine Pair PairOp Empty
  | p, .onA op => (hostStep p.a op).map fun r =>
      ({ p with a := r.1, inFlight := fun conn => p.inFlight conn ++ messagesTo addrB r.2 conn }, [])
  | p, .restartA => some ({ p with a := p.a.restart }, [])
  | p, .onB op => (hostStep p.b op).map fun r => ({ p with b := r.1 }, [])
  | p, .deliver conn =>
    match p.inFlight conn with
    | [] => none
    | message :: rest => (hostStep p.b (.receive message)).map fun r =>
        ({ p with b := r.1, inFlight := fun c => if c = conn then rest else p.inFlight c }, [])

/-- The clients that A has for the host B: A sees B as added when there is one. -/
def Pair.clientsTo (p : Pair) (addrB : UInt32) : List SyncClient :=
  p.a.remoteSyncClientList.filter (remoteSyncFindClientByAddress · addrB)

/-- The endpoints at an address that are subscribed to a method. -/
def endpointsFrom (addr : UInt32) (d : Data) (service method : CString) : List Endpoint :=
  ((transportsAt d service method).filter (hasAddr addr)).map (·.endpoint)

/-- The endpoints that a host subscribed to a method at another host. -/
def endpointsFor (addr : UInt32) (d : Data) (service method : CString) : List Endpoint :=
  ((remoteSyncBulkSyncSubscriptions d addr).filter fun info =>
    info.service == service && info.methodName == method).map (·.transportInfo.endpoint)

/-- B holds from A what A has for B. -/
def RemoteAgrees (addrA addrB : UInt32) (p : Pair) : Prop :=
  ∀ service method, (endpointsFrom addrA p.b.data service method).Perm
    (endpointsFor addrB p.a.data service method)

/-! ## When it works -/

/-- The bulk sync of a connection was not processed yet. -/
def Unsynced (messages : List SyncMessage) : Prop :=
  ∃ data rest, messages = .bulkSync data :: rest

/-- The subscriptions that a message is about. -/
def SyncMessage.infos : SyncMessage → List SubscriptionInfo
  | .bulkSync data => data
  | .addSubscription info => [info]
  | .removeSubscription info => [info]

/-- A step of a host that is not about the subscribers at an address. -/
def HostOp.Away (addr : UInt32) : HostOp → Prop
  | .data op => (∀ t ∈ op.transports, hasAddr addr t = false) ∧
      op ≠ .removeLocalSubscriptionsForAddr addr
  | .slEvent transport added => added = false → transport.sAddr ≠ addr
  | .receive message => ∀ info ∈ message.infos, hasAddr addr info.transportInfo = false

/-- The steps between which nothing is lost or counted twice. The subscribers of A that
subscribe at B are at A's address, and A hears that B was added only while it has no client
for it. While A has a client for B, the events that A's server was removed and the messages
of A's other connections are processed by B before the bulk sync of that client; and when B
processes the bulk sync, it holds nothing from A. All other steps of B are about others. -/
def PairOk (addrA addrB : UInt32) (p : Pair) : PairOp → Prop
  | .onA (.data (.addSubscription info)) =>
    info.remoteAddr = some addrB → hasAddr addrA info.transportInfo = true
  | .onA (.slEvent transport true) => transport.sAddr = addrB → p.clientsTo addrB = []
  | .onA _ => True
  | .restartA => True
  | .onB op => op.Away addrA ∨ ∀ client ∈ p.clientsTo addrB, Unsynced (p.inFlight client.conn)
  | .deliver conn => ∀ client ∈ p.clientsTo addrB,
      (client.conn ≠ conn → Unsynced (p.inFlight client.conn)) ∧
      (client.conn = conn → Unsynced (p.inFlight conn) →
        ∀ service method, endpointsFrom addrA p.b.data service method = [])

/-! ## What a connection says -/

/-- The messages of a connection, after what B holds where the bulk sync was processed,
give what A has for B. Only the first one can be a bulk sync. -/
def Mirrors (addrA addrB : UInt32) (dA dB : Data) (messages : List SyncMessage) : Prop :=
  (∀ message ∈ messages.tail, ∀ data, message ≠ .bulkSync data) ∧
    ∀ k : SubscriptionKey, endpointAddr k.2.2 = some addrA →
      (Unsynced messages →
        replay k 0 messages = (remoteKeys dA.remoteSubscriptionsList addrB).count k) ∧
      (¬ Unsynced messages → replay k (heldCount dB k) messages =
        (remoteKeys dA.remoteSubscriptionsList addrB).count k)

section
variable {addrA addrB : UInt32} {dA dA' dB dB' : Data} {messages rest : List SyncMessage}
  {message : SyncMessage} {op : Op} {out : List RemoteSync}

theorem not_bulkSync_of_mem_changesFor (h : message ∈ changesFor addrB out) (data) :
    message ≠ .bulkSync data := by
  obtain ⟨x, _, rfl⟩ := List.mem_map.mp h
  cases x with
  | subscriptionAdded info => exact fun h => by cases h
  | subscriptionRemoved info => exact fun h => by cases h

theorem unsynced_append_iff {more : List SyncMessage} (h : ∀ m ∈ more, ∀ data, m ≠ .bulkSync data) :
    Unsynced (messages ++ more) ↔ Unsynced messages := by
  cases messages with
  | nil =>
    refine iff_of_false (fun ⟨data, rest, he⟩ => ?_) fun ⟨data, rest, he⟩ => by cases he
    rw [List.nil_append] at he
    exact h _ (he ▸ List.mem_cons_self ..) data rfl
  | cons first rest =>
    constructor
    · intro ⟨data, rest', he⟩
      obtain ⟨rfl, _⟩ := List.cons.inj he
      exact ⟨data, rest, rfl⟩
    · intro ⟨data, rest', he⟩
      obtain ⟨rfl, _⟩ := List.cons.inj he
      exact ⟨data, rest ++ more, rfl⟩

/-- A request at A, with what it tells B. -/
theorem Mirrors.dataStep (h : Mirrors addrA addrB dA dB messages)
    (hs : dataStep dA op = some (dA', out)) :
    Mirrors addrA addrB dA' dB (messages ++ changesFor addrB out) := by
  have hmore : ∀ m ∈ changesFor addrB out, ∀ data, m ≠ .bulkSync data :=
    fun m hm => not_bulkSync_of_mem_changesFor hm
  refine ⟨fun m hm => ?_, fun k hk => ?_⟩
  · cases messages with
    | nil => exact hmore m (List.mem_of_mem_tail hm)
    | cons first rest =>
      rcases List.mem_append.mp hm with hm | hm
      · exact h.1 m hm
      · exact hmore m hm
  · obtain ⟨hun, hsynced⟩ := h.2 k hk
    have hcount := @RemoteChange.count_eq _ _ _ _ addrB (dataStep_remote hs) k
    rw [unsynced_append_iff hmore, replay_append, replay_append, hcount]
    exact ⟨fun hu => by rw [hun hu], fun hu => by rw [hsynced hu]⟩

theorem Mirrors.congr_remote (h : Mirrors addrA addrB dA dB messages)
    (hsame : dA'.remoteSubscriptionsList = dA.remoteSubscriptionsList) :
    Mirrors addrA addrB dA' dB messages := by
  unfold Mirrors
  rw [hsame]
  exact h

/-- A step of B that leaves the subscribers at A's address alone. -/
theorem Mirrors.congr_held (h : Mirrors addrA addrB dA dB messages)
    (hsame : ∀ k, endpointAddr k.2.2 = some addrA → heldCount dB' k = heldCount dB k) :
    Mirrors addrA addrB dA dB' messages :=
  ⟨h.1, fun k hk => ⟨(h.2 k hk).1, fun hu => by rw [hsame k hk, (h.2 k hk).2 hu]⟩⟩

/-- Before the bulk sync, what B holds does not matter. -/
theorem Mirrors.of_unsynced (h : Mirrors addrA addrB dA dB messages) (hu : Unsynced messages) :
    Mirrors addrA addrB dA dB' messages :=
  ⟨h.1, fun k hk => ⟨(h.2 k hk).1, fun hn => absurd hu hn⟩⟩

theorem mirrors_bulkSync (dA dB : Data) : Mirrors addrA addrB dA dB
    [.bulkSync (remoteSyncBulkSyncSubscriptions dA addrB)] := by
  refine ⟨(fun _ hm => by cases hm), fun k _ => ⟨fun _ => ?_, fun hn => absurd ⟨_, _, rfl⟩ hn⟩⟩
  exact Nat.zero_add _

theorem heldCount_of_endpointsFrom {k : SubscriptionKey} (hk : endpointAddr k.2.2 = some addrA)
    (h : endpointsFrom addrA dB k.1 k.2.1 = []) : heldCount dB k = 0 := by
  refine List.count_eq_zero.mpr fun hmem => ?_
  obtain ⟨t, ht, he⟩ := List.mem_map.mp hmem
  have hin : k.2.2 ∈ endpointsFrom addrA dB k.1 k.2.1 :=
    List.mem_map.mpr ⟨t, List.mem_filter.mpr ⟨ht, hasAddr_iff.mpr (he ▸ hk)⟩, he⟩
  rw [h] at hin
  cases hin

/-- Once B heard that A's server was removed, it holds nothing from A. -/
theorem endpointsFrom_removeForAddr (hu : NamesOk dB) (s m : CString) :
    endpointsFrom addrA (dataRemoveLocalSubscriptionsForAddr dB addrA) s m = [] := by
  unfold endpointsFrom
  rw [transportsAt_removeForAddr hu, List.filter_filter]
  simp

/-- B processes a message. -/
theorem Mirrors.receive (hu : NamesOk dB) (h : Mirrors addrA addrB dA dB (message :: rest))
    (hempty : Unsynced (message :: rest) → ∀ s m, endpointsFrom addrA dB s m = [])
    (hs : remoteSyncReceive dB message = some dB') : Mirrors addrA addrB dA dB' rest := by
  have hnot : ¬ Unsynced rest := by
    rintro ⟨data, rest', rfl⟩
    exact h.1 _ (List.mem_cons_self ..) data rfl
  refine ⟨fun m hm => h.1 m (List.mem_of_mem_tail hm), fun k hk => ⟨fun hn => absurd hn hnot, fun _ => ?_⟩⟩
  obtain ⟨hun, hsynced⟩ := h.2 k hk
  rw [remoteSyncReceive_spec hk hu hs]
  by_cases hbulk : Unsynced (message :: rest)
  · rw [heldCount_of_endpointsFrom hk (hempty hbulk _ _)]
    exact hun hbulk
  · exact hsynced hbulk

end

/-! ## Steps of one host -/

section
variable {addr : UInt32} {d d' : Data} {h h' : Host} {op : Op} {hop : HostOp}
  {out : List (SyncClient × SyncMessage)} {k : SubscriptionKey}

theorem endpoint_ne_of_away {t : TransportInfo} (hk : endpointAddr k.2.2 = some addr)
    (h : hasAddr addr t = false) : t.endpoint ≠ k.2.2 := by
  intro he
  rw [hasAddr_iff.mpr (he ▸ hk)] at h
  cases h

theorem key_ne_of_away {info : SubscriptionInfo} (hk : endpointAddr k.2.2 = some addr)
    (h : hasAddr addr info.transportInfo = false) : info.key ≠ k := by
  rintro rfl
  exact endpoint_ne_of_away hk h rfl

theorem dataStep_away {o : List RemoteSync} (hu : NamesOk d) (hk : endpointAddr k.2.2 = some addr)
    (haway : ∀ t ∈ op.transports, hasAddr addr t = false)
    (hop : op ≠ .removeLocalSubscriptionsForAddr addr) (hs : dataStep d op = some (d', o)) :
    heldCount d' k = heldCount d k := by
  cases op with
  | addSubscription info =>
    have hne := key_ne_of_away hk (haway info.transportInfo (by simp [Op.transports]))
    simp only [dataStep, dataAddSubscription] at hs
    split at hs
    · obtain ⟨rfl, _⟩ := Prod.mk.inj (Option.some.inj hs)
      rfl
    · obtain ⟨d₁, ha, he⟩ := Option.map_eq_some_iff.mp hs
      obtain ⟨rfl, _⟩ := Prod.mk.inj he
      rw [heldCount_addLocal hu hk ha, if_neg hne]
  | removeSubscription info =>
    have hne := key_ne_of_away hk (haway info.transportInfo (by simp [Op.transports]))
    have hx := congrArg Prod.fst (Option.some.inj hs)
    simp only [dataRemoveSubscription] at hx
    split at hx
    · rw [← hx]
      unfold dataRemoveRemoteSubscription
      split
      · rfl
      · rfl
    · rw [← hx]
      dsimp only
      rw [heldCount_removeLocal hu, if_neg hne]
  | addLocalSubscription info =>
    have hne := key_ne_of_away hk (haway info.transportInfo (by simp [Op.transports]))
    obtain ⟨d₁, ha, he⟩ := Option.map_eq_some_iff.mp hs
    obtain ⟨rfl, _⟩ := Prod.mk.inj he
    rw [heldCount_addLocal hu hk ha, if_neg hne]
  | removeLocalSubscription info =>
    have hne := key_ne_of_away hk (haway info.transportInfo (by simp [Op.transports]))
    obtain ⟨rfl, _⟩ := Prod.mk.inj (Option.some.inj hs)
    rw [heldCount_removeLocal hu, if_neg hne]
  | removeSubscriber service t =>
    have hne := endpoint_ne_of_away hk (haway t (by simp [Op.transports]))
    have hx : (dataRemoveSubscriber d service t).1 = d' := congrArg Prod.fst (Option.some.inj hs)
    rw [← hx, heldCount_removeSubscriber hu service hne]
  | removeLocalSubscriptionsForAddr gone =>
    obtain ⟨rfl, _⟩ := Prod.mk.inj (Option.some.inj hs)
    exact heldCount_removeForAddr hu hk fun he => hop (he ▸ rfl)
  | addPublisher service t =>
    obtain ⟨d₁, ha, he⟩ := Option.map_eq_some_iff.mp hs
    obtain ⟨rfl, _⟩ := Prod.mk.inj he
    unfold heldCount
    rw [(addPublisher_change ha).transportsAt_eq]
  | removePublisher service t =>
    obtain ⟨d₁, ha, he⟩ := Option.map_eq_some_iff.mp hs
    obtain ⟨rfl, _⟩ := Prod.mk.inj he
    unfold heldCount
    rw [(removePublisher_change ha).transportsAt_eq]

theorem applyTo_away {message : SyncMessage} (hk : endpointAddr k.2.2 = some addr)
    (haway : ∀ info ∈ message.infos, hasAddr addr info.transportInfo = false) (n : Nat) :
    message.applyTo k n = n := by
  cases message with
  | bulkSync data =>
    refine Nat.add_eq_left.mpr (List.count_eq_zero.mpr fun hmem => ?_)
    obtain ⟨info, hi, he⟩ := List.mem_map.mp hmem
    exact key_ne_of_away hk (haway info hi) he
  | addSubscription info =>
    exact if_neg (key_ne_of_away hk (haway info (List.mem_singleton_self _)))
  | removeSubscription info =>
    exact if_neg (key_ne_of_away hk (haway info (List.mem_singleton_self _)))

theorem namesOk_removeForAddr (hu : NamesOk d) (gone : UInt32) :
    NamesOk (dataRemoveLocalSubscriptionsForAddr d gone) := by
  have hstep : dataStep d (.removeLocalSubscriptionsForAddr gone) =
      some (dataRemoveLocalSubscriptionsForAddr d gone, []) := rfl
  exact namesOk_step hu hstep

theorem hostStep_names (hu : NamesOk h.data) (hs : hostStep h hop = some (h', out)) :
    NamesOk h'.data := by
  cases hop with
  | data op =>
    obtain ⟨⟨d₁, o⟩, hd, he⟩ := Option.map_eq_some_iff.mp hs
    obtain ⟨rfl, _⟩ := Prod.mk.inj he
    exact namesOk_step hu hd
  | slEvent transport added =>
    have hx : (remoteSyncSlEventHandler h transport added).1 = h' :=
      congrArg Prod.fst (Option.some.inj hs)
    rw [← hx]
    unfold remoteSyncSlEventHandler
    split
    · exact hu
    · split
      · exact hu
      · exact namesOk_removeForAddr hu _
  | receive message =>
    obtain ⟨d₁, hd, he⟩ := Option.map_eq_some_iff.mp hs
    obtain ⟨rfl, _⟩ := Prod.mk.inj he
    exact remoteSyncReceive_names hu hd

/-- A step that is not about the subscribers at an address leaves them as they are. -/
theorem hostStep_away (hu : NamesOk h.data) (hk : endpointAddr k.2.2 = some addr)
    (haway : hop.Away addr) (hs : hostStep h hop = some (h', out)) :
    heldCount h'.data k = heldCount h.data k := by
  cases hop with
  | data op =>
    obtain ⟨⟨d₁, o⟩, hd, he⟩ := Option.map_eq_some_iff.mp hs
    obtain ⟨rfl, _⟩ := Prod.mk.inj he
    exact dataStep_away hu hk haway.1 haway.2 hd
  | slEvent transport added =>
    have hx : (remoteSyncSlEventHandler h transport added).1 = h' :=
      congrArg Prod.fst (Option.some.inj hs)
    rw [← hx]
    unfold remoteSyncSlEventHandler
    split
    · rfl
    · split
      · rfl
      · next hadded => exact heldCount_removeForAddr hu hk (haway (Bool.not_eq_true _ ▸ hadded))
  | receive message =>
    obtain ⟨d₁, hd, he⟩ := Option.map_eq_some_iff.mp hs
    obtain ⟨rfl, _⟩ := Prod.mk.inj he
    rw [remoteSyncReceive_spec hk hu hd, applyTo_away hk haway]

end

/-! ## What A sends to B -/

section
variable {addr : UInt32} {clients : List SyncClient} {out : List RemoteSync}

theorem remoteSyncSend_eq (clients : List SyncClient) (x : RemoteSync) :
    remoteSyncSend clients x = ((clients.find?
      (remoteSyncFindClientByAddress · (x.info.remoteAddr.getD 0))).toList.map
        fun client => (client, x.message)) := by
  have hfound : ∀ info added, remoteSyncSubscriptionAddedRemoved clients info added =
      ((clients.find? (remoteSyncFindClientByAddress · (info.remoteAddr.getD 0))).toList.map
        fun client => (client, if added then SyncMessage.addSubscription info
          else .removeSubscription info)) := by
    intro info added
    unfold remoteSyncSubscriptionAddedRemoved
    split
    · next hnone => rw [hnone]; rfl
    · next client hsome => rw [hsome]; rfl
  cases x with
  | subscriptionAdded info => exact hfound info true
  | subscriptionRemoved info => exact hfound info false

theorem messagesTo_append (addr : UInt32) (o o' : List (SyncClient × SyncMessage)) (conn : Nat) :
    messagesTo addr (o ++ o') conn = messagesTo addr o conn ++ messagesTo addr o' conn := by
  simp [messagesTo]

/-- The changes for a host are sent on the connection of the first client for it. -/
theorem messagesTo_send (hsome : ∀ x ∈ out, x.info.remoteAddr.isSome) (conn : Nat) :
    messagesTo addr (out.flatMap (remoteSyncSend clients)) conn =
      if (clients.find? (remoteSyncFindClientByAddress · addr)).map (·.conn) = some conn
      then changesFor addr out else [] := by
  induction out with
  | nil => simp [messagesTo, changesFor]
  | cons x out ih =>
    obtain ⟨a, ha⟩ := Option.isSome_iff_exists.mp (hsome x (List.mem_cons_self ..))
    rw [List.flatMap_cons, messagesTo_append, ih fun y hy => hsome y (List.mem_cons_of_mem _ hy),
      remoteSyncSend_eq, ha, Option.getD_some]
    by_cases hsame : a = addr
    · subst hsame
      cases hf : clients.find? (remoteSyncFindClientByAddress · a) with
      | none => simp [messagesTo]
      | some client =>
        have haddr : client.transport.sAddr = a := by
          simpa [remoteSyncFindClientByAddress] using List.find?_some hf
        by_cases hc : client.conn = conn
        · simp [messagesTo, changesFor, haddr, hc, ha]
        · simp [messagesTo, hc]
    · have hnone : messagesTo addr ((clients.find? (remoteSyncFindClientByAddress · a)).toList.map
          fun client => (client, x.message)) conn = [] := by
        cases hf : clients.find? (remoteSyncFindClientByAddress · a) with
        | none => rfl
        | some client =>
          have haddr : client.transport.sAddr = a := by
            simpa [remoteSyncFindClientByAddress] using List.find?_some hf
          simp [messagesTo, haddr, hsame]
      have hskip : changesFor addr (x :: out) = changesFor addr out := by
        simp [changesFor, ha, hsame]
      rw [hnone, hskip, List.nil_append]

end

/-! ## Whole runs -/

/-- The invariant: what is on the way to B on the connection of A's client takes B to
what A has. -/
structure PairInv (addrA addrB : UInt32) (p : Pair) : Prop where
  names : NamesOk p.b.data
  remote : ∀ info ∈ p.a.data.remoteSubscriptionsList, info.remoteAddr.isSome ∧
    (info.remoteAddr = some addrB → hasAddr addrA info.transportInfo = true)
  one : (p.clientsTo addrB).length ≤ 1
  old : ∀ client ∈ p.a.remoteSyncClientList, client.conn < p.a.nextConn
  fresh : ∀ conn, p.a.nextConn ≤ conn → p.inFlight conn = []
  mirrors : ∀ client ∈ p.clientsTo addrB,
    Mirrors addrA addrB p.a.data p.b.data (p.inFlight client.conn)

section
variable {addrA addrB : UInt32} {p p' : Pair}

theorem clientsTo_of_mem {client : SyncClient} (hone : (p.clientsTo addrB).length ≤ 1)
    (hc : client ∈ p.clientsTo addrB) : p.clientsTo addrB = [client] := by
  obtain ⟨first, hfirst⟩ := List.length_eq_one_iff.mp
    (Nat.le_antisymm hone (List.length_pos_of_mem hc))
  rw [hfirst] at hc ⊢
  rw [List.mem_singleton.mp hc]

/-- A step of A that sends nothing to B and keeps the remote subscriptions. -/
theorem PairInv.quiet (h : PairInv addrA addrB p) {a' : Host}
    (hremote : a'.data.remoteSubscriptionsList = p.a.data.remoteSubscriptionsList)
    (hclients : (a'.remoteSyncClientList.filter (remoteSyncFindClientByAddress · addrB)).Sublist
      (p.clientsTo addrB))
    (hold : ∀ client ∈ a'.remoteSyncClientList, client.conn < a'.nextConn)
    (hnext : p.a.nextConn ≤ a'.nextConn) : PairInv addrA addrB { p with a := a' } where
  names := h.names
  remote := by
    rw [hremote]
    exact h.remote
  one := Nat.le_trans hclients.length_le h.one
  old := hold
  fresh conn hconn := h.fresh conn (Nat.le_trans hnext hconn)
  mirrors client hc := (h.mirrors client (hclients.mem hc)).congr_remote hremote

theorem PairInv.onA_data (h : PairInv addrA addrB p) {op : Op} {d : Data} {out : List RemoteSync}
    (hok : PairOk addrA addrB p (.onA (.data op))) (hs : dataStep p.a.data op = some (d, out)) :
    PairInv addrA addrB { p with
      a := { p.a with data := d }
      inFlight := fun conn => p.inFlight conn ++
        messagesTo addrB (out.flatMap (remoteSyncSend p.a.remoteSyncClientList)) conn } := by
  have hchange := dataStep_remote hs
  have hsend := @messagesTo_send addrB p.a.remoteSyncClientList out
    (hchange.isSome fun info hi => (h.remote info hi).1)
  refine ⟨h.names, fun info hi => ?_, h.one, h.old, fun conn hconn => ?_, fun client hc => ?_⟩
  · rcases hchange.mem hi with hold | ⟨rfl, hsome⟩
    · exact h.remote info hold
    · exact ⟨hsome, hok⟩
  · dsimp only
    rw [h.fresh conn hconn, hsend, if_neg, List.nil_append]
    intro he
    obtain ⟨client, hf, rfl⟩ := Option.map_eq_some_iff.mp he
    exact absurd (h.old client (List.mem_of_find?_eq_some hf)) (Nat.not_lt.mpr hconn)
  · have honly := clientsTo_of_mem h.one hc
    have hfind : p.a.remoteSyncClientList.find? (remoteSyncFindClientByAddress · addrB) = some client := by
      rw [← List.head?_filter]
      exact congrArg List.head? honly
    dsimp only
    rw [hsend, hfind, Option.map_some, if_pos rfl]
    exact (h.mirrors client hc).dataStep hs

theorem PairInv.onA_added (h : PairInv addrA addrB p) {transport : TcpTransport}
    (hok : transport.sAddr = addrB → p.clientsTo addrB = []) :
    PairInv addrA addrB { p with
      a := { p.a with
        remoteSyncClientList := ⟨transport, p.a.nextConn⟩ :: p.a.remoteSyncClientList
        nextConn := p.a.nextConn + 1 }
      inFlight := fun conn => p.inFlight conn ++ messagesTo addrB
        [(⟨transport, p.a.nextConn⟩,
          .bulkSync (remoteSyncBulkSyncSubscriptions p.a.data transport.sAddr))] conn } := by
  have hold : ∀ client ∈ (⟨transport, p.a.nextConn⟩ : SyncClient) :: p.a.remoteSyncClientList,
      client.conn < p.a.nextConn + 1 := by
    intro client hc
    rcases List.mem_cons.mp hc with rfl | hc
    · exact Nat.lt_succ_self _
    · exact Nat.lt_succ_of_lt (h.old client hc)
  have hfresh : ∀ conn, p.a.nextConn + 1 ≤ conn → p.inFlight conn ++ messagesTo addrB
      [(⟨transport, p.a.nextConn⟩,
        .bulkSync (remoteSyncBulkSyncSubscriptions p.a.data transport.sAddr))] conn = [] := by
    intro conn hconn
    have hne : p.a.nextConn ≠ conn := by omega
    rw [h.fresh conn (by omega)]
    simp [messagesTo, hne]
  by_cases haddr : transport.sAddr = addrB
  · -- the new client is the only one
    have honly : (((⟨transport, p.a.nextConn⟩ : SyncClient) :: p.a.remoteSyncClientList).filter
        (remoteSyncFindClientByAddress · addrB)) = [⟨transport, p.a.nextConn⟩] := by
      have hnone := hok haddr
      rw [Pair.clientsTo] at hnone
      rw [List.filter_cons_of_pos (by simp [remoteSyncFindClientByAddress, haddr]), hnone]
    refine ⟨h.names, h.remote, ?_, hold, hfresh, fun client hc => ?_⟩
    · rw [Pair.clientsTo, honly]
      exact Nat.le_refl _
    · rw [Pair.clientsTo, honly] at hc
      obtain rfl := List.mem_singleton.mp hc
      have hmessages : p.inFlight p.a.nextConn ++ messagesTo addrB [(⟨transport, p.a.nextConn⟩,
          .bulkSync (remoteSyncBulkSyncSubscriptions p.a.data transport.sAddr))] p.a.nextConn =
          [.bulkSync (remoteSyncBulkSyncSubscriptions p.a.data addrB)] := by
        rw [h.fresh _ (Nat.le_refl _)]
        simp [messagesTo, haddr]
      dsimp only
      rw [hmessages]
      exact mirrors_bulkSync p.a.data p.b.data
  · have hnone : ∀ conn, messagesTo addrB [(⟨transport, p.a.nextConn⟩,
        .bulkSync (remoteSyncBulkSyncSubscriptions p.a.data transport.sAddr))] conn = [] := by
      intro conn
      simp [messagesTo, haddr]
    simp only [hnone, List.append_nil]
    refine h.quiet rfl ?_ hold (Nat.le_succ _)
    rw [List.filter_cons_of_neg (by simp [remoteSyncFindClientByAddress, haddr])]
    exact .refl _

theorem PairInv.onA (h : PairInv addrA addrB p) {op : HostOp}
    {out : List (SyncClient × SyncMessage)} {a' : Host} (hok : PairOk addrA addrB p (.onA op))
    (hs : hostStep p.a op = some (a', out)) :
    PairInv addrA addrB { p with
      a := a', inFlight := fun conn => p.inFlight conn ++ messagesTo addrB out conn } := by
  have hnothing : ∀ conn, messagesTo addrB [] conn = [] := fun _ => rfl
  cases op with
  | data op =>
    obtain ⟨⟨d, o⟩, hd, he⟩ := Option.map_eq_some_iff.mp hs
    obtain ⟨rfl, rfl⟩ := Prod.mk.inj he
    exact h.onA_data hok hd
  | slEvent transport added =>
    have hx := Option.some.inj hs
    unfold remoteSyncSlEventHandler at hx
    split at hx
    · obtain ⟨rfl, rfl⟩ := Prod.mk.inj hx
      simp only [hnothing, List.append_nil]
      exact h
    · cases added with
      | true =>
        obtain ⟨rfl, rfl⟩ := Prod.mk.inj hx
        exact h.onA_added hok
      | false =>
        obtain ⟨rfl, rfl⟩ := Prod.mk.inj hx
        simp only [hnothing, List.append_nil]
        exact h.quiet rfl (List.eraseP_sublist.filter _)
          (fun client hc => h.old client (List.mem_of_mem_eraseP hc)) (Nat.le_refl _)
  | receive message =>
    obtain ⟨d, hd, he⟩ := Option.map_eq_some_iff.mp hs
    obtain ⟨rfl, rfl⟩ := Prod.mk.inj he
    simp only [hnothing, List.append_nil]
    exact h.quiet (remoteSyncReceive_remote hd) (.refl _) h.old (Nat.le_refl _)

theorem PairInv.onB (h : PairInv addrA addrB p) {op : HostOp}
    {out : List (SyncClient × SyncMessage)} {b' : Host} (hok : PairOk addrA addrB p (.onB op))
    (hs : hostStep p.b op = some (b', out)) : PairInv addrA addrB { p with b := b' } := by
  refine ⟨hostStep_names h.names hs, h.remote, h.one, h.old, h.fresh, fun client hc => ?_⟩
  have hmirrors := h.mirrors client hc
  rcases hok with haway | hun
  · exact hmirrors.congr_held fun k hk => hostStep_away h.names hk haway hs
  · exact hmirrors.of_unsynced (hun client hc)

theorem PairInv.deliver (h : PairInv addrA addrB p) {conn : Nat} {message : SyncMessage}
    {rest : List SyncMessage} {d : Data} (hok : PairOk addrA addrB p (.deliver conn))
    (hq : p.inFlight conn = message :: rest) (hs : remoteSyncReceive p.b.data message = some d) :
    PairInv addrA addrB { p with
      b := { p.b with data := d }
      inFlight := fun c => if c = conn then rest else p.inFlight c } := by
  refine ⟨remoteSyncReceive_names h.names hs, h.remote, h.one, h.old, fun c hc => ?_,
    fun client hc => ?_⟩
  · dsimp only
    rw [if_neg, h.fresh c hc]
    rintro rfl
    rw [h.fresh c hc] at hq
    cases hq
  · obtain ⟨hother, hown⟩ := hok client hc
    have hmirrors := h.mirrors client hc
    dsimp only
    by_cases hsame : client.conn = conn
    · rw [if_pos hsame]
      rw [hsame, hq] at hmirrors
      rw [hq] at hown
      exact hmirrors.receive h.names (hown hsame) hs
    · rw [if_neg hsame]
      exact hmirrors.of_unsynced (hother hsame)

theorem pairInv_step {op : PairOp} {o : List Empty} (h : PairInv addrA addrB p)
    (hok : PairOk addrA addrB p op) (hs : pairStep addrB p op = some (p', o)) :
    PairInv addrA addrB p' := by
  cases op with
  | onA op =>
    obtain ⟨⟨a', out⟩, ha, he⟩ := Option.map_eq_some_iff.mp hs
    obtain ⟨rfl, _⟩ := Prod.mk.inj he
    exact h.onA hok ha
  | restartA =>
    obtain ⟨rfl, _⟩ := Prod.mk.inj (Option.some.inj hs)
    exact ⟨h.names, List.forall_mem_nil _, Nat.zero_le _, List.forall_mem_nil _, h.fresh,
      List.forall_mem_nil _⟩
  | onB op =>
    obtain ⟨⟨b', out⟩, hb, he⟩ := Option.map_eq_some_iff.mp hs
    obtain ⟨rfl, _⟩ := Prod.mk.inj he
    exact h.onB hok hb
  | deliver conn =>
    cases hq : p.inFlight conn with
    | nil => simp [pairStep, hq] at hs
    | cons message rest =>
      simp only [pairStep, hq] at hs
      obtain ⟨⟨b', out⟩, hb, he⟩ := Option.map_eq_some_iff.mp hs
      obtain ⟨rfl, _⟩ := Prod.mk.inj he
      obtain ⟨d, hd, hbd⟩ := Option.map_eq_some_iff.mp hb
      obtain ⟨rfl, _⟩ := Prod.mk.inj hbd
      exact h.deliver hok hq hd

theorem pairInv_init (serverA serverB : TcpTransport) :
    PairInv addrA addrB (pairInit serverA serverB) where
  names := namesOk_init
  remote _ hi := by cases hi
  one := Nat.zero_le _
  old _ hc := by cases hc
  fresh _ _ := rfl
  mirrors _ hc := by cases hc

/-! ## What the counts say -/

theorem count_endpointsFor {d : Data} (addr : UInt32) (s m : CString) (e : Endpoint) :
    (endpointsFor addr d s m).count e =
      (remoteKeys d.remoteSubscriptionsList addr).count (s, m, e) := by
  unfold endpointsFor remoteKeys
  rw [List.count_eq_countP, List.count_eq_countP, List.countP_map, List.countP_map,
    List.countP_filter]
  refine List.countP_congr fun info _ => ?_
  simp only [Function.comp_apply, Bool.and_eq_true, beq_iff_eq, SubscriptionInfo.key, Prod.mk.injEq]
  tauto

theorem count_endpointsFrom {d : Data} {addr : UInt32} {e : Endpoint}
    (he : endpointAddr e = some addr) (s m : CString) :
    (endpointsFrom addr d s m).count e = heldCount d (s, m, e) := by
  unfold endpointsFrom heldCount
  rw [List.count_eq_countP, List.count_eq_countP, List.countP_map, List.countP_map,
    List.countP_filter]
  refine List.countP_congr fun t _ => ?_
  simp only [Function.comp_apply, Bool.and_eq_true, beq_iff_eq, hasAddr_iff]
  exact ⟨fun h => h.1, fun h => ⟨h, h ▸ he⟩⟩

theorem endpointAddr_of_mem_endpointsFrom {d : Data} {addr : UInt32} {s m : CString} {e : Endpoint}
    (h : e ∈ endpointsFrom addr d s m) : endpointAddr e = some addr := by
  obtain ⟨t, ht, rfl⟩ := List.mem_map.mp h
  exact hasAddr_iff.mp (List.mem_filter.mp ht).2

/-- Once the messages of its client are processed, the two hosts agree. -/
theorem PairInv.agrees (h : PairInv addrA addrB p) {client : SyncClient}
    (hc : client ∈ p.clientsTo addrB) (hdone : p.inFlight client.conn = []) :
    RemoteAgrees addrA addrB p := by
  intro s m
  have hmirrors := h.mirrors client hc
  rw [hdone] at hmirrors
  refine List.perm_iff_count.mpr fun e => ?_
  rw [count_endpointsFor]
  by_cases he : endpointAddr e = some addrA
  · rw [count_endpointsFrom he]
    refine (hmirrors.2 (s, m, e) he).2 ?_
    rintro ⟨data, rest, hnil⟩
    cases hnil
  · -- neither side knows of other addresses
    rw [List.count_eq_zero.mpr fun hmem => he (endpointAddr_of_mem_endpointsFrom hmem)]
    refine (List.count_eq_zero.mpr fun hmem => he ?_).symm
    obtain ⟨info, hi, hkey⟩ := List.mem_map.mp hmem
    obtain ⟨hi, haddr⟩ := List.mem_filter.mp hi
    obtain ⟨_, _, rfl⟩ : info.service = s ∧ info.methodName = m ∧
        info.transportInfo.endpoint = e := by
      simpa [SubscriptionInfo.key] using hkey
    exact hasAddr_iff.mp ((h.remote info hi).2 (beq_iff_eq.mp haddr))

/-- **B holds from A what A has for B**, at the end of every run of allowed steps, once A
sees B and what A sent to B on its connection is processed. -/
theorem remote_agrees {serverA serverB : TcpTransport} {ops : List PairOp} {o : List Empty}
    (hok : Guarded (pairStep serverB.sAddr) (PairOk serverA.sAddr serverB.sAddr)
      (pairInit serverA serverB) ops)
    (hrun : exec (pairStep serverB.sAddr) (pairInit serverA serverB) ops = some (p, o))
    {client : SyncClient} (hc : client ∈ p.clientsTo serverB.sAddr)
    (hdone : p.inFlight client.conn = []) : RemoteAgrees serverA.sAddr serverB.sAddr p :=
  (exec_invariant_guarded (fun _ _ _ _ h hop hs => pairInv_step h hop hs)
    (pairInv_init serverA serverB) hok hrun).agrees hc hdone

end

/-- A subscribes at B, is started again, and subscribes once more when it sees B. -/
theorem remote_agrees_restarted :
    let server (addr : UInt32) : TcpTransport := ⟨true, .inet 5 addr, []⟩
    let info : SubscriptionInfo := ⟨[0x73], ⟨false, .tcpInfo ⟨.ipv4 1, 7, 0, none⟩⟩, [0x6d], some 2⟩
    ∃ p o, exec (pairStep 2) (pairInit (server 1) (server 2))
        [.onA (.data (.addSubscription info)), .restartA, .onA (.slEvent (server 2) true),
          .onA (.data (.addSubscription info)), .deliver 0, .deliver 0] = some (p, o) ∧
      endpointsFrom 1 p.b.data [0x73] [0x6d] = [info.transportInfo.endpoint] ∧
      RemoteAgrees 1 2 p := by
  intro server info
  have hrun : exec (pairStep 2) (pairInit (server 1) (server 2))
      [.onA (.data (.addSubscription info)), .restartA, .onA (.slEvent (server 2) true),
        .onA (.data (.addSubscription info)), .deliver 0, .deliver 0] = some (_, _) := rfl
  refine ⟨_, _, hrun, rfl, @remote_agrees _ (server 1) (server 2) _ _ ?_ hrun ⟨server 2, 0⟩
    (List.mem_singleton_self _) rfl⟩
  refine ⟨fun _ => rfl, trivial, fun _ => rfl, fun _ => rfl, fun client hc => ?_,
    fun client hc => ?_, trivial⟩
  · obtain rfl : client = ⟨server 2, 0⟩ := List.mem_singleton.mp hc
    exact ⟨fun h => absurd rfl h, fun _ _ _ _ => rfl⟩
  · obtain rfl : client = ⟨server 2, 0⟩ := List.mem_singleton.mp hc
    exact ⟨fun h => absurd rfl h, fun _ ⟨_, _, h⟩ => (by cases h)⟩

/-- Where a step is not allowed, the hosts end up with different subscriptions: a removal
that B hears of after the new bulk sync, a message of a connection from before a restart
that B processes after it, a host B that goes and comes back at A without a removal at B in
between, a host B that is added while A has a client for it, and a subscriber of A at another
address. What B holds in these runs all came from A. -/
theorem remote_disagrees :
    let server (addr : UInt32) : TcpTransport := ⟨true, .inet 5 addr, []⟩
    let info (addr : UInt32) : SubscriptionInfo :=
      ⟨[0x73], ⟨false, .tcpInfo ⟨.ipv4 addr, 7, 0, none⟩⟩, [0x6d], some 2⟩
    let start : List PairOp :=
      [.onB (.slEvent (server 1) true), .onA (.slEvent (server 2) true), .deliver 0]
    let restart : List PairOp := [.restartA, .onA (.slEvent (server 2) true)]
    let rejoin : List PairOp := [.onB (.slEvent (server 1) false), .onB (.slEvent (server 1) true)]
    let late : List PairOp :=
      [.deliver 1, .onA (.data (.addSubscription (info 1))), .deliver 1]
    let subscribed : List PairOp := [.onA (.data (.addSubscription (info 1)))]
    let stale : List PairOp := [.deliver 1, .deliver 0]
    let back : List PairOp := [.deliver 0, .onA (.slEvent (server 2) false),
      .onA (.slEvent (server 2) true), .deliver 1]
    let twice : List PairOp :=
      [.onA (.slEvent (server 2) true), .onA (.data (.addSubscription (info 1))),
        .onA (.slEvent (server 2) false), .onA (.data (.removeSubscription (info 1))), .deliver 0,
        .deliver 1, .deliver 1]
    let elsewhere : List PairOp := [.onA (.data (.addSubscription (info 9))), .deliver 0]
    let synced : List PairOp := [.deliver 1]
    ∀ ops ∈ [start ++ restart ++ late ++ rejoin, start ++ subscribed ++ restart ++ rejoin ++ stale,
        start ++ subscribed ++ back, start ++ twice, start ++ elsewhere ++ restart ++ rejoin ++ synced],
      ∃ p, exec (pairStep 2) (pairInit (server 1) (server 2)) ops = some (p, []) ∧
        (∀ conn, p.inFlight conn = []) ∧ p.clientsTo 2 ≠ [] ∧
        p.b.remoteSyncClientList.filter (remoteSyncFindClientByAddress · 1) ≠ [] ∧
        ¬ ((transportsAt p.b.data [0x73] [0x6d]).map (·.endpoint)).Perm
          (endpointsFor 2 p.a.data [0x73] [0x6d]) := by
  intro server info start restart rejoin late subscribed stale back twice elsewhere synced
  simp only [List.forall_mem_cons]
  have hconn : ∀ inFlight : Nat → List SyncMessage, inFlight 0 = [] → inFlight 1 = [] →
      (∀ n, inFlight (n + 2) = []) → ∀ conn, inFlight conn = [] := by
    intro inFlight h0 h1 h2 conn
    match conn with
    | 0 => exact h0
    | 1 => exact h1
    | n + 2 => exact h2 n
  refine ⟨?_, ?_, ?_, ?_, ?_, List.forall_mem_nil _⟩
  · exact ⟨_, rfl, hconn _ rfl rfl fun _ => rfl, by decide, by decide, by decide⟩
  · exact ⟨_, rfl, hconn _ rfl rfl fun _ => rfl, by decide, by decide, by decide⟩
  · exact ⟨_, rfl, hconn _ rfl rfl fun _ => rfl, by decide, by decide, by decide⟩
  · exact ⟨_, rfl, hconn _ rfl rfl fun _ => rfl, by decide, by decide, by decide⟩
  · exact ⟨_, rfl, hconn _ rfl rfl fun _ => rfl, by decide, by decide, by decide⟩

end Cmsg.Psd
