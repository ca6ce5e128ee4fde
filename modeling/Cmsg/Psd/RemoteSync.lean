import Cmsg.Psd.LocalSubscriptions

/-! # Telling the daemons of other hosts

For every remote_sync server that the service listener reports, the daemon has
a client, and sends it the remote subscriptions for its address: all of them when
the client is made, then each change. What arrives is added to, or removed from, the
local subscriptions; when a server goes, the subscriptions at its address go with it. -/
namespace Cmsg.Psd
open Cmsg.Base Cmsg.Base.Runs

/-- The messages of the `remote_sync` service. -/
inductive SyncMessage
  | bulkSync (data : List SubscriptionInfo)
  | addSubscription (info : SubscriptionInfo)
  | removeSubscription (info : SubscriptionInfo)
deriving DecidableEq, Repr

/-- The transport of a remote_sync server, which is always a tcp one. -/
structure TcpTransport where
  oneWay : Bool
  sockaddr : Sockaddr
  vrfBindDev : CString
deriving DecidableEq, Repr

def TcpTransport.transport (t : TcpTransport) : Transport :=
  .tcp t.oneWay t.sockaddr t.vrfBindDev

/-- `config.socket.sockaddr.in.sin_addr.s_addr` -/
def TcpTransport.sAddr (t : TcpTransport) : UInt32 := t.sockaddr.sinAddr

/-- A client of `remote_sync_client_list`. `conn` tells its connection from those
that were made before and after. -/
structure SyncClient where
  transport : TcpTransport
  conn : Nat
deriving DecidableEq, Repr

/-- The daemon of one host, once its sync address was set. -/
structure Host where
  data : Data
  remoteSyncServer : TcpTransport
  remoteSyncClientList : List SyncClient
  nextConn : Nat

def hostInit (server : TcpTransport) : Host := ⟨dataInit, server, [], 0⟩

/-! ## Sending -/

/-- `remote_sync_find_client_by_address` -/
def remoteSyncFindClientByAddress (client : SyncClient) (addr : UInt32) : Bool :=
  client.transport.sAddr == addr

/-- `remote_sync_subscription_added_removed`. A `remote_addr` that is not set is zero. -/
def remoteSyncSubscriptionAddedRemoved (clients : List SyncClient) (info : SubscriptionInfo)
    (added : Bool) : List (SyncClient × SyncMessage) :=
  match clients.find? (remoteSyncFindClientByAddress · (info.remoteAddr.getD 0)) with
  | none => []
  | some client => [(client, if added then .addSubscription info else .removeSubscription info)]

/-- `remote_sync_subscription_added` and `remote_sync_subscription_removed` -/
def remoteSyncSend (clients : List SyncClient) : RemoteSync → List (SyncClient × SyncMessage)
  | .subscriptionAdded info => remoteSyncSubscriptionAddedRemoved clients info true
  | .subscriptionRemoved info => remoteSyncSubscriptionAddedRemoved clients info false

/-! ## Receiving -/

/-- `cmsg_psd_remote_sync_impl_bulk_sync` -/
def remoteSyncImplBulkSync (d : Data) : List SubscriptionInfo → Option Data
  | [] => some d
  | info :: rest => (dataAddLocalSubscription d info).bind (remoteSyncImplBulkSync · rest)

/-- The implementations of the `remote_sync` service. -/
def remoteSyncReceive (d : Data) : SyncMessage → Option Data
  | .bulkSync data => remoteSyncImplBulkSync d data
  | .addSubscription info => dataAddLocalSubscription d info
  | .removeSubscription info => some (dataRemoveLocalSubscription d info)

/-! ## Hosts that come and go -/

/-- `remote_sync_find_client_by_transport` -/
def remoteSyncFindClientByTransport (client : SyncClient) (transport : TcpTransport) : Bool :=
  transportCompare client.transport.transport transport.transport

/-- `remote_sync_sl_event_handler` -/
def remoteSyncSlEventHandler (h : Host) (transport : TcpTransport) (added : Bool) :
    Host × List (SyncClient × SyncMessage) :=
  if transportCompare h.remoteSyncServer.transport transport.transport then (h, [])
  else if added then
    let client : SyncClient := ⟨transport, h.nextConn⟩
    ({ h with
        remoteSyncClientList := client :: h.remoteSyncClientList
        nextConn := h.nextConn + 1 },
      [(client, .bulkSync (remoteSyncBulkSyncSubscriptions h.data transport.sAddr))])
  else
    ({ h with
        data := dataRemoveLocalSubscriptionsForAddr h.data transport.sAddr
        remoteSyncClientList :=
          h.remoteSyncClientList.eraseP (remoteSyncFindClientByTransport · transport) }, [])

/-! ## The machine -/

inductive HostOp
  | data (op : Op)
  | slEvent (transport : TcpTransport) (added : Bool)
  | receive (message : SyncMessage)
deriving DecidableEq, Repr

/-- One step of a host: a request to its daemon, an event about a remote_sync server,
or a message of another host. -/
def hostStep : Machine Host HostOp (SyncClient × SyncMessage)
  | h, .data op => (dataStep h.data op).map fun r =>
      ({ h with data := r.1 }, r.2.flatMap (remoteSyncSend h.remoteSyncClientList))
  | h, .slEvent transport added => some (remoteSyncSlEventHandler h transport added)
  | h, .receive message =>
    (remoteSyncReceive h.data message).map fun d => ({ h with data := d }, [])

/-- The daemon is started again, with nothing left but what the connections that it had
still carry. -/
def Host.restart (h : Host) : Host := { h with data := dataInit, remoteSyncClientList := [] }

/-! ## What a request does to the remote subscriptions -/

def RemoteSync.info : RemoteSync → SubscriptionInfo
  | .subscriptionAdded info => info
  | .subscriptionRemoved info => info

/-- The remote subscriptions before and after a request, and what is told about it. -/
inductive RemoteChange (list list' : List SubscriptionInfo) (op : Op) : List RemoteSync → Prop
  | same : list' = list → RemoteChange list list' op []
  | added (info : SubscriptionInfo) : op = .addSubscription info → info.remoteAddr.isSome →
      list' = info :: list → RemoteChange list list' op [.subscriptionAdded info]
  | removed (info stored : SubscriptionInfo) (l₁ l₂ : List SubscriptionInfo) :
      info.remoteAddr.isSome → stored.key = info.key → stored.remoteAddr = info.remoteAddr →
      list = l₁ ++ stored :: l₂ → list' = l₁ ++ l₂ →
      RemoteChange list list' op [.subscriptionRemoved info]
  | removedAll (removed : SubscriptionInfo → Bool) : list' = list.filter (!removed ·) →
      RemoteChange list list' op ((list.filter removed).reverse.map .subscriptionRemoved)

section
variable {d d' : Data} {op : Op} {out : List RemoteSync}

theorem remoteSubscriptionCompare_key {a b : SubscriptionInfo}
    (h : remoteSubscriptionCompare a b = true) : a.key = b.key ∧ a.remoteAddr = b.remoteAddr := by
  simp only [remoteSubscriptionCompare, Bool.and_eq_true, beq_iff_eq, transportInfoCompare_iff] at h
  obtain ⟨⟨⟨hs, hm⟩, ha⟩, he⟩ := h
  exact ⟨by rw [SubscriptionInfo.key, hs, hm, he, SubscriptionInfo.key], ha⟩

theorem dataAddLocalSubscription_remote {info : SubscriptionInfo}
    (h : dataAddLocalSubscription d info = some d') :
    d'.remoteSubscriptionsList = d.remoteSubscriptionsList := by
  obtain ⟨_, _, rfl⟩ := Option.map_eq_some_iff.mp h
  rfl

theorem dataRemoveLocalSubscription_remote (d : Data) (info : SubscriptionInfo) :
    (dataRemoveLocalSubscription d info).remoteSubscriptionsList = d.remoteSubscriptionsList := by
  unfold dataRemoveLocalSubscription
  split
  · rfl
  · split
    · rfl
    · dsimp only
      split
      · split
        · rfl
        · rfl
      · rfl

theorem dataRemoveSubscription_remote (d : Data) (info : SubscriptionInfo) :
    RemoteChange d.remoteSubscriptionsList (dataRemoveSubscription d info).1.remoteSubscriptionsList
      op (dataRemoveSubscription d info).2 := by
  unfold dataRemoveSubscription
  cases haddr : info.remoteAddr with
  | none => exact .same (dataRemoveLocalSubscription_remote d info)
  | some addr =>
    dsimp only
    unfold dataRemoveRemoteSubscription
    split
    · next hany =>
      obtain ⟨a, ha, hcompare⟩ := List.any_eq_true.mp hany
      obtain ⟨stored, l₁, l₂, _, hstored, hlist, herase⟩ := List.exists_of_eraseP (p := (remoteSubscriptionCompare · info)) ha hcompare
      obtain ⟨hkey, hsame⟩ := remoteSubscriptionCompare_key hstored
      exact .removed info stored l₁ l₂ (by rw [haddr]; rfl) hkey hsame hlist herase
    · exact .same rfl

theorem dataRemoveSubscriber_remote (d : Data) (service : CString) (t : TransportInfo) :
    RemoteChange d.remoteSubscriptionsList (dataRemoveSubscriber d service t).1.remoteSubscriptionsList
      op (dataRemoveSubscriber d service t).2 := by
  have hlocal : ∀ d₁ : Data, d₁.remoteSubscriptionsList = d.remoteSubscriptionsList →
      RemoteChange d.remoteSubscriptionsList
        (dataRemoveRemoteEntriesForSubscriber d₁ service t).1.remoteSubscriptionsList op
        (dataRemoveRemoteEntriesForSubscriber d₁ service t).2 := by
    intro d₁ h
    unfold dataRemoveRemoteEntriesForSubscriber
    rw [h]
    exact .removedAll _ rfl
  unfold dataRemoveSubscriber
  refine hlocal _ ?_
  split
  · rfl
  · dsimp only
    split
    · rfl
    · rfl

/-- One request, as the remote subscriptions see it. -/
theorem dataStep_remote (hs : dataStep d op = some (d', out)) :
    RemoteChange d.remoteSubscriptionsList d'.remoteSubscriptionsList op out := by
  cases op with
  | addSubscription info =>
    simp only [dataStep, dataAddSubscription] at hs
    cases haddr : info.remoteAddr with
    | some addr =>
      simp only [haddr, Option.some.injEq, Prod.mk.injEq] at hs
      obtain ⟨rfl, rfl⟩ := hs
      exact .added info rfl (by rw [haddr]; rfl) rfl
    | none =>
      simp only [haddr] at hs
      obtain ⟨d₁, ha, he⟩ := Option.map_eq_some_iff.mp hs
      obtain ⟨rfl, rfl⟩ := Prod.mk.inj he
      exact .same (dataAddLocalSubscription_remote ha)
  | removeSubscription info =>
    have hchange := @dataRemoveSubscription_remote (.removeSubscription info) d info
    rw [Option.some.inj hs] at hchange
    exact hchange
  | addLocalSubscription info =>
    obtain ⟨d₁, ha, he⟩ := Option.map_eq_some_iff.mp hs
    obtain ⟨rfl, rfl⟩ := Prod.mk.inj he
    exact .same (dataAddLocalSubscription_remote ha)
  | removeLocalSubscription info =>
    obtain ⟨rfl, rfl⟩ := Prod.mk.inj (Option.some.inj hs)
    exact .same (dataRemoveLocalSubscription_remote d info)
  | removeSubscriber service t =>
    have hchange := @dataRemoveSubscriber_remote (.removeSubscriber service t) d service t
    rw [Option.some.inj hs] at hchange
    exact hchange
  | removeLocalSubscriptionsForAddr addr =>
    obtain ⟨rfl, rfl⟩ := Prod.mk.inj (Option.some.inj hs)
    exact .same rfl
  | addPublisher service t =>
    obtain ⟨d₁, ha, he⟩ := Option.map_eq_some_iff.mp hs
    obtain ⟨rfl, rfl⟩ := Prod.mk.inj he
    obtain ⟨_, _, rfl⟩ := Option.map_eq_some_iff.mp ha
    exact .same rfl
  | removePublisher service t =>
    obtain ⟨d₁, ha, he⟩ := Option.map_eq_some_iff.mp hs
    obtain ⟨rfl, rfl⟩ := Prod.mk.inj he
    unfold dataRemovePublisher at ha
    split at ha
    · obtain rfl := Option.some.inj ha
      exact .same rfl
    · obtain ⟨_, _, rfl⟩ := Option.map_eq_some_iff.mp ha
      exact .same rfl

end

/-! ## Messages as changes of a count -/

/-- The remote subscriptions for a host, as they are told apart. -/
def remoteKeys (list : List SubscriptionInfo) (addr : UInt32) : List SubscriptionKey :=
  (list.filter fun info => info.remoteAddr == some addr).map SubscriptionInfo.key

/-- What a message does to the number of subscriptions under a key. -/
def SyncMessage.applyTo (k : SubscriptionKey) (n : Nat) : SyncMessage → Nat
  | .bulkSync data => n + (data.map SubscriptionInfo.key).count k
  | .addSubscription info => if info.key = k then n + 1 else n
  | .removeSubscription info => if info.key = k then n - 1 else n

def replay (k : SubscriptionKey) (n : Nat) (messages : List SyncMessage) : Nat :=
  messages.foldl (SyncMessage.applyTo k) n

@[simp] theorem replay_nil (k : SubscriptionKey) (n : Nat) : replay k n [] = n := rfl

@[simp] theorem replay_cons (k : SubscriptionKey) (n : Nat) (message : SyncMessage)
    (rest : List SyncMessage) :
    replay k n (message :: rest) = replay k (message.applyTo k n) rest := rfl

theorem replay_append (k : SubscriptionKey) (n : Nat) (messages more : List SyncMessage) :
    replay k n (messages ++ more) = replay k (replay k n messages) more := List.foldl_append

/-- The message about a change. -/
def RemoteSync.message : RemoteSync → SyncMessage
  | .subscriptionAdded info => .addSubscription info
  | .subscriptionRemoved info => .removeSubscription info

def changesFor (addr : UInt32) (out : List RemoteSync) : List SyncMessage :=
  (out.filter fun x => x.info.remoteAddr == some addr).map RemoteSync.message

section
variable {list list' : List SubscriptionInfo} {op : Op} {out : List RemoteSync} {addr : UInt32}

theorem remoteKeys_cons_of_eq {info : SubscriptionInfo} (h : info.remoteAddr = some addr)
    (list : List SubscriptionInfo) : remoteKeys (info :: list) addr = info.key :: remoteKeys list addr := by
  simp [remoteKeys, h]

theorem remoteKeys_cons_of_ne {info : SubscriptionInfo} (h : info.remoteAddr ≠ some addr)
    (list : List SubscriptionInfo) : remoteKeys (info :: list) addr = remoteKeys list addr := by
  simp [remoteKeys, h]

theorem remoteKeys_append (l₁ l₂ : List SubscriptionInfo) (addr : UInt32) :
    remoteKeys (l₁ ++ l₂) addr = remoteKeys l₁ addr ++ remoteKeys l₂ addr := by
  simp [remoteKeys]

/-- Removals that are told one by one. -/
theorem replay_removals (k : SubscriptionKey) (n : Nat) (removed : List SubscriptionInfo) :
    replay k n (changesFor addr (removed.map .subscriptionRemoved)) =
      n - (remoteKeys removed addr).count k := by
  induction removed generalizing n with
  | nil => rfl
  | cons info removed ih =>
    by_cases haddr : info.remoteAddr = some addr
    · have hfirst : changesFor addr ((info :: removed).map .subscriptionRemoved) =
          .removeSubscription info :: changesFor addr (removed.map .subscriptionRemoved) := by
        simp [changesFor, RemoteSync.info, RemoteSync.message, haddr]
      rw [hfirst, replay_cons, ih, remoteKeys_cons_of_eq haddr, List.count_cons]
      unfold SyncMessage.applyTo
      simp only [beq_iff_eq]
      split
      · omega
      · rfl
    · have hfirst : changesFor addr ((info :: removed).map .subscriptionRemoved) =
          changesFor addr (removed.map .subscriptionRemoved) := by
        simp [changesFor, RemoteSync.info, haddr]
      rw [hfirst, ih, remoteKeys_cons_of_ne haddr]

/-- **What is told is what changed.** -/
theorem RemoteChange.count_eq (h : RemoteChange list list' op out) (k : SubscriptionKey) :
    (remoteKeys list' addr).count k =
      replay k ((remoteKeys list addr).count k) (changesFor addr out) := by
  cases h with
  | same h => rw [h]; rfl
  | added info _ _ h =>
    rw [h]
    by_cases haddr : info.remoteAddr = some addr
    · rw [remoteKeys_cons_of_eq haddr, List.count_cons]
      simp [changesFor, RemoteSync.info, RemoteSync.message, haddr, SyncMessage.applyTo]
      split <;> rfl
    · rw [remoteKeys_cons_of_ne haddr]
      simp [changesFor, RemoteSync.info, haddr]
  | removed info stored l₁ l₂ _ hkey hsame hlist hlist' =>
    rw [hlist, hlist', remoteKeys_append, remoteKeys_append]
    by_cases haddr : info.remoteAddr = some addr
    · rw [remoteKeys_cons_of_eq (hsame.trans haddr), hkey]
      simp [changesFor, RemoteSync.info, RemoteSync.message, haddr, SyncMessage.applyTo, List.count_cons]
      split
      · omega
      · rfl
    · rw [remoteKeys_cons_of_ne fun he => haddr (hsame.symm.trans he)]
      simp [changesFor, RemoteSync.info, haddr]
  | removedAll removed h =>
    have hsplit : (remoteKeys list addr).count k = (remoteKeys (list.filter removed) addr).count k +
        (remoteKeys (list.filter (!removed ·)) addr).count k := by
      rw [← List.count_append, ← remoteKeys_append]
      exact ((List.filter_append_perm removed list).symm.filter _).map _ |>.count_eq k
    have hreverse : (remoteKeys (list.filter removed).reverse addr).count k =
        (remoteKeys (list.filter removed) addr).count k :=
      (((List.reverse_perm _).filter _).map _).count_eq k
    rw [replay_removals, h, hreverse, hsplit]
    omega

/-- A subscription that was not there before is the one that was asked for. -/
theorem RemoteChange.mem (h : RemoteChange list list' op out) {info : SubscriptionInfo}
    (hi : info ∈ list') : info ∈ list ∨ (op = .addSubscription info ∧ info.remoteAddr.isSome) := by
  cases h with
  | same h => exact .inl (h ▸ hi)
  | added added hop hsome h =>
    rw [h] at hi
    rcases List.mem_cons.mp hi with rfl | hi
    · exact .inr ⟨hop, hsome⟩
    · exact .inl hi
  | removed _ stored l₁ l₂ _ _ _ hlist hlist' =>
    rw [hlist'] at hi
    rw [hlist]
    refine .inl ?_
    rcases List.mem_append.mp hi with hi | hi
    · exact List.mem_append_left _ hi
    · exact List.mem_append_right _ (List.mem_cons_of_mem _ hi)
  | removedAll removed h =>
    rw [h] at hi
    exact .inl (List.mem_of_mem_filter hi)

/-- Only changes for some host are told. -/
theorem RemoteChange.isSome (h : RemoteChange list list' op out)
    (hlist : ∀ info ∈ list, info.remoteAddr.isSome) : ∀ x ∈ out, x.info.remoteAddr.isSome := by
  intro x hx
  cases h with
  | same h => cases hx
  | added info _ hsome _ =>
    obtain rfl := List.mem_singleton.mp hx
    exact hsome
  | removed info _ _ _ hsome =>
    obtain rfl := List.mem_singleton.mp hx
    exact hsome
  | removedAll removed h =>
    obtain ⟨info, hi, rfl⟩ := List.mem_map.mp hx
    exact hlist info (List.mem_of_mem_filter (List.mem_reverse.mp hi))

end

/-! ## What a message does to the local subscriptions -/

section
variable {d d' : Data} {addr : UInt32} {k : SubscriptionKey}

theorem namesOk_addLocal (hu : NamesOk d) {info : SubscriptionInfo}
    (h : dataAddLocalSubscription d info = some d') : NamesOk d' := by
  have hstep : dataStep d (.addLocalSubscription info) = some (d', []) := by
    rw [dataStep, h]
    rfl
  exact namesOk_step hu hstep

theorem remoteSyncImplBulkSync_spec (hk : endpointAddr k.2.2 = some addr)
    {data : List SubscriptionInfo} (hu : NamesOk d) (h : remoteSyncImplBulkSync d data = some d') :
    heldCount d' k = heldCount d k + (data.map SubscriptionInfo.key).count k := by
  induction data generalizing d with
  | nil =>
    obtain rfl := Option.some.inj h
    rfl
  | cons info data ih =>
    obtain ⟨d₁, ha, hrest⟩ := Option.bind_eq_some_iff.mp h
    rw [ih (namesOk_addLocal hu ha) hrest, heldCount_addLocal hu hk ha, List.map_cons,
      List.count_cons]
    simp only [beq_iff_eq]
    split
    · omega
    · omega

theorem remoteSyncReceive_names {message : SyncMessage} (hu : NamesOk d)
    (h : remoteSyncReceive d message = some d') : NamesOk d' := by
  cases message with
  | bulkSync data =>
    change remoteSyncImplBulkSync d data = some d' at h
    induction data generalizing d with
    | nil => exact Option.some.inj h ▸ hu
    | cons info data ih =>
      obtain ⟨d₁, ha, hrest⟩ := Option.bind_eq_some_iff.mp h
      exact ih (namesOk_addLocal hu ha) hrest
  | addSubscription info => exact namesOk_addLocal hu h
  | removeSubscription info =>
    obtain rfl := Option.some.inj h
    have hstep : dataStep d (.removeLocalSubscription info) =
        some (dataRemoveLocalSubscription d info, []) := rfl
    exact namesOk_step hu hstep

theorem remoteSyncReceive_remote {message : SyncMessage} (h : remoteSyncReceive d message = some d') :
    d'.remoteSubscriptionsList = d.remoteSubscriptionsList := by
  cases message with
  | bulkSync data =>
    change remoteSyncImplBulkSync d data = some d' at h
    induction data generalizing d with
    | nil => exact Option.some.inj h ▸ rfl
    | cons info data ih =>
      obtain ⟨d₁, ha, hrest⟩ := Option.bind_eq_some_iff.mp h
      exact (ih hrest).trans (dataAddLocalSubscription_remote ha)
  | addSubscription info => exact dataAddLocalSubscription_remote h
  | removeSubscription info =>
    obtain rfl := Option.some.inj h
    exact dataRemoveLocalSubscription_remote d info

/-- **A message does to the subscriptions what it says.** -/
theorem remoteSyncReceive_spec {message : SyncMessage} (hk : endpointAddr k.2.2 = some addr)
    (hu : NamesOk d) (h : remoteSyncReceive d message = some d') :
    heldCount d' k = message.applyTo k (heldCount d k) := by
  cases message with
  | bulkSync data => exact remoteSyncImplBulkSync_spec hk hu h
  | addSubscription info => exact heldCount_addLocal hu hk h
  | removeSubscription info =>
    obtain rfl := Option.some.inj h
    exact heldCount_removeLocal hu info

end

end Cmsg.Psd
