import Cmsg.Base.Changes
import Cmsg.Base.Runs
import Cmsg.Transport.Info

/-! # The broadcast client

A composite client whose children follow the servers of a service. The thread of the
service listener adds and removes them, the application adds clients of its own and is
told who joined and who left. -/
namespace Cmsg.Broadcast
open Cmsg.Base Cmsg.Base.Runs Cmsg.Base.Change

/-- What a child is connected to: it may be a loopback client. -/
inductive ClientTransport
  | loopback
  | connected (transport : Transport)

/-- A child, known by the address of its structure. -/
structure ChildClient where
  client : Nat
  transport : ClientTransport

structure BroadcastEvent where
  nodeAddr : UInt32
  joined : Bool
  deriving DecidableEq

/-- How the client was created, with `servicePort` as `htons` returns it for the port of
its entry in the list of services. -/
structure BroadcastConfig where
  servicePort : UInt16
  connectToSelf : Bool
  myNodeAddr : UInt32
  eventHandler : Bool

structure BroadcastClient where
  nextClient : Nat
  childClients : List ChildClient
  eventQueue : List BroadcastEvent
  eventfd : Nat

/-! ## The composite client -/

/-- `cmsg_composite_client_add_child` of a new client -/
def compositeClientAddChild (s : BroadcastClient) (transport : ClientTransport) : BroadcastClient :=
  let child := ⟨s.nextClient, transport⟩
  { s with
    nextClient := s.nextClient + 1
    childClients := match transport with
      | .loopback => s.childClients ++ [child]
      | .connected _ => child :: s.childClients }

/-- `cmsg_composite_client_delete_child`: the first entry with that client is removed. -/
def compositeClientDeleteChild (s : BroadcastClient) (client : Nat) : BroadcastClient :=
  { s with childClients := s.childClients.eraseP fun child => child.client == client }

def ChildClient.comparesTo (transport : Transport) (child : ChildClient) : Bool :=
  match child.transport with
  | .loopback => false
  | .connected t => transportCompare t transport

/-- `cmsg_composite_client_lookup_by_transport` -/
def compositeClientLookupByTransport (s : BroadcastClient) (transport : Transport) :
    Option ChildClient :=
  s.childClients.find? (·.comparesTo transport)

/-! ## Connection management -/

/-- `cmsg_broadcast_client_generate_event` -/
def broadcastClientGenerateEvent (cfg : BroadcastConfig) (s : BroadcastClient) (nodeAddr : UInt32)
    (joined : Bool) : BroadcastClient :=
  if cfg.eventHandler then
    { s with eventQueue := s.eventQueue ++ [⟨nodeAddr, joined⟩], eventfd := s.eventfd + 1 }
  else s

/-- `cmsg_broadcast_client_add_child` -/
def broadcastClientAddChild (cfg : BroadcastConfig) (s : BroadcastClient) (oneWay : Bool)
    (sockaddr : Sockaddr) (vrfBindDev : CString) : BroadcastClient :=
  let s := compositeClientAddChild s (.connected (.tcp oneWay sockaddr vrfBindDev))
  broadcastClientGenerateEvent cfg s sockaddr.sinAddr true

/-- `cmsg_broadcast_client_delete_child` -/
def broadcastClientDeleteChild (cfg : BroadcastConfig) (s : BroadcastClient) (oneWay : Bool)
    (sockaddr : Sockaddr) (vrfBindDev : CString) : BroadcastClient :=
  match compositeClientLookupByTransport s (.tcp oneWay sockaddr vrfBindDev) with
  | none => s
  | some child =>
    broadcastClientGenerateEvent cfg (compositeClientDeleteChild s child.client) sockaddr.sinAddr
      false

/-- `server_event_callback` -/
def serverEventCallback (cfg : BroadcastConfig) (s : BroadcastClient) (transport : Transport)
    (wasAdded : Bool) : BroadcastClient :=
  match transport with
  | .unix _ _ => s
  | .tcp oneWay sockaddr vrfBindDev =>
    if sockaddr.sinPort ≠ cfg.servicePort then s
    else if !cfg.connectToSelf ∧ cfg.myNodeAddr = sockaddr.sinAddr then s
    else if wasAdded then broadcastClientAddChild cfg s oneWay sockaddr vrfBindDev
    else broadcastClientDeleteChild cfg s oneWay sockaddr vrfBindDev

/-! ## The machine -/

inductive BroadcastAction
  | serverEvent (serverInfo : TransportInfo) (wasAdded : Bool)
  | addLoopback
  | addUnix (oneWay : Bool) (sunPath : CString)
  | eventQueueProcess

def broadcastInit : BroadcastClient :=
  { nextClient := 0, childClients := [], eventQueue := [], eventfd := 0 }

/-- The outputs are the calls of the application's handler. -/
def broadcastStep (cfg : BroadcastConfig) :
    Machine BroadcastClient BroadcastAction BroadcastEvent
  | s, .serverEvent serverInfo wasAdded =>
    (transportInfoToTransport serverInfo).map fun t => (serverEventCallback cfg s t wasAdded, [])
  | s, .addLoopback => some (compositeClientAddChild s .loopback, [])
  | s, .addUnix oneWay sunPath =>
    some (compositeClientAddChild s (.connected (.unix oneWay sunPath)), [])
  | s, .eventQueueProcess =>
    if cfg.eventHandler then some ({ s with eventQueue := [], eventfd := 0 }, s.eventQueue)
    else some (s, [])

/-! ## What the client follows -/

/-- `sin_addr` of a transport that was made of a message: an IPv6 address leaves it zero. -/
def IpAddr.nodeAddr : IpAddr → UInt32
  | .ipv4 addr => addr
  | .ipv6 _ => 0

/-- The endpoints to follow: tcp, on the expected port, and not of this node unless that is
asked for. -/
def follows (cfg : BroadcastConfig) : Endpoint → Bool
  | .unix _ _ => false
  | .tcp _ addr port =>
    port == cfg.servicePort && (cfg.connectToSelf || IpAddr.nodeAddr addr != cfg.myNodeAddr)

/-- The changes that the events of the service listener tell of. -/
def serverChange : BroadcastAction → Option (Change Transport)
  | .serverEvent serverInfo wasAdded =>
    (transportInfoToTransport serverInfo).map fun t => if wasAdded then .added t else .removed t
  | _ => none

def serverChanges (actions : List BroadcastAction) : List (Change Transport) :=
  actions.filterMap serverChange

/-- The transports that are up and that the client follows, where those that compare equal
count as one. -/
def upTransports (cfg : BroadcastConfig) (log : List (Change Transport)) : List Transport :=
  (replay Transport.endpoint log).filter fun t => follows cfg t.endpoint

/-- The transports that are up and that the client follows. -/
def transportsUp (cfg : BroadcastConfig) (log : List (Change Transport)) : List Transport :=
  (replay id log).filter fun t => follows cfg t.endpoint

/-- Whether two lists have the same elements. -/
def sameSet (a b : List Transport) : Bool := a.all (· ∈ b) && b.all (· ∈ a)

def Transport.nodeAddr : Transport → UInt32
  | .unix _ _ => 0
  | .tcp _ sockaddr _ => sockaddr.sinAddr

/-- The changes of the set of transports that are up, in order, after the changes `before`. -/
def upChanges (cfg : BroadcastConfig) :
    (before log : List (Change Transport)) → List BroadcastEvent
  | _, [] => []
  | before, c :: log =>
    let rest := upChanges cfg (before ++ [c]) log
    if sameSet (transportsUp cfg before) (transportsUp cfg (before ++ [c])) then rest
    else ⟨Transport.nodeAddr c.subject, c.isAdded⟩ :: rest

theorem sameSet_iff {a b : List Transport} : sameSet a b = true ↔ ∀ t, t ∈ a ↔ t ∈ b := by
  simp only [sameSet, Bool.and_eq_true, List.all_eq_true, decide_eq_true_eq]
  exact ⟨fun h t => ⟨h.1 t, h.2 t⟩, fun h => ⟨fun t => (h t).mp, fun t => (h t).mpr⟩⟩

theorem upChanges_snoc (cfg : BroadcastConfig) (log : List (Change Transport))
    (c : Change Transport) (before : List (Change Transport)) :
    upChanges cfg before (log ++ [c]) = upChanges cfg before log ++
      if sameSet (transportsUp cfg (before ++ log)) (transportsUp cfg (before ++ log ++ [c])) then []
      else [⟨Transport.nodeAddr c.subject, c.isAdded⟩] := by
  induction log generalizing before with
  | nil => simp [upChanges]
  | cons d log ih =>
    have hrest := ih (before ++ [d])
    rw [List.append_assoc before [d] log, List.singleton_append] at hrest
    rw [List.cons_append, upChanges, upChanges, hrest]
    split <;> rfl

section
variable {cfg : BroadcastConfig} {log : List (Change Transport)} {c : Change Transport}

theorem upTransports_snoc : upTransports cfg (log ++ [c]) =
    if follows cfg c.subject.endpoint then applyTo Transport.endpoint (upTransports cfg log) c
    else upTransports cfg log := by
  have hselected : ∀ log, upTransports cfg log =
      replay Transport.endpoint (selected Transport.endpoint (follows cfg) log) :=
    fun log => (replay_selected (follows cfg) log).symm
  rw [hselected, hselected, selected_snoc]
  split
  · rw [replay_snoc]
  · rw [List.append_nil]

theorem transportsUp_snoc : transportsUp cfg (log ++ [c]) =
    if follows cfg c.subject.endpoint then applyTo id (transportsUp cfg log) c
    else transportsUp cfg log := by
  have hselected : ∀ log, transportsUp cfg log =
      replay id (selected id (fun t : Transport => follows cfg t.endpoint) log) :=
    fun log =>
      (@replay_selected _ _ _ id (fun t : Transport => follows cfg t.endpoint) log).symm
  rw [hselected, hselected, selected_snoc, id]
  split
  · rw [replay_snoc]
  · rw [List.append_nil]

theorem upTransports_nodup (halt : Alternates Transport.endpoint log) :
    ((upTransports cfg log).map Transport.endpoint).Nodup :=
  (List.filter_sublist.map _).nodup halt.followed.2

theorem transportsUp_nodup (halt : Alternates id log) : (transportsUp cfg log).Nodup := by
  have hnodup := halt.followed.2
  rw [List.map_id] at hnodup
  exact hnodup.filter _

/-- What is removed next is up. -/
theorem mem_transportsUp {t : Transport} (halt : Alternates id (log ++ [removed t]))
    (hf : follows cfg t.endpoint = true) : t ∈ transportsUp cfg log := by
  have hmem := halt.of_append.followed.1.mem halt
  rw [List.map_id] at hmem
  exact List.mem_filter.mpr ⟨hmem, hf⟩

/-- The set of the transports that are up changes with the changes that are followed. -/
theorem sameSet_snoc (halt : Alternates id (log ++ [c])) :
    sameSet (transportsUp cfg log) (transportsUp cfg (log ++ [c])) =
      !follows cfg c.subject.endpoint := by
  rw [transportsUp_snoc]
  cases hf : follows cfg c.subject.endpoint with
  | false => exact sameSet_iff.mpr fun _ => Iff.rfl
  | true =>
    rw [if_pos rfl, Bool.not_true, Bool.eq_false_iff, Ne, sameSet_iff]
    intro hsame
    cases c with
    | added t =>
      have hnot := halt.of_append.followed.1.notMem halt
      rw [List.map_id] at hnot
      exact hnot (List.mem_of_mem_filter ((hsame t).mpr (List.mem_cons_self ..)))
    | removed t =>
      have hgone := (hsame t).mp (mem_transportsUp halt hf)
      have herase : applyTo id (transportsUp cfg log) (removed t) = (transportsUp cfg log).erase t :=
        (List.erase_eq_eraseP' t _).symm
      rw [herase] at hgone
      exact ((transportsUp_nodup halt.of_append).mem_erase_iff.mp hgone).1 rfl

end

/-! ## The children -/

/-- The tcp transport of a child. -/
def ChildClient.tcp? (child : ChildClient) : Option Transport :=
  match child.transport with
  | .connected (.tcp oneWay sockaddr vrfBindDev) => some (.tcp oneWay sockaddr vrfBindDev)
  | _ => none

def tcpTransports (s : BroadcastClient) : List Transport := s.childClients.filterMap (·.tcp?)

/-- No other child comes after a loopback child. -/
def LoopbackLast (childClients : List ChildClient) : Prop :=
  childClients.Pairwise fun a b => a.transport = .loopback → b.transport = .loopback

theorem comparesTo_iff {child : ChildClient} {oneWay : Bool} {sockaddr : Sockaddr}
    {vrfBindDev : CString} :
    child.comparesTo (.tcp oneWay sockaddr vrfBindDev) = true ↔
      ∃ t, child.tcp? = some t ∧
        (t.endpoint == (Transport.tcp oneWay sockaddr vrfBindDev).endpoint) = true := by
  obtain ⟨client, transport⟩ := child
  cases transport with
  | loopback => simp [ChildClient.comparesTo, ChildClient.tcp?]
  | connected t =>
    simp only [ChildClient.comparesTo, transportCompare_iff]
    cases t with
    | unix _ _ => simp [ChildClient.tcp?, Transport.endpoint]
    | tcp _ _ _ => simp [ChildClient.tcp?]

/-- What every step keeps, whatever the events are. -/
structure ChildrenOk (s : BroadcastClient) : Prop where
  known : ∀ child ∈ s.childClients, child.client < s.nextClient
  distinct : (s.childClients.map (·.client)).Nodup
  loopback : LoopbackLast s.childClients
  waiting : s.eventQueue ≠ [] → 0 < s.eventfd

theorem childrenOk_init : ChildrenOk broadcastInit :=
  ⟨fun _ h => (by cases h), .nil, .nil, fun h => absurd rfl h⟩

section
variable {cfg : BroadcastConfig} {s : BroadcastClient}

theorem ChildrenOk.addChild (h : ChildrenOk s) (transport : ClientTransport) :
    ChildrenOk (compositeClientAddChild s transport) := by
  have hfresh : s.nextClient ∉ s.childClients.map (·.client) := by
    intro hmem
    obtain ⟨child, hchild, he⟩ := List.mem_map.mp hmem
    exact absurd (h.known child hchild) (he ▸ Nat.lt_irrefl _)
  refine ⟨?_, ?_, ?_, h.waiting⟩
  · intro child hchild
    have hcases : child ∈ s.childClients ∨ child = ⟨s.nextClient, transport⟩ := by
      cases transport with
      | loopback => simpa [compositeClientAddChild] using hchild
      | connected t => simpa [compositeClientAddChild, or_comm] using hchild
    rcases hcases with hchild | rfl
    · exact Nat.lt_succ_of_lt (h.known child hchild)
    · exact Nat.lt_succ_self _
  · cases transport with
    | loopback =>
      simp only [compositeClientAddChild, List.map_append, List.map_cons, List.map_nil]
      rw [List.nodup_append]
      refine ⟨h.distinct, by simp, fun a ha b hb hab => ?_⟩
      rw [List.mem_singleton] at hb
      exact hfresh (hb ▸ hab ▸ ha)
    | connected t => exact List.nodup_cons.mpr ⟨hfresh, h.distinct⟩
  · cases transport with
    | loopback =>
      refine List.pairwise_append.mpr ⟨h.loopback, List.pairwise_singleton _ _, ?_⟩
      intro a _ b hb _
      rw [List.mem_singleton.mp hb]
    | connected t =>
      refine List.pairwise_cons.mpr ⟨fun b _ he => ?_, h.loopback⟩
      cases he

theorem ChildrenOk.deleteChild (h : ChildrenOk s) (client : Nat) :
    ChildrenOk (compositeClientDeleteChild s client) where
  known child hchild := h.known child (List.mem_of_mem_eraseP hchild)
  distinct := (List.eraseP_sublist.map _).nodup h.distinct
  loopback := h.loopback.sublist List.eraseP_sublist
  waiting := h.waiting

theorem ChildrenOk.generateEvent (h : ChildrenOk s) (cfg : BroadcastConfig) (addr : UInt32)
    (joined : Bool) : ChildrenOk (broadcastClientGenerateEvent cfg s addr joined) := by
  unfold broadcastClientGenerateEvent
  split
  · exact ⟨h.known, h.distinct, h.loopback, fun _ => Nat.succ_pos _⟩
  · exact h

theorem generateEvent_children (cfg : BroadcastConfig) (s : BroadcastClient) (addr : UInt32)
    (joined : Bool) :
    tcpTransports (broadcastClientGenerateEvent cfg s addr joined) = tcpTransports s := by
  unfold broadcastClientGenerateEvent
  split <;> rfl

theorem generateEvent_queue (cfg : BroadcastConfig) (s : BroadcastClient) (addr : UInt32)
    (joined : Bool) :
    (broadcastClientGenerateEvent cfg s addr joined).eventQueue =
      s.eventQueue ++ if cfg.eventHandler then [⟨addr, joined⟩] else [] := by
  unfold broadcastClientGenerateEvent
  split
  · rfl
  · exact (List.append_nil _).symm

/-! ## One event of the service listener -/

/-- What the client does about one change. -/
structure Reacts (cfg : BroadcastConfig) (s : BroadcastClient) (c : Change Transport)
    (s' : BroadcastClient) : Prop where
  ok : ChildrenOk s'
  children : tcpTransports s' =
    if follows cfg c.subject.endpoint then applyTo Transport.endpoint (tcpTransports s) c
    else tcpTransports s
  queue : s'.eventQueue = s.eventQueue ++
    if cfg.eventHandler ∧ follows cfg c.subject.endpoint = true ∧
        (c.isAdded = true ∨ c.subject.endpoint ∈ (tcpTransports s).map Transport.endpoint) then
      [⟨Transport.nodeAddr c.subject, c.isAdded⟩]
    else []

/-- A change of a transport that is not followed. -/
theorem reacts_ignored (h : ChildrenOk s) {c : Change Transport}
    (hf : follows cfg c.subject.endpoint = false) : Reacts cfg s c s :=
  ⟨h, by rw [hf, if_neg Bool.false_ne_true], by simp [hf]⟩

section
variable {oneWay : Bool} {sockaddr : Sockaddr} {vrfBindDev : CString}

theorem reacts_added (h : ChildrenOk s)
    (hf : follows cfg (Transport.tcp oneWay sockaddr vrfBindDev).endpoint = true) :
    Reacts cfg s (.added (.tcp oneWay sockaddr vrfBindDev))
      (broadcastClientAddChild cfg s oneWay sockaddr vrfBindDev) where
  ok := (h.addChild _).generateEvent cfg _ _
  children := by
    rw [subject, if_pos hf, broadcastClientAddChild, generateEvent_children]
    rfl
  queue := by
    rw [broadcastClientAddChild, generateEvent_queue]
    simp [subject, isAdded, hf, Transport.nodeAddr, compositeClientAddChild]

theorem reacts_removed (h : ChildrenOk s)
    (hf : follows cfg (Transport.tcp oneWay sockaddr vrfBindDev).endpoint = true) :
    Reacts cfg s (.removed (.tcp oneWay sockaddr vrfBindDev))
      (broadcastClientDeleteChild cfg s oneWay sockaddr vrfBindDev) := by
  unfold broadcastClientDeleteChild
  cases hfound : compositeClientLookupByTransport s (.tcp oneWay sockaddr vrfBindDev) with
  | none =>
    have hnone : (Transport.tcp oneWay sockaddr vrfBindDev).endpoint ∉
        (tcpTransports s).map Transport.endpoint := by
      intro hmem
      obtain ⟨t, ht, he⟩ := List.mem_map.mp hmem
      obtain ⟨child, hchild, htcp⟩ := List.mem_filterMap.mp ht
      exact List.find?_eq_none.mp hfound child hchild
        (comparesTo_iff.mpr ⟨t, htcp, beq_iff_eq.mpr he⟩)
    refine ⟨h, ?_, ?_⟩
    · rw [subject, if_pos hf, applyTo, List.eraseP_of_forall_not]
      intro t ht he
      exact hnone (List.mem_map.mpr ⟨t, ht, beq_iff_eq.mp he⟩)
    · simp [subject, isAdded, hnone]
  | some child =>
    obtain ⟨t, htcp, he⟩ := comparesTo_iff.mp (List.find?_some hfound)
    have hmem : (Transport.tcp oneWay sockaddr vrfBindDev).endpoint ∈
        (tcpTransports s).map Transport.endpoint :=
      List.mem_map.mpr ⟨t, List.mem_filterMap.mpr ⟨child, List.mem_of_find?_eq_some hfound, htcp⟩,
        beq_iff_eq.mp he⟩
    refine ⟨(h.deleteChild _).generateEvent cfg _ _, ?_, ?_⟩
    · -- the addresses of the children differ, so the child found is the one deleted
      have hdeleted : (compositeClientDeleteChild s child.client).childClients =
          s.childClients.eraseP (·.comparesTo (.tcp oneWay sockaddr vrfBindDev)) :=
        List.eraseP_key_of_find? h.distinct hfound
      rw [subject, if_pos hf, generateEvent_children, tcpTransports, hdeleted]
      exact List.filterMap_eraseP fun child _ => comparesTo_iff
    · rw [generateEvent_queue]
      simp [subject, isAdded, hf, hmem, Transport.nodeAddr, compositeClientDeleteChild]

end

theorem serverEventCallback_reacts (h : ChildrenOk s) {info : TransportInfo}
    {c : Change Transport} (ht : transportInfoToTransport info = some c.subject) :
    Reacts cfg s c (serverEventCallback cfg s c.subject c.isAdded) := by
  cases hsubject : c.subject with
  | unix oneWay path => exact reacts_ignored h (by rw [hsubject]; rfl)
  | tcp oneWay sockaddr vrfBindDev =>
    -- an IPv6 address of a message leaves the place of `sin_addr` zero
    have haddr : IpAddr.nodeAddr sockaddr.ipAddr = sockaddr.sinAddr := by
      rw [hsubject] at ht
      unfold transportInfoToTransport at ht
      split at ht
      · obtain ⟨_, _, hout⟩ := Option.map_eq_some_iff.mp ht
        cases hout
      · next tcp _ =>
        cases haddr : tcp.addr with
        | ipv4 addr =>
          rw [haddr] at ht
          cases ht
          rfl
        | ipv6 addr =>
          rw [haddr] at ht
          cases ht
          rfl
    have hfollows : follows cfg c.subject.endpoint =
        (sockaddr.sinPort == cfg.servicePort &&
          (cfg.connectToSelf || sockaddr.sinAddr != cfg.myNodeAddr)) := by
      rw [hsubject, ← haddr]
      rfl
    unfold serverEventCallback
    dsimp only
    split
    · next hport =>
      exact reacts_ignored h (by rw [hfollows]; simp [hport])
    · next hport =>
      split
      · next hself =>
        refine reacts_ignored h ?_
        rw [hfollows]
        obtain ⟨hno, hself⟩ := hself
        simp [hself, by simpa using hno]
      · next hself =>
        have hf : follows cfg c.subject.endpoint = true := by
          rw [hfollows]
          simp only [ne_eq, Decidable.not_not] at hport
          simp only [hport, beq_self_eq_true, Bool.true_and, Bool.or_eq_true, bne_iff_ne]
          by_cases hconnect : cfg.connectToSelf = true
          · exact Or.inl hconnect
          · exact Or.inr fun he => hself ⟨by simpa using hconnect, he.symm⟩
        rw [hsubject] at hf
        cases c with
        | added t =>
          obtain rfl : t = _ := hsubject
          exact reacts_added h hf
        | removed t =>
          obtain rfl : t = _ := hsubject
          exact reacts_removed h hf

/-! ## Runs -/

/-- One step: what the service listener tells of is reacted to, and nothing else concerns
the tcp children or makes an event. -/
theorem broadcastStep_cases (h : ChildrenOk s) {a : BroadcastAction} {s' : BroadcastClient}
    {o : List BroadcastEvent} (hs : broadcastStep cfg s a = some (s', o)) :
    (∃ c, serverChange a = some c ∧ o = [] ∧ Reacts cfg s c s') ∨
      (serverChange a = none ∧ ChildrenOk s' ∧ tcpTransports s' = tcpTransports s ∧
        o ++ s'.eventQueue = s.eventQueue) := by
  cases a with
  | serverEvent info wasAdded =>
    obtain ⟨t, ht, he⟩ := Option.map_eq_some_iff.mp hs
    cases he
    refine .inl ⟨if wasAdded then .added t else .removed t, by rw [serverChange, ht]; rfl, rfl, ?_⟩
    cases wasAdded with
    | true => exact serverEventCallback_reacts (c := .added t) h ht
    | false => exact serverEventCallback_reacts (c := .removed t) h ht
  | addLoopback =>
    cases hs
    refine .inr ⟨rfl, h.addChild _, ?_, rfl⟩
    simp [tcpTransports, compositeClientAddChild, ChildClient.tcp?]
  | addUnix oneWay sunPath =>
    cases hs
    refine .inr ⟨rfl, h.addChild _, ?_, rfl⟩
    simp [tcpTransports, compositeClientAddChild, ChildClient.tcp?]
  | eventQueueProcess =>
    simp only [broadcastStep] at hs
    split at hs
    · cases hs
      exact .inr ⟨rfl, ⟨h.known, h.distinct, h.loopback, fun he => absurd rfl he⟩, rfl,
        List.append_nil _⟩
    · cases hs
      exact .inr ⟨rfl, h, rfl, rfl⟩

theorem serverChanges_snoc (actions : List BroadcastAction) (a : BroadcastAction) :
    serverChanges (actions ++ [a]) = serverChanges actions ++ (serverChange a).toList := by
  rw [serverChanges, List.filterMap_append, serverChanges]
  cases h : serverChange a with
  | none => rw [List.filterMap_cons_none h]; rfl
  | some c => rw [List.filterMap_cons_some h]; rfl

end

section
variable {cfg : BroadcastConfig} {s : BroadcastClient} {handled : List BroadcastEvent}
  {actions : List BroadcastAction}

/-- In every run the client has the transports that are up, where those that compare equal
count as one. -/
theorem children_run (he : exec (broadcastStep cfg) broadcastInit actions = some (s, handled)) :
    ChildrenOk s ∧ tcpTransports s = upTransports cfg (serverChanges actions) := by
  refine exec_track (R := fun s actions _ => ChildrenOk s ∧
    tcpTransports s = upTransports cfg (serverChanges actions)) ?_ ⟨childrenOk_init, rfl⟩ he
  rintro s actions _ a s' o ⟨hok, hchildren⟩ hs
  rw [serverChanges_snoc]
  rcases broadcastStep_cases hok hs with ⟨c, hc, _, hreacts⟩ | ⟨hc, hok', hsame, _⟩
  · rw [hc, Option.toList_some, upTransports_snoc, ← hchildren]
    exact ⟨hreacts.ok, hreacts.children⟩
  · rw [hc, Option.toList_none, List.append_nil, hsame]
    exact ⟨hok', hchildren⟩

/-- **What is wanted.** The tcp children are the transports that are up and to be followed,
the application is told of the changes of this set in their order, and a loopback child is
last. -/
structure BroadcastOk (cfg : BroadcastConfig) (s : BroadcastClient)
    (log : List (Change Transport)) (handled : List BroadcastEvent) : Prop where
  children : (tcpTransports s).Perm (transportsUp cfg log)
  distinct : (tcpTransports s).Nodup
  events : handled ++ s.eventQueue = if cfg.eventHandler then upChanges cfg [] log else []
  loopback : LoopbackLast s.childClients
  waiting : s.eventQueue ≠ [] → 0 < s.eventfd

/-- Whenever a transport that is followed is removed, it is the one that was added last of
those that are up and compare equal to it. -/
def LatestRemoved (cfg : BroadcastConfig) (log : List (Change Transport)) : Prop :=
  ∀ before t after, log = before ++ removed t :: after → follows cfg t.endpoint = true →
    (transportsUp cfg before).find? (transportCompare · t) = some t

theorem LatestRemoved.of_append {log log' : List (Change Transport)}
    (h : LatestRemoved cfg (log ++ log')) : LatestRemoved cfg log := by
  rintro before t after rfl hf
  exact h before t (after ++ log') (by simp) hf

/-- It is enough that transports which compare equal are the same. -/
theorem latestRemoved_of_identical {log : List (Change Transport)} (halt : Alternates id log)
    (hsame : ∀ c ∈ log, ∀ d ∈ log, transportCompare c.subject d.subject = true →
      c.subject = d.subject) : LatestRemoved cfg log := by
  rintro before t after rfl hf
  have halt' : Alternates id (before ++ [removed t]) := by
    rw [← List.singleton_append, ← List.append_assoc] at halt
    exact halt.of_append
  have hmem := mem_transportsUp halt' hf
  have hsome : ((transportsUp cfg before).find? (transportCompare · t)).isSome = true :=
    List.find?_isSome.mpr ⟨t, hmem, (transportCompare_iff t t).mpr rfl⟩
  obtain ⟨u, hu⟩ := Option.isSome_iff_exists.mp hsome
  have hup : ∀ log : List (Change Transport), ∀ u ∈ replay id log, ∃ c ∈ log, c.subject = u := by
    intro log
    induction log using List.reverseRecOn with
    | nil => exact fun u hu => by cases hu
    | append_singleton log c ih =>
      intro u hu
      rw [replay_snoc] at hu
      cases c with
      | added a =>
        rcases List.mem_cons.mp hu with rfl | hu
        · exact ⟨.added u, by simp, rfl⟩
        · obtain ⟨c, hc, he⟩ := ih u hu
          exact ⟨c, by simp [hc], he⟩
      | removed a =>
        obtain ⟨c, hc, he⟩ := ih u (List.mem_of_mem_eraseP hu)
        exact ⟨c, by simp [hc], he⟩
  obtain ⟨c, hc, rfl⟩ := hup before u
    (List.mem_of_mem_filter (List.mem_of_find?_eq_some hu))
  have hcompare : transportCompare c.subject t = true :=
    List.find?_some (p := (transportCompare · t)) hu
  have he : c.subject = t := hsame c (by simp [hc]) (.removed t) (by simp) hcompare
  rw [hu, he]

/-- What the events of the service listener have made of the client. -/
structure Follows (cfg : BroadcastConfig) (s : BroadcastClient) (log : List (Change Transport))
    (handled : List BroadcastEvent) : Prop where
  ok : ChildrenOk s
  children : tcpTransports s = transportsUp cfg log
  events : handled ++ s.eventQueue = if cfg.eventHandler then upChanges cfg [] log else []

theorem Follows.broadcastOk {log : List (Change Transport)} (h : Follows cfg s log handled)
    (halt : Alternates id log) : BroadcastOk cfg s log handled :=
  ⟨by rw [h.children], by rw [h.children]; exact transportsUp_nodup halt, h.events, h.ok.loopback,
    h.ok.waiting⟩

/-- One change, where a transport that is removed is the latest that compares equal. -/
theorem Follows.step {log : List (Change Transport)} (h : Follows cfg s log handled)
    {c : Change Transport} (halt : Alternates id (log ++ [c]))
    (hlatest : LatestRemoved cfg (log ++ [c])) {s' : BroadcastClient}
    (hreacts : Reacts cfg s c s') : Follows cfg s' (log ++ [c]) handled := by
  refine ⟨hreacts.ok, ?_, ?_⟩
  · rw [hreacts.children, transportsUp_snoc, h.children]
    split
    · next hf =>
      cases c with
      | added t => rfl
      | removed t =>
        have hfirst := hlatest log t [] rfl hf
        have hnodup : ((transportsUp cfg log).map id).Nodup := by
          rw [List.map_id]
          exact transportsUp_nodup halt.of_append
        have hkey : (transportsUp cfg log).eraseP (fun u => id u == id t) =
            (transportsUp cfg log).eraseP (transportCompare · t) :=
          List.eraseP_key_of_find? hnodup hfirst
        have hcompare : (fun u : Transport => u.endpoint == t.endpoint) = (transportCompare · t) := by
          funext u
          rw [Bool.eq_iff_iff, beq_iff_eq, transportCompare_iff]
        rw [applyTo, applyTo, hkey, hcompare]
    · rfl
  · rw [hreacts.queue, ← List.append_assoc, h.events, upChanges_snoc, List.nil_append,
      sameSet_snoc halt, h.children]
    cases hh : cfg.eventHandler with
    | false => simp
    | true =>
      cases hf : follows cfg c.subject.endpoint with
      | false => simp
      | true =>
        have htold : c.isAdded = true ∨
            c.subject.endpoint ∈ (transportsUp cfg log).map Transport.endpoint := by
          cases c with
          | added t => exact .inl rfl
          | removed t => exact .inr (List.mem_map_of_mem (mem_transportsUp halt hf))
        have hcond : true = true ∧ true = true ∧ (c.isAdded = true ∨
            c.subject.endpoint ∈ (transportsUp cfg log).map Transport.endpoint) :=
          ⟨rfl, rfl, htold⟩
        rw [if_pos hcond]
        rfl

theorem follows_run (he : exec (broadcastStep cfg) broadcastInit actions = some (s, handled))
    (halt : Alternates id (serverChanges actions))
    (hlatest : LatestRemoved cfg (serverChanges actions)) :
    Follows cfg s (serverChanges actions) handled := by
  refine exec_track (R := fun s actions handled => Alternates id (serverChanges actions) →
    LatestRemoved cfg (serverChanges actions) → Follows cfg s (serverChanges actions) handled)
    ?_ (fun _ _ => ⟨childrenOk_init, rfl, by cases cfg.eventHandler <;> rfl⟩) he halt hlatest
  intro s actions handled a s' o ih hs halt hlatest
  rw [serverChanges_snoc] at halt hlatest ⊢
  have h := ih halt.of_append hlatest.of_append
  rcases broadcastStep_cases h.ok hs with ⟨c, hc, rfl, hreacts⟩ | ⟨hc, hok, hsame, hqueue⟩
  · rw [hc, Option.toList_some] at halt hlatest ⊢
    rw [List.append_nil]
    exact h.step halt hlatest hreacts
  · rw [hc, Option.toList_none, List.append_nil]
    refine ⟨hok, hsame.trans h.children, ?_⟩
    rw [List.append_assoc, hqueue]
    exact h.events

/-- A client that has lost another child than the one that is gone. -/
theorem latest_of_perm {log : List (Change Transport)} {t : Transport}
    (halt : Alternates id (log ++ [removed t])) (hf : follows cfg t.endpoint = true)
    (hperm : ((transportsUp cfg log).eraseP fun u => u.endpoint == t.endpoint).Perm
      (transportsUp cfg (log ++ [removed t]))) :
    (transportsUp cfg log).find? (transportCompare · t) = some t := by
  have hcompare : (fun u : Transport => u.endpoint == t.endpoint) = (transportCompare · t) := by
    funext u
    rw [Bool.eq_iff_iff, beq_iff_eq, transportCompare_iff]
  have hnodup : (transportsUp cfg log).Nodup := transportsUp_nodup halt.of_append
  have hsome : ((transportsUp cfg log).find? (transportCompare · t)).isSome = true :=
    List.find?_isSome.mpr ⟨t, mem_transportsUp halt hf, (transportCompare_iff t t).mpr rfl⟩
  obtain ⟨u, hu⟩ := Option.isSome_iff_exists.mp hsome
  rw [hcompare, transportsUp_snoc, subject, if_pos hf, applyTo] at hperm
  have herase : ((transportsUp cfg log).eraseP fun b => id b == id t) =
      (transportsUp cfg log).erase t := (List.erase_eq_eraseP' t _).symm
  rw [herase] at hperm
  by_contra hne
  have hut : u ≠ t := fun he => hne (he ▸ hu)
  have hkept : u ∈ (transportsUp cfg log).erase t :=
    (List.mem_erase_of_ne hut).mpr (List.mem_of_find?_eq_some hu)
  exact ((hnodup.mem_eraseP hu).mp (hperm.mem_iff.mpr hkept)).2 rfl

theorem latestRemoved_run
    (he : exec (broadcastStep cfg) broadcastInit actions = some (s, handled))
    (halt : Alternates id (serverChanges actions))
    (hok : ∀ pre post, actions = pre ++ post → ∀ s handled,
      exec (broadcastStep cfg) broadcastInit pre = some (s, handled) →
        (tcpTransports s).Perm (transportsUp cfg (serverChanges pre))) :
    LatestRemoved cfg (serverChanges actions) := by
  induction actions using List.reverseRecOn generalizing s handled with
  | nil => exact fun before t after hsplit => by simp [serverChanges] at hsplit
  | append_singleton actions a ih =>
    obtain ⟨s₁, o₁, o₂, he₁, hlast, _⟩ := exec_append.mp he
    obtain ⟨s₂, o₃, _, hs, hnil, _⟩ := exec_cons.mp hlast
    obtain ⟨rfl, _⟩ := Prod.mk.inj (Option.some.inj hnil)
    rw [serverChanges_snoc] at halt ⊢
    have hlatest := ih he₁ halt.of_append fun pre post hsplit =>
      hok pre (post ++ [a]) (by rw [hsplit, List.append_assoc])
    have hchildren := (follows_run he₁ halt.of_append hlatest).children
    rcases broadcastStep_cases (children_run he₁).1 hs with ⟨c, hc, _, hreacts⟩ | ⟨hc, _⟩
    · rw [hc, Option.toList_some] at halt ⊢
      intro before t after hsplit hf
      rcases List.eq_nil_or_concat after with rfl | ⟨after, d, rfl⟩
      · obtain ⟨rfl, hlast⟩ := List.append_inj' hsplit rfl
        obtain rfl := (List.cons.inj hlast).1
        refine latest_of_perm halt hf ?_
        have hperm := hok _ [] (List.append_nil _).symm _ _ he
        rw [serverChanges_snoc, hc, Option.toList_some, hreacts.children, subject, if_pos hf,
          hchildren] at hperm
        exact hperm
      · rw [List.concat_eq_append, ← List.cons_append, ← List.append_assoc] at hsplit
        exact hlatest before t after (List.append_inj' hsplit rfl).1 hf
    · rw [hc, Option.toList_none, List.append_nil]
      exact hlatest

/-- **The broadcast client** has one child for every transport that is up and to be followed,
and tells the application of each change of them, after every event of a run, exactly when no
transport is removed while one that compares equal to it and was added later is up. -/
theorem broadcast_follows_iff (halt : Alternates id (serverChanges actions))
    (he : exec (broadcastStep cfg) broadcastInit actions = some (s, handled)) :
    (∀ pre post, actions = pre ++ post → ∀ s handled,
        exec (broadcastStep cfg) broadcastInit pre = some (s, handled) →
          BroadcastOk cfg s (serverChanges pre) handled) ↔
      LatestRemoved cfg (serverChanges actions) := by
  constructor
  · exact fun h => latestRemoved_run he halt fun pre post hsplit s handled hpre =>
      (h pre post hsplit s handled hpre).children
  · rintro hlatest pre post rfl s handled hpre
    have hsplit : serverChanges (pre ++ post) = serverChanges pre ++ serverChanges post :=
      List.filterMap_append
    rw [hsplit] at halt hlatest
    exact (follows_run hpre halt.of_append hlatest.of_append).broadcastOk halt.of_append

end

/-- A service on port 5000, and this node is 10.0.0.1. -/
def meshConfig : BroadcastConfig :=
  { servicePort := 0x8813, connectToSelf := false, myNodeAddr := 0x0100000a, eventHandler := true }

def meshServer (addr : UInt32) (port : UInt16) : TransportInfo :=
  ⟨false, .tcpInfo { addr := .ipv4 addr, port, scopeId := 0, vrfBindDev := none }⟩

/-- Of the servers that come, this node's own and the one on another port are left out. -/
def meshRun : List BroadcastAction :=
  [.addLoopback, .serverEvent (meshServer 0x0200000a 0x8813) true,
    .serverEvent (meshServer 0x0100000a 0x8813) true,
    .serverEvent (meshServer 0x0300000a 0x8813) true,
    .serverEvent (meshServer 0x0300000a 0x8913) true, .eventQueueProcess,
    .serverEvent (meshServer 0x0200000a 0x8813) false]

theorem broadcast_follows_meshRun : ∃ s handled,
    exec (broadcastStep meshConfig) broadcastInit meshRun = some (s, handled) ∧
      BroadcastOk meshConfig s (serverChanges meshRun) handled ∧
      (tcpTransports s).map Transport.nodeAddr = [0x0300000a] ∧
      handled ++ s.eventQueue =
        [⟨0x0200000a, true⟩, ⟨0x0300000a, true⟩, ⟨0x0200000a, false⟩] := by
  have halt : Alternates id (serverChanges meshRun) := alternates_of_subjects (by decide)
  refine ⟨_, _, rfl, ?_, rfl, rfl⟩
  exact (@broadcast_follows_iff meshConfig _ _ meshRun halt rfl).mpr
    (latestRemoved_of_identical halt (by decide)) meshRun [] (List.append_nil _).symm _ _ rfl

def vrfServer (vrfBindDev : CString) : TransportInfo :=
  ⟨false, .tcpInfo ⟨.ipv4 0x0200000a, 0x8813, 0, some vrfBindDev⟩⟩

/-- Two servers that differ in their device only: when the older one is removed, the child
of the other is deleted. -/
theorem other_device_deleted :
    let actions : List BroadcastAction := [.serverEvent (vrfServer [0x72]) true,
      .serverEvent (vrfServer [0x62]) true, .serverEvent (vrfServer [0x72]) false]
    Alternates id (serverChanges actions) ∧ ∃ s handled,
      exec (broadcastStep meshConfig) broadcastInit actions = some (s, handled) ∧
        (tcpTransports s).map some = [transportInfoToTransport (vrfServer [0x72])] ∧
        (transportsUp meshConfig (serverChanges actions)).map some =
          [transportInfoToTransport (vrfServer [0x62])] ∧
        ¬ BroadcastOk meshConfig s (serverChanges actions) handled := by
  intro actions
  refine ⟨alternates_of_subjects (by decide), _, _, rfl, rfl, rfl, fun h => ?_⟩
  have hperm := h.children
  revert hperm
  decide

end Cmsg.Broadcast
