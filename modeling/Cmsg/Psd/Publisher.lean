import Cmsg.Psd.Data

/-! # The publisher's side

A publisher keeps the subscribers of each method as the children of a composite
client, in the table `subscribed_methods`. The table is filled from the
snapshot that registering returns and then follows the updates of the daemon. -/
namespace Cmsg.Psd
open Cmsg.Base

/-- `subscribed_methods`: for each method the transports of the children of its
composite client. -/
abbrev SubscribedMethods := HashTable CString (List Transport)

/-- `cmsg_publisher_add_subscriber` -/
def publisherAddSubscriber (table : SubscribedMethods) (methodName : CString)
    (transportInfo : TransportInfo) : Option SubscribedMethods :=
  (transportInfoToTransport transportInfo).map fun transport =>
    table.insert methodName (transport :: (table.lookup methodName).getD [])

/-- `cmsg_publisher_remove_subscriber`, undefined for a method without a
composite client, whose children are counted all the same. -/
def publisherRemoveSubscriber (table : SubscribedMethods) (methodName : CString)
    (transportInfo : TransportInfo) : Option SubscribedMethods :=
  match table.lookup methodName with
  | none => none
  | some children =>
    (transportInfoToTransport transportInfo).map fun transport =>
      let children := children.eraseP (transportCompare · transport)
      if children.length = 0 then table.remove methodName else table.insert methodName children

/-- The test of `cmsg_composite_client_lookup_by_tcp_ipv4_addr`. -/
def hasTcpAddr (addr : UInt32) : Transport → Bool
  | .tcp _ sockaddr _ => sockaddr.sinAddr == addr
  | .unix _ _ => false

/-- `cmsg_psd_update_impl_host_removal`: every child on the host is deleted, and
the composite clients left without children. -/
def publisherHostRemoval (table : SubscribedMethods) (addr : UInt32) : SubscribedMethods :=
  (table.foreach fun _ children => children.filter (!hasTcpAddr addr ·)).foreachRemove
    fun _ children => children.length == 0

/-- The update server of the publisher. -/
def publisherUpdate (table : SubscribedMethods) : Update → Option SubscribedMethods
  | .subscriptionChange methodName transport true =>
    publisherAddSubscriber table methodName transport
  | .subscriptionChange methodName transport false =>
    publisherRemoveSubscriber table methodName transport
  | .hostRemoval addr => some (publisherHostRemoval table addr)

/-- Processing updates in the order in which they were sent. -/
def publisherProcess (table : SubscribedMethods) (updates : List Update) :
    Option SubscribedMethods :=
  updates.foldlM publisherUpdate table

/-- `cmsg_publisher_init_subscribers`, given what registering returned. -/
def publisherInitSubscribers (snapshot : List MethodDataEntry) : Option SubscribedMethods :=
  snapshot.foldlM (fun table entry => entry.transports.foldlM (fun table transport =>
    publisherAddSubscriber table entry.methodName transport) table) .empty

/-- The subscribers of a method; a method without subscribers is not in the table. -/
def subscribers (table : SubscribedMethods) (m : CString) : List Transport :=
  (table.lookup m).getD []

/-- A table in which every composite client has a child. -/
def NoneEmpty (table : SubscribedMethods) : Prop := ∀ m, table.lookup m ≠ some []

theorem lookup_isSome_of_subscribers {table : SubscribedMethods} {m : CString}
    (h : subscribers table m ≠ []) : table.lookup m = some (subscribers table m) := by
  unfold subscribers at h ⊢
  cases hl : table.lookup m with
  | none => simp [hl] at h
  | some children => rfl

theorem publisherProcess_append {table : SubscribedMethods} {us vs : List Update} :
    publisherProcess table (us ++ vs) =
      (publisherProcess table us).bind fun table => publisherProcess table vs := by
  simp [publisherProcess, List.foldlM_append]

theorem add_spec {table : SubscribedMethods} {m : CString} {info : TransportInfo}
    {transport : Transport} (ht : transportInfoToTransport info = some transport)
    (hn : NoneEmpty table) :
    ∃ table', publisherAddSubscriber table m info = some table' ∧ NoneEmpty table' ∧
      ∀ j, subscribers table' j =
        if j = m then transport :: subscribers table m else subscribers table j := by
  refine ⟨_, by rw [publisherAddSubscriber, ht]; rfl, ?_, ?_⟩
  · intro j
    rw [HashTable.lookup_insert]
    split
    · simp
    · exact hn j
  · intro j
    unfold subscribers
    rw [HashTable.lookup_insert]
    split <;> rfl

theorem remove_spec {table : SubscribedMethods} {m : CString} {info : TransportInfo}
    {transport : Transport} (ht : transportInfoToTransport info = some transport)
    (hn : NoneEmpty table) (hm : subscribers table m ≠ []) :
    ∃ table', publisherRemoveSubscriber table m info = some table' ∧ NoneEmpty table' ∧
      ∀ j, subscribers table' j =
        if j = m then (subscribers table m).eraseP (transportCompare · transport)
        else subscribers table j := by
  have hl := lookup_isSome_of_subscribers hm
  unfold publisherRemoveSubscriber
  simp only [hl, ht, Option.map_some]
  split
  · next h0 =>
    have hnil := List.length_eq_zero_iff.mp h0
    refine ⟨_, rfl, fun j => ?_, fun j => ?_⟩
    · rw [HashTable.lookup_remove]
      split
      · simp
      · exact hn j
    · unfold subscribers at hnil ⊢
      rw [HashTable.lookup_remove]
      split
      · rw [hnil]
        rfl
      · rfl
  · next h0 =>
    refine ⟨_, rfl, fun j => ?_, fun j => ?_⟩
    · rw [HashTable.lookup_insert]
      split
      · intro he
        exact h0 (by rw [Option.some.inj he]; rfl)
      · exact hn j
    · unfold subscribers
      rw [HashTable.lookup_insert]
      split <;> rfl

theorem hostRemoval_spec (table : SubscribedMethods) (addr : UInt32) :
    NoneEmpty (publisherHostRemoval table addr) ∧
      ∀ j, subscribers (publisherHostRemoval table addr) j =
        (subscribers table j).filter (!hasTcpAddr addr ·) := by
  have hlookup : ∀ j, (publisherHostRemoval table addr).lookup j =
      ((table.lookup j).map fun children => children.filter (!hasTcpAddr addr ·)).filter
        fun children => !(children.length == 0) := fun _ => rfl
  refine ⟨fun j => ?_, fun j => ?_⟩
  · rw [hlookup]
    intro h
    obtain ⟨_, hlen⟩ := Option.filter_eq_some_iff.mp h
    simp at hlen
  · unfold subscribers
    rw [hlookup]
    cases table.lookup j with
    | none => rfl
    | some children =>
      by_cases h0 : children.filter (!hasTcpAddr addr ·) = []
      · simp [Option.filter, h0]
      · have hlen : (children.filter (!hasTcpAddr addr ·)).length ≠ 0 := fun h =>
          h0 (List.length_eq_zero_iff.mp h)
        simp [Option.filter, hlen]

end Cmsg.Psd
