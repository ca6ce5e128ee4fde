import Cmsg.Psd.Publisher

/-! # The update handlers and the composite clients

The handlers of a publisher with the pointers that they pass on: a lookup in
`subscribed_methods` that fails gives `NULL`, and what is done with it is a fault. -/
namespace Cmsg.Psd
open Cmsg.Base

/-- Where a handler cannot go on: it uses a composite client that was not found, or the
path of a transport is no format. -/
inductive Fault
  | nullClient
  | path
deriving DecidableEq, Repr

/-- `cmsg_composite_client_num_children`, of a pointer to a composite client -/
def compositeClientNumChildren : Option (List Transport) → Except Fault Nat
  | none => .error .nullClient
  | some children => .ok children.length

/-- `cmsg_publisher_get_client_for_method` -/
def publisherGetClientForMethod (table : SubscribedMethods) (methodName : CString)
    (create : Bool) : Option (List Transport) × SubscribedMethods :=
  match table.lookup methodName with
  | some children => (some children, table)
  | none => if create then (some [], table.insert methodName []) else (none, table)

def infoToTransport (info : TransportInfo) : Except Fault Transport :=
  match transportInfoToTransport info with
  | none => .error .path
  | some transport => .ok transport

/-- `cmsg_publisher_add_subscriber`. Nothing is added to a client that is `NULL`. -/
def handleAdd (table : SubscribedMethods) (methodName : CString) (info : TransportInfo) :
    Except Fault SubscribedMethods :=
  let (compClient, table) := publisherGetClientForMethod table methodName true
  match infoToTransport info with
  | .error fault => .error fault
  | .ok transport =>
    match compClient with
    | none => .ok table
    | some children => .ok (table.insert methodName (transport :: children))

/-- The branch of `cmsg_publisher_remove_subscriber` for a client that was found -/
def deleteSubscriber (info : TransportInfo) :
    Option (List Transport) → Except Fault (Option (List Transport))
  | none => .ok none
  | some children =>
    match infoToTransport info with
    | .error fault => .error fault
    | .ok transport => .ok (some (children.eraseP (transportCompare · transport)))

/-- `cmsg_publisher_remove_subscriber`. The children are counted outside of the branch. -/
def handleRemove (table : SubscribedMethods) (methodName : CString) (info : TransportInfo) :
    Except Fault SubscribedMethods :=
  match deleteSubscriber info (publisherGetClientForMethod table methodName false).1 with
  | .error fault => .error fault
  | .ok compClient =>
    match compositeClientNumChildren compClient with
    | .error fault => .error fault
    | .ok n =>
      if n = 0 then .ok (table.remove methodName)
      else .ok (table.insert methodName (compClient.getD []))

/-- `cmsg_psd_update_impl_subscription_change` and `cmsg_psd_update_impl_host_removal` -/
def handleUpdate (table : SubscribedMethods) : Update → Except Fault SubscribedMethods
  | .subscriptionChange methodName info true => handleAdd table methodName info
  | .subscriptionChange methodName info false => handleRemove table methodName info
  | .hostRemoval addr => .ok (publisherHostRemoval table addr)

/-- The messages, up to the first fault. -/
def handleUpdates : SubscribedMethods → List Update → Except Fault SubscribedMethods
  | table, [] => .ok table
  | table, u :: us =>
    match handleUpdate table u with
    | .error fault => .error fault
    | .ok table => handleUpdates table us

/-! ## One message -/

section
variable {table table' : SubscribedMethods} {u : Update} {m : CString} {info : TransportInfo}

theorem handleAdd_ok : handleAdd table m info = .ok table' ↔
    publisherAddSubscriber table m info = some table' := by
  unfold handleAdd publisherAddSubscriber publisherGetClientForMethod infoToTransport
  cases transportInfoToTransport info with
  | none => simp
  | some transport =>
    cases hl : table.lookup m with
    | some children => simp
    | none =>
      have hinsert : (table.insert m []).insert m [transport] = table.insert m [transport] := by
        refine HashTable.ext fun k => ?_
        by_cases hk : k = m
        · simp [hk]
        · simp [hk]
      simp [hinsert]

theorem handleRemove_ok : handleRemove table m info = .ok table' ↔
    publisherRemoveSubscriber table m info = some table' := by
  unfold handleRemove publisherRemoveSubscriber publisherGetClientForMethod deleteSubscriber
    compositeClientNumChildren infoToTransport
  cases hl : table.lookup m with
  | none => simp
  | some children =>
    cases transportInfoToTransport info with
    | none => simp
    | some transport =>
      simp only [Option.map_some, Option.getD_some, Option.some.injEq]
      split
      · simp
      · simp

/-- Without a fault a handler does what the publisher of the daemon's updates does. -/
theorem handleUpdate_ok : handleUpdate table u = .ok table' ↔
    publisherUpdate table u = some table' := by
  cases u with
  | subscriptionChange m info added =>
    cases added with
    | true => exact handleAdd_ok
    | false => exact handleRemove_ok
  | hostRemoval addr =>
    simp [handleUpdate, publisherUpdate]

/-- A removal for a method without a composite client. -/
def RemovesUnknown (table : SubscribedMethods) (u : Update) : Prop :=
  ∃ m info, u = .subscriptionChange m info false ∧ table.lookup m = none

/-- The one way to use a lookup that failed. -/
theorem handleUpdate_nullClient :
    handleUpdate table u = .error .nullClient ↔ RemovesUnknown table u := by
  unfold RemovesUnknown
  cases u with
  | subscriptionChange m info added =>
    cases added with
    | true =>
      have hne : handleAdd table m info ≠ .error .nullClient := by
        unfold handleAdd publisherGetClientForMethod infoToTransport
        cases transportInfoToTransport info with
        | none => simp
        | some transport =>
          cases table.lookup m with
          | none => simp
          | some children => simp
      simpa [handleUpdate] using hne
    | false =>
      show handleRemove table m info = _ ↔ _
      unfold handleRemove publisherGetClientForMethod deleteSubscriber compositeClientNumChildren
        infoToTransport
      cases hl : table.lookup m with
      | none => simp [hl]
      | some children =>
        cases transportInfoToTransport info with
        | none => simp [hl]
        | some transport =>
          simp only [Option.getD_some]
          split
          · simp [hl]
          · simp [hl]
  | hostRemoval addr => simp [handleUpdate]

/-- A message that is handled leaves no composite client without children. -/
theorem noneEmpty_handleUpdate (hn : NoneEmpty table) (h : handleUpdate table u = .ok table') :
    NoneEmpty table' := by
  have hpublisher := handleUpdate_ok.mp h
  cases u with
  | subscriptionChange m info added =>
    cases added with
    | true =>
      obtain ⟨transport, ht, _⟩ := Option.map_eq_some_iff.mp hpublisher
      obtain ⟨table₁, hadd, hn₁, _⟩ := @add_spec _ m _ _ ht hn
      rw [publisherUpdate, hadd] at hpublisher
      exact Option.some.inj hpublisher ▸ hn₁
    | false =>
      cases hl : table.lookup m with
      | none =>
        have hfault := handleUpdate_nullClient.mpr ⟨m, info, rfl, hl⟩
        rw [hfault] at h
        cases h
      | some children =>
        have hm : subscribers table m ≠ [] := by
          rw [subscribers, hl]
          exact fun hnil => hn m (hl.trans (congrArg some hnil))
        have hremove : publisherRemoveSubscriber table m info = some table' := hpublisher
        rw [publisherRemoveSubscriber, hl] at hremove
        obtain ⟨transport, ht, _⟩ := Option.map_eq_some_iff.mp hremove
        obtain ⟨table₁, hremoved, hn₁, _⟩ := remove_spec ht hn hm
        rw [publisherUpdate, hremoved] at hpublisher
        exact Option.some.inj hpublisher ▸ hn₁
  | hostRemoval addr =>
    obtain rfl := Option.some.inj hpublisher
    exact (hostRemoval_spec table addr).1

end

/-! ## All messages -/

/-- At no point of the messages is a failed lookup used or a composite client without a
child. -/
def HandledSafely (table : SubscribedMethods) (us : List Update) : Prop :=
  ∀ before after, us = before ++ after →
    handleUpdates table before ≠ .error .nullClient ∧
      ∀ table', handleUpdates table before = .ok table' → NoneEmpty table'

/-- Every removal is for a method that has a composite client when it is handled. -/
def RemovesKnown (table : SubscribedMethods) (us : List Update) : Prop :=
  ∀ before m info after table', us = before ++ .subscriptionChange m info false :: after →
    handleUpdates table before = .ok table' → table'.lookup m ≠ none

section
variable {table : SubscribedMethods}

theorem handleUpdates_snoc {before : List Update} {u : Update} :
    ∀ {table table' : SubscribedMethods}, handleUpdates table before = .ok table' →
      handleUpdates table (before ++ [u]) = handleUpdate table' u := by
  induction before with
  | nil =>
    intro table table' h
    cases h
    rw [List.nil_append, handleUpdates]
    cases handleUpdate table u with
    | error fault => rfl
    | ok table => rfl
  | cons v before ih =>
    intro table table' h
    rw [List.cons_append, handleUpdates] at *
    cases hv : handleUpdate table v with
    | error fault =>
      rw [hv] at h
      cases h
    | ok table₁ =>
      rw [hv] at h
      exact ih h

theorem handleUpdates_cons {u : Update} {us : List Update} {table₁ : SubscribedMethods}
    (h : handleUpdate table u = .ok table₁) :
    handleUpdates table (u :: us) = handleUpdates table₁ us := by
  rw [handleUpdates, h]

/-- The first messages, one by one. -/
theorem safe_of_removesKnown (before : List Update) :
    ∀ {table : SubscribedMethods} {after : List Update}, NoneEmpty table →
      RemovesKnown table (before ++ after) →
      handleUpdates table before ≠ .error .nullClient ∧
        ∀ table', handleUpdates table before = .ok table' → NoneEmpty table' := by
  induction before with
  | nil =>
    intro table after hn _
    exact ⟨fun h => (by cases h), fun table' h => Except.ok.inj h ▸ hn⟩
  | cons u before ih =>
    intro table after hn hknown
    cases hu : handleUpdate table u with
    | error fault =>
      have hrun : handleUpdates table (u :: before) = .error fault := by
        rw [handleUpdates, hu]
      rw [hrun]
      refine ⟨fun hnull => ?_, fun table' h => by cases h⟩
      rw [Except.error.inj hnull, handleUpdate_nullClient] at hu
      obtain ⟨m, info, rfl, hl⟩ := hu
      exact hknown [] m info (before ++ after) table rfl rfl hl
    | ok table₁ =>
      rw [handleUpdates_cons hu]
      have hrest : RemovesKnown table₁ (before ++ after) := by
        intro before' m info after' table' hsplit hrun
        refine hknown (u :: before') m info after' table' ?_ ?_
        · rw [List.cons_append, List.cons_append, hsplit]
        · rw [handleUpdates_cons hu, hrun]
      exact ih (noneEmpty_handleUpdate hn hu) hrest

/-- **The handlers are safe**, from any table that has no empty composite client, exactly
on the messages that remove from known methods only. -/
theorem handled_safely_iff (hn : NoneEmpty table) (us : List Update) :
    HandledSafely table us ↔ RemovesKnown table us := by
  constructor
  · intro hsafe before m info after table' hsplit hrun hl
    have hfault := (hsafe (before ++ [.subscriptionChange m info false]) after (by simp [hsplit])).1
    rw [handleUpdates_snoc hrun, ne_eq, handleUpdate_nullClient] at hfault
    exact hfault ⟨m, info, rfl, hl⟩
  · intro hknown before after hsplit
    exact safe_of_removesKnown before hn (hsplit ▸ hknown)

theorem noneEmpty_empty : NoneEmpty HashTable.empty := fun _ h => by cases h

theorem noneEmpty_foldlM {α : Type} {f : SubscribedMethods → α → Option SubscribedMethods}
    (hf : ∀ table x table', NoneEmpty table → f table x = some table' → NoneEmpty table')
    (xs : List α) : ∀ {table table' : SubscribedMethods}, NoneEmpty table →
      xs.foldlM f table = some table' → NoneEmpty table' := by
  induction xs with
  | nil =>
    intro table table' hn h
    exact Option.some.inj h ▸ hn
  | cons x xs ih =>
    intro table table' hn h
    rw [List.foldlM_cons] at h
    obtain ⟨table₁, hx, hrest⟩ := Option.bind_eq_some_iff.mp h
    exact ih (hf table x table₁ hn hx) hrest

/-- What registering returned fills the table with subscribers. -/
theorem noneEmpty_init {snapshot : List MethodDataEntry}
    (h : publisherInitSubscribers snapshot = some table) : NoneEmpty table := by
  refine noneEmpty_foldlM (fun _ entry _ hn hentry => ?_) snapshot noneEmpty_empty h
  refine noneEmpty_foldlM (fun _ info _ hn hadd => ?_) entry.transports hn hentry
  exact @noneEmpty_handleUpdate _ _ (.subscriptionChange entry.methodName info true) hn
    (handleAdd_ok.mpr hadd)

end

/-- A subscriber comes and goes. -/
theorem handled_safely_sample :
    HandledSafely HashTable.empty [.subscriptionChange [0x6d] ⟨false, .unixInfo [0x61]⟩ true,
      .subscriptionChange [0x6d] ⟨false, .unixInfo [0x61]⟩ false] := by
  have hn : NoneEmpty HashTable.empty := @noneEmpty_init _ [] rfl
  refine (handled_safely_iff hn _).mpr fun before m info after table' hsplit hrun => ?_
  rcases before with _ | ⟨u, _ | ⟨v, before⟩⟩
  · cases hsplit
  · obtain ⟨rfl, hrest⟩ := List.cons.inj hsplit
    obtain ⟨hremove, _⟩ := List.cons.inj hrest
    cases hremove
    cases hrun
    exact fun hnone => by cases hnone
  · have hlength := congrArg List.length hsplit
    simp at hlength

/-- A removal for a method without subscribers uses the lookup that failed. -/
theorem unknown_removal_uses_null :
    handleUpdates HashTable.empty [.subscriptionChange [0x6d] ⟨false, .unixInfo [0x61]⟩ false] =
        .error .nullClient ∧
      ¬ HandledSafely HashTable.empty
        [.subscriptionChange [0x6d] ⟨false, .unixInfo [0x61]⟩ false] := by
  have hfault : handleUpdates HashTable.empty
      [.subscriptionChange [0x6d] ⟨false, .unixInfo [0x61]⟩ false] = .error .nullClient := rfl
  exact ⟨hfault, fun hsafe => (hsafe _ [] (List.append_nil _).symm).1 hfault⟩

end Cmsg.Psd
