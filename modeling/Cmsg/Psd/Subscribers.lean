import Cmsg.Psd.LocalSubscriptions

/-! # Subscribers that are removed

`data_remove_subscriber` takes the first transport that compares equal from every
method of the service, and all of the remote subscriptions. A subscriber that a
method lists twice is therefore left in that method. -/
namespace Cmsg.Psd
open Cmsg.Base Cmsg.Base.Runs

/-- The subscriptions that do not belong to the subscriber of the service. -/
def isOther (service : CString) (info : TransportInfo) (s : CString) (t : TransportInfo) : Bool :=
  !(s == service && transportInfoCompare t info)

/-- **What is wanted.** No subscription of the subscriber is left for the service, and
all other subscriptions stay what they were. -/
structure SubscriberGone (d d' : Data) (service : CString) (info : TransportInfo) : Prop where
  localGone : ∀ method ∈ (getServiceEntryOrCreate d' service).methods, ∀ t ∈ method.transports,
    transportInfoCompare t info = false
  remoteGone : ∀ i ∈ d'.remoteSubscriptionsList, i.service = service →
    transportInfoCompare i.transportInfo info = false
  localOthers : ∀ s m, (transportsAt d' s m).filter (isOther service info s) =
    (transportsAt d s m).filter (isOther service info s)
  remoteOthers :
    d'.remoteSubscriptionsList.filter (fun i => isOther service info i.service i.transportInfo) =
      d.remoteSubscriptionsList.filter fun i => isOther service info i.service i.transportInfo

/-- Every method of the service lists the subscriber at most once. -/
def ListedOnce (d : Data) (service : CString) (info : TransportInfo) : Prop :=
  ∀ method ∈ (getServiceEntryOrCreate d service).methods,
    method.transports.countP (transportInfoCompare · info) ≤ 1

section
variable {d : Data}

/-- The remote list is filtered, whatever happens to the local subscriptions. -/
theorem removeSubscriber_remote (d : Data) (service : CString) (info : TransportInfo) :
    (dataRemoveSubscriber d service info).1.remoteSubscriptionsList =
      d.remoteSubscriptionsList.filter fun i => isOther service info i.service i.transportInfo := by
  unfold dataRemoveSubscriber
  split
  · rfl
  · dsimp only
    split
    · rfl
    · rfl

theorem removeSubscriber_localOthers (hu : NamesOk d) (service : CString) (info : TransportInfo)
    (s m : CString) :
    (transportsAt (dataRemoveSubscriber d service info).1 s m).filter (isOther service info s) =
      (transportsAt d s m).filter (isOther service info s) := by
  rw [transportsAt_removeSubscriber hu]
  split
  · next hs =>
    refine List.filter_eraseP_of_disjoint (fun t ht => ?_) _
    simp [isOther, hs, ht]
  · rfl

theorem holdsLocal_iff {d : Data} {service : CString} {info : TransportInfo} :
    (∀ method ∈ (getServiceEntryOrCreate d service).methods, ∀ t ∈ method.transports,
      transportInfoCompare t info = false) ↔ ¬ HoldsLocal d service info.endpoint := by
  simp only [HoldsLocal, ← Bool.not_eq_true, transportInfoCompare_iff, not_exists, not_and]

theorem subscriberGone_iff (hu : NamesOk d) (service : CString) (info : TransportInfo) :
    SubscriberGone d (dataRemoveSubscriber d service info).1 service info ↔
      ListedOnce d service info := by
  have htwice := (subscriberRemoved hu service info).twice
  have hlocal : (∀ method ∈ (getServiceEntryOrCreate
      (dataRemoveSubscriber d service info).1 service).methods, ∀ t ∈ method.transports,
        transportInfoCompare t info = false) ↔ ListedOnce d service info := by
    rw [holdsLocal_iff, htwice]
    simp only [ListedOnce, not_exists, not_and, Nat.not_le, Nat.lt_succ_iff]
  constructor
  · exact fun h => hlocal.mp h.localGone
  · intro h
    refine ⟨hlocal.mpr h, fun i hi hs => ?_, removeSubscriber_localOthers hu service info, ?_⟩
    · rw [removeSubscriber_remote] at hi
      have hother := (List.mem_filter.mp hi).2
      simpa [isOther, hs] using hother
    · rw [removeSubscriber_remote, List.filter_filter]
      simp only [Bool.and_self]

end

/-- **A subscriber goes** with all its subscriptions exactly when no method of the
service lists it twice. -/
theorem subscriber_gone_iff {ops : List Op} {d : Data} {o : List RemoteSync}
    (he : exec dataStep dataInit ops = some (d, o)) (service : CString) (info : TransportInfo) :
    SubscriberGone d (dataRemoveSubscriber d service info).1 service info ↔
      ListedOnce d service info :=
  subscriberGone_iff (exec_invariant (fun _ _ _ _ h hs => namesOk_step h hs) namesOk_init he)
    service info

def sampleSubscription (methodName : CString) : SubscriptionInfo :=
  ⟨[0x73], ⟨false, .unixInfo [0x61]⟩, methodName, none⟩

/-- One subscription for each of two methods. -/
theorem subscriber_gone_two_methods :
    ∃ d o, exec dataStep dataInit [.addSubscription (sampleSubscription [0x6d]),
        .addSubscription (sampleSubscription [0x6e])] = some (d, o) ∧
      SubscriberGone d (dataRemoveSubscriber d [0x73] ⟨false, .unixInfo [0x61]⟩).1 [0x73]
        ⟨false, .unixInfo [0x61]⟩ := by
  refine ⟨_, _, rfl, (@subscriber_gone_iff [.addSubscription (sampleSubscription [0x6d]),
    .addSubscription (sampleSubscription [0x6e])] _ _ rfl _ _).mpr ?_⟩
  unfold ListedOnce
  decide

/-- Two subscriptions for one method: the older one is left. -/
theorem subscriber_listed_twice :
    ∃ d o, exec dataStep dataInit [.addSubscription (sampleSubscription [0x6d]),
        .addSubscription (sampleSubscription [0x6d])] = some (d, o) ∧
      transportsAt (dataRemoveSubscriber d [0x73] ⟨false, .unixInfo [0x61]⟩).1 [0x73] [0x6d] =
        [⟨false, .unixInfo [0x61]⟩] ∧
      ¬ SubscriberGone d (dataRemoveSubscriber d [0x73] ⟨false, .unixInfo [0x61]⟩).1 [0x73]
          ⟨false, .unixInfo [0x61]⟩ := by
  refine ⟨_, _, rfl, rfl, fun h => ?_⟩
  have hgone := h.localGone ⟨[0x6d], [⟨false, .unixInfo [0x61]⟩]⟩ (List.mem_singleton.mpr rfl)
    ⟨false, .unixInfo [0x61]⟩ (List.mem_singleton.mpr rfl)
  cases hgone

end Cmsg.Psd
