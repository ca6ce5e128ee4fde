import Cmsg.Psd.Entries
import Cmsg.Psd.Publisher

/-! # The daemon and the publisher agree

Simulation between the two stores. A publisher agrees with a service entry when
for every method the keys of its subscribers are those of the transports that
the daemon lists, as multisets. The key is whatever tells the transports of a
run apart as far as `cmsg_transport_info_compare` does (`KeyOn`): the endpoint
always is one, and the whole message is one where equal transports are identical. -/
namespace Cmsg.Psd
open Cmsg.Base Cmsg.Base.Runs

variable {κ : Type} {D : TransportInfo → Prop} {key : TransportInfo → κ}

/-- `key` tells the transports in `D` apart exactly as the comparison does, and
copying leaves them unchanged. -/
structure KeyOn (D : TransportInfo → Prop) (key : TransportInfo → κ) : Prop where
  copy : ∀ a, D a → transportInfoCopy a = some a
  compare : ∀ a b, D a → D b → (transportInfoCompare a b = true ↔ key a = key b)

/-- A transport that was built from a message in `D`. -/
structure Child (D : TransportInfo → Prop) (t : Transport) : Prop where
  info : D (transportInfoCreate t)
  transport : transportInfoToTransport (transportInfoCreate t) = some t

theorem KeyOn.child (hk : KeyOn D key) {info : TransportInfo} (hD : D info) :
    ∃ t, transportInfoToTransport info = some t ∧ transportInfoCreate t = info ∧ Child D t := by
  obtain ⟨t, ht, _, hc⟩ := toTransport_endpoint (hk.copy info hD)
  exact ⟨t, ht, hc, hc.symm ▸ hD, by rw [hc, ht]⟩

/-- The publisher compares the transports as the daemon compares the messages. -/
theorem KeyOn.compare_child (hk : KeyOn D key) {t u : Transport} (ht : Child D t)
    (hu : Child D u) : transportCompare t u = true ↔
      key (transportInfoCreate t) = key (transportInfoCreate u) := by
  rw [transportCompare_iff, ← hk.compare _ _ ht.info hu.info, transportInfoCompare_iff,
    transportInfoCreate_endpoint, transportInfoCreate_endpoint]

/-- Transports built from equal messages are on the same host. -/
theorem KeyOn.hasAddr_child (hk : KeyOn D key) {t : Transport} {info : TransportInfo}
    (ht : Child D t) (hD : D info) (he : key (transportInfoCreate t) = key info) (addr : UInt32) :
    hasTcpAddr addr t = hasAddr addr info := by
  have hend := (transportInfoCompare_iff _ _).mp ((hk.compare _ _ ht.info hD).mpr he)
  have htt := ht.transport
  rw [transportInfoCreate_endpoint] at hend
  obtain ⟨oneWay, data⟩ := info
  cases data with
  | unixInfo path =>
    cases t with
    | tcp _ _ _ => simp [Transport.endpoint, TransportInfo.endpoint] at hend
    | unix _ _ =>
      obtain ⟨u, hu, _, hcreate⟩ := toTransport_endpoint (hk.copy _ hD)
      cases u with
      | tcp _ _ _ => simp [transportInfoCreate] at hcreate
      | unix _ _ => simp [hasTcpAddr, hasAddr, hu]
  | tcpInfo tcp =>
    cases t with
    | unix _ _ => simp [Transport.endpoint, TransportInfo.endpoint] at hend
    | tcp oneWay' sockaddr dev =>
      simp only [Transport.endpoint, TransportInfo.endpoint, Endpoint.tcp.injEq] at hend
      obtain ⟨_, haddr, _⟩ := hend
      simp only [transportInfoCreate, transportInfoToTransport, transportTcpInfoCreate,
        Option.some.injEq, Transport.tcp.injEq] at htt
      obtain ⟨_, hsock, _⟩ := htt
      -- neither side ever has flow information in an IPv6 address
      cases hta : tcp.addr with
      | ipv4 a =>
        cases sockaddr with
        | inet6 _ _ _ _ => simp [Sockaddr.ipAddr, hta] at haddr
        | inet port b =>
          simp only [Sockaddr.ipAddr, hta, IpAddr.ipv4.injEq] at haddr
          simp [hasTcpAddr, hasAddr, transportInfoToTransport, hta, Sockaddr.sinAddr, haddr]
      | ipv6 a =>
        cases sockaddr with
        | inet _ _ => simp [Sockaddr.ipAddr, hta] at haddr
        | inet6 port flow b scope =>
          simp only [Sockaddr.ipAddr, Sockaddr.inet6.injEq] at hsock
          simp [hasTcpAddr, hasAddr, transportInfoToTransport, hta, Sockaddr.sinAddr, ← hsock.2.1]

/-! ## Agreement with the transports of each method -/

structure Agrees (D : TransportInfo → Prop) (key : TransportInfo → κ) (table : SubscribedMethods)
    (transports : CString → List TransportInfo) : Prop where
  noneEmpty : NoneEmpty table
  children : ∀ m, ∀ t ∈ subscribers table m, Child D t
  perm : ∀ m, ((subscribers table m).map fun t => key (transportInfoCreate t)).Perm
    ((transports m).map key)

theorem agrees_empty : Agrees D key .empty fun _ => [] where
  noneEmpty _ h := by cases h
  children _ _ h := by cases h
  perm _ := .nil

theorem Agrees.congr {table : SubscribedMethods} {f g : CString → List TransportInfo}
    (h : Agrees D key table f) (hfg : ∀ m, (f m).Perm (g m)) : Agrees D key table g where
  noneEmpty := h.noneEmpty
  children := h.children
  perm m := (h.perm m).trans ((hfg m).map key)

/-- Adding the same transport on both sides. -/
theorem Agrees.add (hk : KeyOn D key) {table : SubscribedMethods}
    {f g : CString → List TransportInfo} {m : CString} {info : TransportInfo} (hD : D info)
    (h : Agrees D key table f) (hg : ∀ j, g j = if j = m then info :: f m else f j) :
    ∃ table', publisherAddSubscriber table m info = some table' ∧ Agrees D key table' g := by
  obtain ⟨t, ht, hcreate, hchild⟩ := hk.child hD
  obtain ⟨table', hadd, hne, hsub⟩ := add_spec (m := m) ht h.noneEmpty
  refine ⟨table', hadd, hne, fun j u hu => ?_, fun j => ?_⟩
  · rw [hsub] at hu
    split at hu
    · rcases List.mem_cons.mp hu with rfl | hu
      · exact hchild
      · exact h.children m u hu
    · exact h.children j u hu
  · rw [hsub, hg]
    split
    · rw [List.map_cons, List.map_cons, hcreate]
      exact (h.perm m).cons _
    · exact h.perm j

/-- Removing the first equal transport on both sides, where there is one. -/
theorem Agrees.remove (hk : KeyOn D key) {table : SubscribedMethods}
    {f g : CString → List TransportInfo} {m : CString} {info : TransportInfo} (hD : D info)
    (h : Agrees D key table f) (hf : ∀ t ∈ f m, D t) (hm : f m ≠ [])
    (hg : ∀ j, g j = if j = m then (f m).eraseP (transportInfoCompare · info) else f j) :
    ∃ table', publisherRemoveSubscriber table m info = some table' ∧ Agrees D key table' g := by
  classical
  obtain ⟨t, ht, hcreate, hchild⟩ := hk.child hD
  have hne : subscribers table m ≠ [] := by
    intro hnil
    have hlen := (h.perm m).length_eq
    rw [List.length_map, List.length_map, hnil] at hlen
    exact hm (List.length_eq_zero_iff.mp hlen.symm)
  obtain ⟨table', hrem, hne', hsub⟩ := remove_spec ht h.noneEmpty hne
  refine ⟨table', hrem, hne', fun j u hu => ?_, fun j => ?_⟩
  · rw [hsub] at hu
    split at hu
    · exact h.children m u (List.mem_of_mem_eraseP hu)
    · exact h.children j u hu
  · rw [hsub, hg]
    split
    · rw [List.map_eraseP_eq_erase (k := key info), List.map_eraseP_eq_erase (k := key info)]
      · exact (h.perm m).erase _
      · intro a ha
        exact hk.compare a info (hf a ha) hD
      · intro u hu
        rw [hk.compare_child (h.children m u hu) hchild, hcreate]
    · exact h.perm j

/-- Deleting everything on one host, on both sides. -/
theorem Agrees.hostRemoval (hk : KeyOn D key) {table : SubscribedMethods}
    {f : CString → List TransportInfo} (h : Agrees D key table f) (hf : ∀ m, ∀ t ∈ f m, D t)
    (addr : UInt32) :
    Agrees D key (publisherHostRemoval table addr) fun m => (f m).filter (!hasAddr addr ·) := by
  obtain ⟨hne, hsub⟩ := hostRemoval_spec table addr
  refine ⟨hne, fun m u hu => ?_, fun m => ?_⟩
  · rw [hsub] at hu
    exact h.children m u (List.mem_filter.mp hu).1
  · rw [hsub]
    refine List.Perm.filter_of_key (h.perm m) fun t ht info hinfo he => ?_
    rw [hk.hasAddr_child (h.children m t ht) (hf m info hinfo) he]

/-! ## The snapshot -/

theorem snapshot_method (hk : KeyOn D key) (m : CString) (transports : List TransportInfo) :
    ∀ {table : SubscribedMethods} {f : CString → List TransportInfo},
      (∀ t ∈ transports, D t) → Agrees D key table f →
      ∃ table', transports.foldlM (fun table t => publisherAddSubscriber table m t) table =
          some table' ∧
        Agrees D key table' fun j => if j = m then transports ++ f m else f j := by
  induction transports with
  | nil =>
    intro table f _ h
    refine ⟨table, rfl, h.congr fun j => ?_⟩
    split
    · next hj => rw [hj]; exact .refl _
    · exact .refl _
  | cons info transports ih =>
    intro table f hD h
    obtain ⟨table₁, hadd, h₁⟩ := h.add hk (m := m) (hD info (by simp)) fun _ => rfl
    obtain ⟨table₂, hfold, h₂⟩ := ih (fun t ht => hD t (by simp [ht])) h₁
    refine ⟨table₂, ?_, h₂.congr fun j => ?_⟩
    · rw [List.foldlM_cons, hadd]
      exact hfold
    · by_cases hj : j = m
      · simp only [if_pos hj, if_true]
        exact List.perm_middle
      · simp only [if_neg hj]
        exact .refl _

theorem snapshot_methods (hk : KeyOn D key) (methods : List MethodDataEntry) :
    ∀ {table : SubscribedMethods} {f : CString → List TransportInfo},
      (∀ method ∈ methods, ∀ t ∈ method.transports, D t) → Agrees D key table f →
      ∃ table', methods.foldlM (fun table entry => entry.transports.foldlM
          (fun table t => publisherAddSubscriber table entry.methodName t) table) table =
          some table' ∧
        Agrees D key table' fun j =>
          (methods.filter (·.methodName == j)).flatMap (·.transports) ++ f j := by
  induction methods with
  | nil => exact fun _ h => ⟨_, rfl, h⟩
  | cons method methods ih =>
    intro table f hD h
    obtain ⟨table₁, hadd, h₁⟩ := snapshot_method hk method.methodName method.transports
      (hD method (by simp)) h
    obtain ⟨table₂, hfold, h₂⟩ := ih (fun m hm => hD m (by simp [hm])) h₁
    refine ⟨table₂, ?_, h₂.congr fun j => ?_⟩
    · rw [List.foldlM_cons, hadd]
      exact hfold
    · by_cases hj : j = method.methodName
      · subst hj
        simp only [if_true, List.filter_cons, beq_self_eq_true, List.flatMap_cons]
        rw [← List.append_assoc]
        exact List.perm_append_comm.append_right _
      · have hj' : (method.methodName == j) = false := beq_eq_false_iff_ne.mpr (Ne.symm hj)
        simp only [if_neg hj, List.filter_cons, hj', Bool.false_eq_true, if_false]
        exact .refl _

end Cmsg.Psd
