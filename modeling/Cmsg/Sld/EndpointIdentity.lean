import Cmsg.Sld.EntryRun

/-! # What makes two transports one server

`find_server` takes two servers of a service for the same one when their messages compare
equal. The comparison leaves the scope id and the device out, which the transports that are
made of the messages have, so a server can take the place of one that it is not. -/
namespace Cmsg.Sld
open Cmsg.Base

/-! ## The comparison and the conversion -/

/-- The scope id that a transport of this message has. -/
def scopeOf (tcp : TcpTransportInfo) : Option UInt32 :=
  match tcp.addr with
  | .ipv4 _ => none
  | .ipv6 _ => some tcp.scopeId

/-- The device that a transport of this message is bound to. -/
def deviceOf (tcp : TcpTransportInfo) : CString :=
  (tcp.vrfBindDev.getD []).take (bindDevNameMax - 1)

/-- Tcp messages with one IPv6 scope and one device. -/
def SameScope (a b : TransportInfo) : Prop :=
  match a.data, b.data with
  | .tcpInfo a, .tcpInfo b => scopeOf a = scopeOf b ∧ deviceOf a = deviceOf b
  | _, _ => True

/-- The transports of two messages connect to one endpoint: they have the same type, address,
port, scope id and device. -/
def SameEndpoint (a b : TransportInfo) : Prop :=
  transportInfoToTransport a = transportInfoToTransport b

/-- Where the comparison finds no difference, the scope and the device decide. -/
theorem sameEndpoint_iff {a b : TransportInfo} (h : a.endpoint = b.endpoint) :
    SameEndpoint a b ↔ SameScope a b := by
  obtain ⟨oneWay, dataA⟩ := a
  obtain ⟨oneWay', dataB⟩ := b
  cases dataA with
  | unixInfo path =>
    cases dataB with
    | unixInfo path' =>
      obtain ⟨rfl, rfl⟩ := Endpoint.unix.inj h
      exact iff_of_true rfl trivial
    | tcpInfo tcp' => cases h
  | tcpInfo tcp =>
    cases dataB with
    | unixInfo path' => cases h
    | tcpInfo tcp' =>
      obtain ⟨rfl, haddr, hport⟩ := Endpoint.tcp.inj h
      unfold SameEndpoint SameScope transportInfoToTransport scopeOf deviceOf
      dsimp only
      rw [← haddr, ← hport, Option.some.injEq, Transport.tcp.injEq]
      cases tcp.addr with
      | ipv4 addr => simp
      | ipv6 addr => simp

/-! ## Servers that are dropped -/

/-- The server that `data_remove_server` finds for another one. -/
def foundServer (d : Data) (x : ServiceInfo) : Option ServiceInfo :=
  (serversOf d x.service).find? (findServer · x)

/-- No server at another endpoint is dropped when this one is added. -/
def KeepsOthers (d : Data) (sends : Nat → Nat → Bool) (x : ServiceInfo) (isLocal : Bool) : Prop :=
  ∀ y, ¬ SameEndpoint y.serverInfo x.serverInfo →
    (serversOf d x.service).count y ≤
      (serversOf (dataAddServer sends d x isLocal) x.service).count y

theorem endpoint_of_foundServer {d : Data} {x z : ServiceInfo} (h : foundServer d x = some z) :
    z.serverInfo.endpoint = x.serverInfo.endpoint :=
  (transportInfoCompare_iff _ _).mp (List.find?_some (p := (findServer · x)) h)

/-- The one server that adding a server drops is the one that is found. -/
theorem count_addServer (d : Data) (sends : Nat → Nat → Bool) (x : ServiceInfo) (isLocal : Bool)
    (y : ServiceInfo) :
    (serversOf d x.service).count y + (if { x with isLocal } = y then 1 else 0) =
      (serversOf (dataAddServer sends d x isLocal) x.service).count y +
        (if foundServer d x = some y then 1 else 0) := by
  rw [serversOf_addServer, if_pos rfl, List.count_cons]
  simp only [beq_iff_eq]
  unfold foundServer
  cases hfound : (serversOf d x.service).find? (findServer · x) with
  | none =>
    rw [List.eraseP_of_forall_not fun z hz => List.find?_eq_none.mp hfound z hz,
      if_neg (show ¬ none = some y from fun h => (by cases h))]
    rfl
  | some z =>
    obtain ⟨hz, before, after, hservers, hbefore⟩ := List.find?_eq_some_iff_append.mp hfound
    have herase : (serversOf d x.service).eraseP (findServer · x) = before ++ after := by
      rw [hservers, List.eraseP_append_right _ fun w hw => by simpa using hbefore w hw,
        List.eraseP_cons_of_pos (p := (findServer · x)) hz]
    rw [herase, hservers, List.count_append, List.count_append, List.count_cons]
    simp only [beq_iff_eq, Option.some.injEq]
    omega

theorem keepsOthers_iff (d : Data) (sends : Nat → Nat → Bool) (x : ServiceInfo) (isLocal : Bool) :
    KeepsOthers d sends x isLocal ↔
      ∀ z, foundServer d x = some z → SameScope z.serverInfo x.serverInfo := by
  have hcount := count_addServer d sends x isLocal
  constructor
  · intro hkeeps z hz
    rw [← sameEndpoint_iff (endpoint_of_foundServer hz)]
    by_contra hother
    have hne : { x with isLocal } ≠ z := fun h => hother (by rw [← h]; rfl)
    have hkept := hkeeps z hother
    have hone := hcount z
    rw [if_neg hne, if_pos hz] at hone
    omega
  · intro hscope y hother
    have hne : foundServer d x ≠ some y := fun h =>
      hother ((sameEndpoint_iff (endpoint_of_foundServer h)).mpr (hscope y h))
    have hnone := hcount y
    rw [if_neg hne] at hnone
    omega

/-- **Endpoint identity**: messages that compare equal yield one endpoint, and adding a server
drops none at another one, exactly where no scope id and no device differs. -/
theorem endpoint_identity_iff (a b : TransportInfo) (d : Data) (sends : Nat → Nat → Bool)
    (x : ServiceInfo) (isLocal : Bool) :
    ((transportInfoCompare a b = true → SameEndpoint a b) ↔
      (a.endpoint = b.endpoint → SameScope a b)) ∧
    (KeepsOthers d sends x isLocal ↔
      ∀ z, foundServer d x = some z → SameScope z.serverInfo x.serverInfo) := by
  refine ⟨?_, keepsOthers_iff d sends x isLocal⟩
  rw [transportInfoCompare_iff]
  exact forall_congr' fun h => sameEndpoint_iff h

/-- A server on port 80 of address 10.0.0.1 in a VRF. -/
def vrfServer (dev : CString) : ServiceInfo where
  service := [0x73]
  serverInfo := ⟨false, .tcpInfo ⟨.ipv4 0x0100000A, 0x5000, 0, some dev⟩⟩
  pid := 7
  isLocal := true

/-- A server in one VRF takes the place of one in another. -/
theorem vrf_server_dropped :
    ¬ ((∀ a b : TransportInfo, transportInfoCompare a b = true → SameEndpoint a b) ∧
      ∀ (d : Data) (sends : Nat → Nat → Bool) (x : ServiceInfo) (isLocal : Bool),
        KeepsOthers d sends x isLocal) ∧
    ¬ KeepsOthers (dataAddServer (fun _ _ => true) dataInit (vrfServer [0x72]) true)
      (fun _ _ => true) (vrfServer [0x62]) true := by
  have hlost : ¬ KeepsOthers (dataAddServer (fun _ _ => true) dataInit (vrfServer [0x72]) true)
      (fun _ _ => true) (vrfServer [0x62]) true := by
    intro hkeeps
    have hfound : foundServer (dataAddServer (fun _ _ => true) dataInit (vrfServer [0x72]) true)
        (vrfServer [0x62]) = some (vrfServer [0x72]) := rfl
    have hscope := (keepsOthers_iff _ _ _ _).mp hkeeps _ hfound
    exact absurd hscope.2 (by simp [deviceOf, bindDevNameMax])
  exact ⟨fun h => hlost (h.2 _ _ _ _), hlost⟩

end Cmsg.Sld
