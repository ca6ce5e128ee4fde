import Mathlib.Data.Nat.Digits.Defs
import Cmsg.Transport.Info

/-! # The comparisons on the structures themselves

`cmsg_transport_compare` reads the socket address of a transport, in which the structures
of all address families lie over each other; `cmsg_transport_info_compare` reads the bytes
of a message. Both are followed here byte by byte. What they compare is the same, and it is
what the endpoints of `Transport.Info` stand for. -/
namespace Cmsg.Overlay
open Cmsg.Base

/-! ## Transports -/

/-- `cmsg_transport_type` -/
inductive TransportType
  | loopback
  | rpcTcp
  | onewayTcp
  | broadcast
  | rpcUnix
  | onewayUnix
  | forwarding
deriving DecidableEq, Repr

/-- `AF_UNIX` -/
def afUnix : Nat := 1

/-- `AF_INET`, which is also `PF_INET` -/
def afInet : Nat := 2

/-- `AF_INET6`, which is also `PF_INET6` -/
def afInet6 : Nat := 10

/-- `cmsg_socket`. All members of the union `sockaddr` begin at position 0 of it. -/
structure CmsgSocket where
  family : Nat
  vrfBindDev : CString
  sockaddr : Memory

structure CmsgTransport where
  type : TransportType
  socket : CmsgSocket

section
variable (s : CmsgSocket)

-- struct sockaddr_in: the family, the port, the address
def CmsgSocket.sinPort : List UInt8 := slice s.sockaddr 2 2
def CmsgSocket.sinAddr : List UInt8 := slice s.sockaddr 4 4

-- struct sockaddr_in6: the family, the port, the flow information, the address, the scope
def CmsgSocket.sin6Port : List UInt8 := slice s.sockaddr 2 2
def CmsgSocket.sin6Flowinfo : List UInt8 := slice s.sockaddr 4 4
def CmsgSocket.sin6Addr : List UInt8 := slice s.sockaddr 8 16
def CmsgSocket.sin6ScopeId : List UInt8 := slice s.sockaddr 24 4

-- struct sockaddr_un: the family, the path
def CmsgSocket.sunFamily : List UInt8 := slice s.sockaddr 0 2

/-- The string that starts at `sun_path`. -/
def CmsgSocket.sunPath : CString := (slice s.sockaddr 2 sunPathSize).takeWhile (· != 0)

end

/-- `cmsg_transport_compare` -/
def transportCompare (one two : CmsgTransport) : Bool :=
  if one.type = two.type then
    match one.type with
    | .rpcTcp | .onewayTcp =>
      one.socket.family == two.socket.family &&
        ((one.socket.family == afInet && one.socket.sinAddr == two.socket.sinAddr) ||
          (one.socket.family == afInet6 && one.socket.sin6Addr == two.socket.sin6Addr)) &&
        one.socket.sinPort == two.socket.sinPort
    | .rpcUnix | .onewayUnix =>
      one.socket.family == two.socket.family && one.socket.sunFamily == two.socket.sunFamily &&
        one.socket.sunPath == two.socket.sunPath
    | _ => false
  else false

/-! ## Messages -/

/-- `cmsg_transport_info_type` -/
inductive TransportInfoType
  | notSet
  | unix
  | tcp
deriving DecidableEq, Repr

/-- `cmsg_tcp_transport_info`, with the bytes that it holds -/
structure TcpTransportInfo where
  ipv4 : Bool
  addr : List UInt8
  port : List UInt8
  scopeId : Option (List UInt8)
  vrfBindDev : Option CString
deriving DecidableEq, Repr

/-- The `data` of a `cmsg_transport_info` -/
inductive TransportInfoData
  | notSet
  | unixInfo (path : CString)
  | tcpInfo (info : TcpTransportInfo)
deriving DecidableEq, Repr

/-- `cmsg_transport_info`. The type is a field of its own beside the data. -/
structure TransportInfo where
  type : TransportInfoType
  oneWay : Bool
  data : TransportInfoData
deriving DecidableEq, Repr

/-- `cmsg_transport_tcp_info_create` -/
def transportTcpInfoCreate (transport : CmsgTransport) : TcpTransportInfo :=
  let ipv4 := transport.socket.family != afInet6
  { ipv4
    addr := if ipv4 then transport.socket.sinAddr else transport.socket.sin6Addr
    port := if ipv4 then transport.socket.sinPort else transport.socket.sin6Port
    scopeId := if ipv4 then none else some transport.socket.sin6ScopeId
    vrfBindDev := if transport.socket.vrfBindDev = [] then none
      else some transport.socket.vrfBindDev }

/-- `cmsg_transport_info_create`, where memory can be allocated -/
def transportInfoCreate (transport : CmsgTransport) : Option TransportInfo :=
  match transport.type with
  | .rpcTcp | .onewayTcp =>
    some ⟨.tcp, transport.type == .onewayTcp, .tcpInfo (transportTcpInfoCreate transport)⟩
  | .rpcUnix | .onewayUnix =>
    some ⟨.unix, transport.type == .onewayUnix, .unixInfo transport.socket.sunPath⟩
  | _ => none

/-- Whether `memcmp` finds no difference, undefined where it reads past one of the ends. -/
def memcmpEq (a b : List UInt8) (n : Nat) : Option Bool :=
  if n ≤ a.length ∧ n ≤ b.length then some (a.take n == b.take n) else none

/-- `cmsg_transport_info_compare`, undefined where it reads what is not there. -/
def transportInfoCompare (a b : TransportInfo) : Option Bool :=
  if a.type ≠ b.type ∨ a.oneWay ≠ b.oneWay then some false
  else
    match a.type with
    | .tcp =>
      match a.data, b.data with
      | .tcpInfo tcpA, .tcpInfo tcpB =>
        if tcpA.ipv4 = tcpB.ipv4 then
          (memcmpEq tcpA.port tcpB.port tcpA.port.length).bind fun same =>
            if same then memcmpEq tcpA.addr tcpB.addr tcpA.addr.length else some false
        else some false
      | _, _ => none
    | .unix =>
      match a.data, b.data with
      | .unixInfo pathA, .unixInfo pathB => some (pathA == pathB)
      | _, _ => none
    | .notSet => some false

/-! ## Transports that a message can describe -/

/-- A tcp transport of one of the two families, or a unix transport with a path that ends
within `sun_path`. -/
def CmsgTransport.WellFormed (t : CmsgTransport) : Prop :=
  match t.type with
  | .rpcTcp | .onewayTcp => t.socket.family = afInet ∨ t.socket.family = afInet6
  | .rpcUnix | .onewayUnix => t.socket.family = afUnix ∧ t.socket.sunFamily = [1, 0] ∧
      0 ∈ slice t.socket.sockaddr 2 sunPathSize
  | _ => False

/-- Such a transport, whose type is thereby known to be one of the four. -/
abbrev Describable := { t : CmsgTransport // t.WellFormed }

/-- What the comparisons look at. -/
inductive Compared
  | tcp (type : TransportType) (family : Nat) (addr port : List UInt8)
  | unix (type : TransportType) (path : CString)
deriving DecidableEq

def CmsgTransport.compared (t : CmsgTransport) : Compared :=
  match t.type with
  | .rpcTcp | .onewayTcp => .tcp t.type t.socket.family
      (if t.socket.family = afInet6 then t.socket.sin6Addr else t.socket.sinAddr) t.socket.sinPort
  | _ => .unix t.type t.socket.sunPath

/-- The four types, with what is known of each. -/
theorem Describable.cases (t : Describable) :
    ((t.val.type = .rpcTcp ∨ t.val.type = .onewayTcp) ∧
      (t.val.socket.family = afInet ∨ t.val.socket.family = afInet6)) ∨
    ((t.val.type = .rpcUnix ∨ t.val.type = .onewayUnix) ∧
      t.val.socket.family = afUnix ∧ t.val.socket.sunFamily = [1, 0]) := by
  obtain ⟨t, h⟩ := t
  unfold CmsgTransport.WellFormed at h
  cases ht : t.type with
  | rpcTcp =>
    rw [ht] at h
    exact .inl ⟨.inl rfl, h⟩
  | onewayTcp =>
    rw [ht] at h
    exact .inl ⟨.inr rfl, h⟩
  | rpcUnix =>
    rw [ht] at h
    exact .inr ⟨.inl rfl, h.1, h.2.1⟩
  | onewayUnix =>
    rw [ht] at h
    exact .inr ⟨.inr rfl, h.1, h.2.1⟩
  | loopback => rw [ht] at h; exact h.elim
  | broadcast => rw [ht] at h; exact h.elim
  | forwarding => rw [ht] at h; exact h.elim

theorem compared_tcp {t : CmsgTransport} (h : t.type = .rpcTcp ∨ t.type = .onewayTcp) :
    t.compared = .tcp t.type t.socket.family
      (if t.socket.family = afInet6 then t.socket.sin6Addr else t.socket.sinAddr)
      t.socket.sinPort := by
  unfold CmsgTransport.compared
  rcases h with h | h
  · rw [h]
  · rw [h]

theorem compared_unix {t : CmsgTransport} (h : t.type = .rpcUnix ∨ t.type = .onewayUnix) :
    t.compared = .unix t.type t.socket.sunPath := by
  unfold CmsgTransport.compared
  rcases h with h | h
  · rw [h]
  · rw [h]

theorem tcp_ne_unix {a b : CmsgTransport} (ha : a.type = .rpcTcp ∨ a.type = .onewayTcp)
    (hb : b.type = .rpcUnix ∨ b.type = .onewayUnix) : a.type ≠ b.type := by
  intro he
  rw [he] at ha
  rcases hb with hb | hb
  · simp [hb] at ha
  · simp [hb] at ha

theorem compared_type (t : CmsgTransport) :
    (∃ family addr port, t.compared = .tcp t.type family addr port) ∨
      ∃ path, t.compared = .unix t.type path := by
  unfold CmsgTransport.compared
  split
  · exact .inl ⟨_, _, _, rfl⟩
  · exact .inl ⟨_, _, _, rfl⟩
  · exact .inr ⟨_, rfl⟩

/-- Whatever is compared, it includes the type. -/
theorem type_eq_of_compared {a b : CmsgTransport} (h : a.compared = b.compared) :
    a.type = b.type := by
  rcases compared_type a with ⟨fa, aa, pa, ha⟩ | ⟨pa, ha⟩
  · rcases compared_type b with ⟨fb, ab, pb, hb⟩ | ⟨pb, hb⟩
    · rw [ha, hb] at h
      exact (Compared.tcp.inj h).1
    · rw [ha, hb] at h
      cases h
  · rcases compared_type b with ⟨fb, ab, pb, hb⟩ | ⟨pb, hb⟩
    · rw [ha, hb] at h
      cases h
    · rw [ha, hb] at h
      exact (Compared.unix.inj h).1

/-! ## The comparison of transports -/

theorem transportCompare_tcp {a b : CmsgTransport} (ha : a.type = .rpcTcp ∨ a.type = .onewayTcp)
    (hfamily : a.socket.family = afInet ∨ a.socket.family = afInet6) (htype : a.type = b.type) :
    transportCompare a b = true ↔ a.compared = b.compared := by
  have hne : afInet ≠ afInet6 := by decide
  have hcompare : transportCompare a b = (a.socket.family == b.socket.family &&
      ((a.socket.family == afInet && a.socket.sinAddr == b.socket.sinAddr) ||
        (a.socket.family == afInet6 && a.socket.sin6Addr == b.socket.sin6Addr)) &&
      a.socket.sinPort == b.socket.sinPort) := by
    unfold transportCompare
    rw [if_pos htype]
    rcases ha with ha | ha
    · rw [ha]
    · rw [ha]
  rw [hcompare, compared_tcp ha, compared_tcp (htype ▸ ha), htype]
  simp only [Bool.and_eq_true, Bool.or_eq_true, beq_iff_eq, Compared.tcp.injEq, true_and]
  constructor
  · rintro ⟨⟨hf, haddr⟩, hport⟩
    refine ⟨hf, ?_, hport⟩
    rcases haddr with ⟨h4, haddr⟩ | ⟨h6, haddr⟩
    · rw [← hf, h4, if_neg hne, if_neg hne, haddr]
    · rw [← hf, h6, if_pos rfl, if_pos rfl, haddr]
  · rintro ⟨hf, haddr, hport⟩
    refine ⟨⟨hf, ?_⟩, hport⟩
    rcases hfamily with h4 | h6
    · rw [← hf, h4, if_neg hne, if_neg hne] at haddr
      exact .inl ⟨h4, haddr⟩
    · rw [← hf, h6, if_pos rfl, if_pos rfl] at haddr
      exact .inr ⟨h6, haddr⟩

theorem transportCompare_unix {a b : CmsgTransport} (ha : a.type = .rpcUnix ∨ a.type = .onewayUnix)
    (hfamily : a.socket.family = b.socket.family)
    (hsun : a.socket.sunFamily = b.socket.sunFamily) (htype : a.type = b.type) :
    transportCompare a b = true ↔ a.compared = b.compared := by
  have hcompare : transportCompare a b = (a.socket.family == b.socket.family &&
      a.socket.sunFamily == b.socket.sunFamily && a.socket.sunPath == b.socket.sunPath) := by
    unfold transportCompare
    rw [if_pos htype]
    rcases ha with ha | ha
    · rw [ha]
    · rw [ha]
  rw [hcompare, compared_unix ha, compared_unix (htype ▸ ha), htype, hfamily, hsun]
  simp

/-- Transports compare equal when what is compared is the same. -/
theorem transportCompare_iff (a b : Describable) :
    transportCompare a.val b.val = true ↔ a.val.compared = b.val.compared := by
  by_cases htype : a.val.type = b.val.type
  · rcases a.cases with ⟨ha, hfa⟩ | ⟨ha, hfa, hsa⟩
    · exact transportCompare_tcp ha hfa htype
    · rcases b.cases with ⟨hb, _⟩ | ⟨_, hfb, hsb⟩
      · exact absurd htype.symm (tcp_ne_unix hb ha)
      · exact transportCompare_unix ha (hfa.trans hfb.symm) (hsa.trans hsb.symm) htype
  · refine iff_of_false ?_ (mt type_eq_of_compared htype)
    unfold transportCompare
    rw [if_neg htype]
    exact Bool.false_ne_true

/-! ## The comparison of messages -/

theorem transportInfoCreate_tcp {t : CmsgTransport} (h : t.type = .rpcTcp ∨ t.type = .onewayTcp) :
    transportInfoCreate t =
      some ⟨.tcp, t.type == .onewayTcp, .tcpInfo (transportTcpInfoCreate t)⟩ := by
  unfold transportInfoCreate
  rcases h with h | h
  · rw [h]
  · rw [h]

theorem transportInfoCreate_unix {t : CmsgTransport} (h : t.type = .rpcUnix ∨ t.type = .onewayUnix) :
    transportInfoCreate t = some ⟨.unix, t.type == .onewayUnix, .unixInfo t.socket.sunPath⟩ := by
  unfold transportInfoCreate
  rcases h with h | h
  · rw [h]
  · rw [h]

theorem transportInfoCreate_isSome (t : Describable) : (transportInfoCreate t.val).isSome := by
  rcases t.cases with ⟨h, _⟩ | ⟨h, _⟩
  · rw [transportInfoCreate_tcp h]
    rfl
  · rw [transportInfoCreate_unix h]
    rfl

/-- The message that is made for a transport. -/
def Describable.info (t : Describable) : TransportInfo :=
  (transportInfoCreate t.val).get (transportInfoCreate_isSome t)

theorem info_eq {t : Describable} {info : TransportInfo}
    (h : transportInfoCreate t.val = some info) : t.info = info :=
  Option.get_of_eq_some _ h

/-- Of two types for the same kind of socket, the direction tells which it is. -/
theorem oneWay_eq_iff {x y rpc oneway : TransportType} (hne : rpc ≠ oneway)
    (hx : x = rpc ∨ x = oneway) (hy : y = rpc ∨ y = oneway) :
    (x == oneway) = (y == oneway) ↔ x = y := by
  rcases hx with rfl | rfl
  · rcases hy with rfl | rfl
    · simp
    · simp [hne]
  · rcases hy with rfl | rfl
    · simp [hne, Ne.symm hne]
    · simp

/-- Byte strings of one length are compared as a whole. -/
theorem memcmpEq_of_length {a b : List UInt8} (h : a.length = b.length) :
    memcmpEq a b a.length = some (a == b) := by
  unfold memcmpEq
  rw [if_pos ⟨Nat.le_refl _, Nat.le_of_eq h⟩, List.take_length, h, List.take_length]

theorem length_port (t : CmsgTransport) : (transportTcpInfoCreate t).port.length = 2 := by
  unfold transportTcpInfoCreate
  dsimp only
  split
  · exact length_slice ..
  · exact length_slice ..

theorem length_addr (t : CmsgTransport) :
    (transportTcpInfoCreate t).addr.length = if (transportTcpInfoCreate t).ipv4 then 4 else 16 := by
  unfold transportTcpInfoCreate
  dsimp only
  split
  · exact length_slice ..
  · exact length_slice ..

/-- The messages of two tcp transports of one direction. -/
theorem tcpInfo_eq_iff {a b : CmsgTransport}
    (ha : a.socket.family = afInet ∨ a.socket.family = afInet6)
    (hb : b.socket.family = afInet ∨ b.socket.family = afInet6) :
    ((transportTcpInfoCreate a).ipv4 = (transportTcpInfoCreate b).ipv4 ∧
      (transportTcpInfoCreate a).port = (transportTcpInfoCreate b).port ∧
      (transportTcpInfoCreate a).addr = (transportTcpInfoCreate b).addr) ↔
    a.socket.family = b.socket.family ∧
      (if a.socket.family = afInet6 then a.socket.sin6Addr else a.socket.sinAddr) =
        (if b.socket.family = afInet6 then b.socket.sin6Addr else b.socket.sinAddr) ∧
      a.socket.sinPort = b.socket.sinPort := by
  have hne : afInet ≠ afInet6 := by decide
  -- the port lies at the same place in both families
  have hport : ∀ t : CmsgTransport, (transportTcpInfoCreate t).port = t.socket.sinPort := by
    intro t
    unfold transportTcpInfoCreate
    dsimp only
    split
    · rfl
    · rfl
  have hinet : ∀ {t : CmsgTransport}, t.socket.family = afInet →
      (transportTcpInfoCreate t).ipv4 = true ∧
        (transportTcpInfoCreate t).addr = t.socket.sinAddr := by
    intro t ht
    simp [transportTcpInfoCreate, ht, hne]
  have hinet6 : ∀ {t : CmsgTransport}, t.socket.family = afInet6 →
      (transportTcpInfoCreate t).ipv4 = false ∧
        (transportTcpInfoCreate t).addr = t.socket.sin6Addr := by
    intro t ht
    simp [transportTcpInfoCreate, ht]
  rw [hport, hport]
  rcases ha with ha | ha
  · rw [(hinet ha).1, (hinet ha).2, ha, if_neg hne]
    rcases hb with hb | hb
    · rw [(hinet hb).1, (hinet hb).2, hb, if_neg hne]
      tauto
    · rw [(hinet6 hb).1, hb]
      exact iff_of_false (fun h => Bool.noConfusion h.1) fun h => hne h.1
  · rw [(hinet6 ha).1, (hinet6 ha).2, ha, if_pos rfl]
    rcases hb with hb | hb
    · rw [(hinet hb).1, hb]
      exact iff_of_false (fun h => Bool.noConfusion h.1) fun h => hne h.1.symm
    · rw [(hinet6 hb).1, (hinet6 hb).2, hb, if_pos rfl]
      tauto

theorem transportInfoCompare_tcp {oneWayA oneWayB : Bool} (a b : CmsgTransport) :
    transportInfoCompare ⟨.tcp, oneWayA, .tcpInfo (transportTcpInfoCreate a)⟩
      ⟨.tcp, oneWayB, .tcpInfo (transportTcpInfoCreate b)⟩ = some (decide (oneWayA = oneWayB ∧
        (transportTcpInfoCreate a).ipv4 = (transportTcpInfoCreate b).ipv4 ∧
        (transportTcpInfoCreate a).port = (transportTcpInfoCreate b).port ∧
        (transportTcpInfoCreate a).addr = (transportTcpInfoCreate b).addr)) := by
  unfold transportInfoCompare
  by_cases hway : oneWayA = oneWayB
  · rw [if_neg (by simp [hway])]
    dsimp only
    by_cases hv4 : (transportTcpInfoCreate a).ipv4 = (transportTcpInfoCreate b).ipv4
    · rw [if_pos hv4, memcmpEq_of_length ((length_port a).trans (length_port b).symm),
        Option.bind_some]
      by_cases hport : (transportTcpInfoCreate a).port = (transportTcpInfoCreate b).port
      · rw [if_pos (beq_iff_eq.mpr hport), memcmpEq_of_length (by rw [length_addr, length_addr, hv4])]
        simp only [hway, hv4, hport, true_and, beq_eq_decide]
      · rw [if_neg (by simpa using hport)]
        simp [hport]
    · rw [if_neg hv4]
      simp [hv4]
  · rw [if_pos (.inr hway)]
    simp [hway]

/-- Messages of transports compare equal when what is compared is the same. -/
theorem transportInfoCompare_info (a b : Describable) :
    transportInfoCompare a.info b.info = some (decide (a.val.compared = b.val.compared)) := by
  rcases a.cases with ⟨ha, hfa⟩ | ⟨ha, _⟩
  · rw [info_eq (transportInfoCreate_tcp ha), compared_tcp ha]
    rcases b.cases with ⟨hb, hfb⟩ | ⟨hb, _⟩
    · rw [info_eq (transportInfoCreate_tcp hb), compared_tcp hb, transportInfoCompare_tcp,
        decide_eq_decide.mpr]
      rw [oneWay_eq_iff (by decide) ha hb, tcpInfo_eq_iff hfa hfb, Compared.tcp.injEq]
    · rw [info_eq (transportInfoCreate_unix hb), compared_unix hb]
      simp [transportInfoCompare]
  · rw [info_eq (transportInfoCreate_unix ha), compared_unix ha]
    rcases b.cases with ⟨hb, _⟩ | ⟨hb, _⟩
    · rw [info_eq (transportInfoCreate_tcp hb), compared_tcp hb]
      simp [transportInfoCompare]
    · rw [info_eq (transportInfoCreate_unix hb), compared_unix hb]
      have hway := oneWay_eq_iff (by decide) ha hb
      unfold transportInfoCompare
      by_cases htype : a.val.type = b.val.type
      · rw [if_neg (by simp [htype])]
        simp only [htype, Compared.unix.injEq, true_and, beq_eq_decide]
      · rw [if_pos (.inr (mt hway.mp htype))]
        simp [htype]

/-- **The two comparisons agree** on all transports that a message can describe, and each
of them is an equivalence. -/
theorem comparisons_agree :
    (∀ a b : Describable,
      transportInfoCompare a.info b.info = some (transportCompare a.val b.val)) ∧
    Equivalence (fun a b : Describable => transportCompare a.val b.val = true) ∧
    Equivalence (fun a b : Describable => transportInfoCompare a.info b.info = some true) := by
  have hinfo : ∀ a b : Describable, transportInfoCompare a.info b.info = some true ↔
      a.val.compared = b.val.compared := by
    intro a b
    rw [transportInfoCompare_info, Option.some.injEq, decide_eq_true_iff]
  refine ⟨fun a b => ?_, ?_, ?_⟩
  · rw [transportInfoCompare_info, Option.some.injEq, Bool.eq_iff_iff, decide_eq_true_iff,
      transportCompare_iff]
  · simp only [transportCompare_iff]
    exact ⟨fun _ => rfl, fun h => h.symm, fun h h' => h.trans h'⟩
  · simp only [hinfo]
    exact ⟨fun _ => rfl, fun h => h.symm, fun h h' => h.trans h'⟩

/-! ## The endpoints -/

/-- The number whose bytes are given, the least one first. -/
def leWord (bytes : List UInt8) : Nat := Nat.ofDigits 256 (bytes.map UInt8.toNat)

theorem bytes_lt (bytes : List UInt8) : ∀ d ∈ bytes.map UInt8.toNat, d < 256 := by
  intro d hd
  obtain ⟨b, _, rfl⟩ := List.mem_map.mp hd
  exact b.toNat_lt

theorem leWord_lt (bytes : List UInt8) : leWord bytes < 256 ^ bytes.length := by
  have hlt := Nat.ofDigits_lt_base_pow_length (by omega) (bytes_lt bytes)
  rwa [List.length_map] at hlt

theorem leWord_inj {a b : List UInt8} (h : a.length = b.length) : leWord a = leWord b ↔ a = b := by
  refine ⟨fun hw => ?_, fun hab => by rw [hab]⟩
  have hl : (a.map UInt8.toNat).length = (b.map UInt8.toNat).length := by
    rw [List.length_map, List.length_map, h]
  have hmap := Nat.ofDigits_inj_of_len_eq (by omega) hl (bytes_lt a) (bytes_lt b) hw
  exact List.map_injective_iff.mpr (fun _ _ => UInt8.toNat_inj.mp) hmap

/-- Words of two bytes, of four and of sixteen are the same when their bytes are. -/
theorem uint16_leWord {a b : List UInt8} (ha : a.length = 2) (hb : b.length = 2) :
    UInt16.ofNat (leWord a) = UInt16.ofNat (leWord b) ↔ a = b := by
  have hla := leWord_lt a
  have hlb := leWord_lt b
  rw [ha] at hla
  rw [hb] at hlb
  rw [← UInt16.toNat_inj, UInt16.toNat_ofNat_of_lt' hla, UInt16.toNat_ofNat_of_lt' hlb,
    leWord_inj (ha.trans hb.symm)]

theorem uint32_leWord {a b : List UInt8} (ha : a.length = 4) (hb : b.length = 4) :
    UInt32.ofNat (leWord a) = UInt32.ofNat (leWord b) ↔ a = b := by
  have hla := leWord_lt a
  have hlb := leWord_lt b
  rw [ha] at hla
  rw [hb] at hlb
  rw [← UInt32.toNat_inj, UInt32.toNat_ofNat_of_lt' hla, UInt32.toNat_ofNat_of_lt' hlb,
    leWord_inj (ha.trans hb.symm)]

theorem bitVec_leWord {a b : List UInt8} (ha : a.length = 16) (hb : b.length = 16) :
    BitVec.ofNat 128 (leWord a) = BitVec.ofNat 128 (leWord b) ↔ a = b := by
  have hla := leWord_lt a
  have hlb := leWord_lt b
  rw [ha] at hla
  rw [hb] at hlb
  rw [← BitVec.toNat_inj, BitVec.toNat_ofNat, BitVec.toNat_ofNat, Nat.mod_eq_of_lt (by omega),
    Nat.mod_eq_of_lt (by omega), leWord_inj (ha.trans hb.symm)]

/-- The address of a tcp socket, in the words that its bytes are. -/
def CmsgSocket.inAddress (s : CmsgSocket) : Sockaddr :=
  if s.family = afInet6 then
    .inet6 (UInt16.ofNat (leWord s.sin6Port)) (UInt32.ofNat (leWord s.sin6Flowinfo))
      (BitVec.ofNat 128 (leWord s.sin6Addr)) (UInt32.ofNat (leWord s.sin6ScopeId))
  else .inet (UInt16.ofNat (leWord s.sinPort)) (UInt32.ofNat (leWord s.sinAddr))

/-- The transport without the bytes that no member of its family covers. -/
def Describable.transport (t : Describable) : Transport :=
  match t.val.type with
  | .rpcTcp | .onewayTcp =>
    .tcp (t.val.type == .onewayTcp) t.val.socket.inAddress t.val.socket.vrfBindDev
  | _ => .unix (t.val.type == .onewayUnix) t.val.socket.sunPath

theorem transport_tcp {t : Describable} (h : t.val.type = .rpcTcp ∨ t.val.type = .onewayTcp) :
    t.transport = .tcp (t.val.type == .onewayTcp) t.val.socket.inAddress
      t.val.socket.vrfBindDev := by
  unfold Describable.transport
  rcases h with h | h
  · rw [h]
  · rw [h]

theorem transport_unix {t : Describable} (h : t.val.type = .rpcUnix ∨ t.val.type = .onewayUnix) :
    t.transport = .unix (t.val.type == .onewayUnix) t.val.socket.sunPath := by
  unfold Describable.transport
  rcases h with h | h
  · rw [h]
  · rw [h]

/-- The address and the port of a socket, as words and as bytes. -/
theorem inAddress_eq_iff {a b : CmsgSocket} (ha : a.family = afInet ∨ a.family = afInet6)
    (hb : b.family = afInet ∨ b.family = afInet6) :
    a.inAddress.ipAddr = b.inAddress.ipAddr ∧ a.inAddress.sinPort = b.inAddress.sinPort ↔
      a.family = b.family ∧
      (if a.family = afInet6 then a.sin6Addr else a.sinAddr) =
        (if b.family = afInet6 then b.sin6Addr else b.sinAddr) ∧
      a.sinPort = b.sinPort := by
  have hne : afInet ≠ afInet6 := by decide
  have hport : a.inAddress.sinPort = b.inAddress.sinPort ↔ a.sinPort = b.sinPort := by
    have hword : ∀ s : CmsgSocket, s.inAddress.sinPort = UInt16.ofNat (leWord s.sinPort) := by
      intro s
      unfold CmsgSocket.inAddress
      split
      · rfl
      · rfl
    have hlen : ∀ s : CmsgSocket, s.sinPort.length = 2 := fun s => length_slice ..
    rw [hword, hword, uint16_leWord (hlen a) (hlen b)]
  have hinet : ∀ s : CmsgSocket, s.family = afInet →
      s.inAddress.ipAddr = .ipv4 (UInt32.ofNat (leWord s.sinAddr)) := by
    intro s hs
    unfold CmsgSocket.inAddress
    rw [hs, if_neg hne]
    rfl
  have hlen : ∀ s : CmsgSocket, s.sinAddr.length = 4 := fun s => length_slice ..
  have hlen6 : ∀ s : CmsgSocket, s.sin6Addr.length = 16 := fun s => length_slice ..
  have hinet6 : ∀ s : CmsgSocket, s.family = afInet6 →
      s.inAddress.ipAddr = .ipv6 (BitVec.ofNat 128 (leWord s.sin6Addr)) := by
    intro s hs
    unfold CmsgSocket.inAddress
    rw [hs, if_pos rfl]
    rfl
  rw [hport, ← and_assoc]
  refine and_congr_left fun _ => ?_
  rcases ha with ha | ha
  · rw [hinet a ha, ha, if_neg hne]
    rcases hb with hb | hb
    · rw [hinet b hb, hb, if_neg hne, IpAddr.ipv4.injEq,
        uint32_leWord (hlen a) (hlen b)]
      simp
    · rw [hinet6 b hb, hb]
      simp [hne]
  · rw [hinet6 a ha, ha, if_pos rfl]
    rcases hb with hb | hb
    · rw [hinet b hb, hb]
      simp [hne.symm]
    · rw [hinet6 b hb, hb, if_pos rfl, IpAddr.ipv6.injEq,
        bitVec_leWord (hlen6 a) (hlen6 b)]
      simp

/-- What is compared of the structures is the endpoint. -/
theorem endpoint_eq_iff (a b : Describable) :
    a.transport.endpoint = b.transport.endpoint ↔ a.val.compared = b.val.compared := by
  rcases a.cases with ⟨ha, hfa⟩ | ⟨ha, _⟩
  · rw [transport_tcp ha, compared_tcp ha]
    rcases b.cases with ⟨hb, hfb⟩ | ⟨hb, _⟩
    · rw [transport_tcp hb, compared_tcp hb, Transport.endpoint, Transport.endpoint,
        Endpoint.tcp.injEq, Compared.tcp.injEq, oneWay_eq_iff (by decide) ha hb,
        inAddress_eq_iff hfa hfb]
    · rw [transport_unix hb, compared_unix hb]
      simp [Transport.endpoint]
  · rw [transport_unix ha, compared_unix ha]
    rcases b.cases with ⟨hb, _⟩ | ⟨hb, _⟩
    · rw [transport_tcp hb, compared_tcp hb]
      simp [Transport.endpoint]
    · rw [transport_unix hb, compared_unix hb, Transport.endpoint, Transport.endpoint,
        Endpoint.unix.injEq, Compared.unix.injEq, oneWay_eq_iff (by decide) ha hb]

/-- The comparison of the structures is the one of the transports that they stand for. -/
theorem transportCompare_transport (a b : Describable) :
    Cmsg.transportCompare a.transport b.transport = transportCompare a.val b.val := by
  rw [Bool.eq_iff_iff, Cmsg.transportCompare_iff, endpoint_eq_iff, transportCompare_iff]

/-- So is the comparison of the messages. -/
theorem transportInfoCompare_transport (a b : Describable) :
    transportInfoCompare a.info b.info = some (Cmsg.transportInfoCompare
      (Cmsg.transportInfoCreate a.transport) (Cmsg.transportInfoCreate b.transport)) := by
  rw [transportInfoCompare_info, Option.some.injEq, Bool.eq_iff_iff, decide_eq_true_iff,
    Cmsg.transportInfoCompare_iff, transportInfoCreate_endpoint, transportInfoCreate_endpoint,
    endpoint_eq_iff]

end Cmsg.Overlay
