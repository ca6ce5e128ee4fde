import Cmsg.Base.Layout
import Cmsg.Transport.Overlay

/-! # From a transport to a message and back

`cmsg_transport_info_to_transport` copies the bytes of a tcp message to where
`cmsg_transport_tcp_info_create` took them from. The path of a unix message is printed into
`sun_path` as a format, and one byte less of `sun_path` is used than there is. -/
namespace Cmsg.Overlay
open Cmsg.Base

/-! ## The transport of a message -/

/-- The bytes of an `sa_family_t`. -/
def saFamily (family : Nat) : List UInt8 := [UInt8.ofNat family, 0]

/-- The socket address of a new transport, with the family written to it. -/
def familySockaddr (family : Nat) : Memory := memcpy (fun _ => 0) 0 (saFamily family)

/-- The socket address for a unix message, with what was printed to `sun_path`. -/
def unixSockaddr (printed : CString) : Memory := memcpy (familySockaddr afUnix) 2 (printed ++ [0])

/-- The socket address for a tcp message. A scope id that is not set is zero. -/
def tcpSockaddr (tcp : TcpTransportInfo) : Memory :=
  if tcp.ipv4 then memcpy (memcpy (familySockaddr afInet) 2 tcp.port) 4 tcp.addr
  else memcpy (memcpy (memcpy (familySockaddr afInet6) 2 tcp.port) 8 tcp.addr) 24
    (tcp.scopeId.getD [0, 0, 0, 0])

/-- `cmsg_transport_info_to_transport`. There is no transport for a message without a type,
and it is undefined where the path has a conversion in it. -/
def transportInfoToTransport (info : TransportInfo) : Option CmsgTransport :=
  match info.type, info.data with
  | .unix, .unixInfo path =>
    (printFormat path).map fun out =>
      { type := if info.oneWay then .onewayUnix else .rpcUnix
        socket :=
          { family := afUnix
            vrfBindDev := []
            sockaddr := unixSockaddr (out.take (sunPathSize - 2)) } }
  | .tcp, .tcpInfo tcp =>
    some
      { type := if info.oneWay then .onewayTcp else .rpcTcp
        socket :=
          { family := if tcp.ipv4 then afInet else afInet6
            vrfBindDev := (tcp.vrfBindDev.getD []).take (bindDevNameMax - 1)
            sockaddr := tcpSockaddr tcp } }
  | _, _ => none

/-- `cmsg_transport_info_copy` -/
def transportInfoCopy (info : TransportInfo) : Option TransportInfo :=
  (transportInfoToTransport info).bind transportInfoCreate

/-- The second transport is like the first one in all that a message is about. -/
structure SameTransport (t t' : CmsgTransport) : Prop where
  type : t'.type = t.type
  family : t'.socket.family = t.socket.family
  tcp : t.type = .rpcTcp ∨ t.type = .onewayTcp →
    t'.socket.sinPort = t.socket.sinPort ∧ t'.socket.vrfBindDev = t.socket.vrfBindDev ∧
      (t.socket.family = afInet → t'.socket.sinAddr = t.socket.sinAddr) ∧
      (t.socket.family = afInet6 → t'.socket.sin6Addr = t.socket.sin6Addr ∧
        t'.socket.sin6ScopeId = t.socket.sin6ScopeId)
  unix : t.type = .rpcUnix ∨ t.type = .onewayUnix →
    t'.socket.sunFamily = t.socket.sunFamily ∧ t'.socket.sunPath = t.socket.sunPath

/-- A path without `%` that leaves two bytes of `sun_path` free. -/
def Carried (path : CString) : Prop := 0x25 ∉ path ∧ path.length + 2 ≤ sunPathSize

/-! ## Printing -/

theorem printFormat_escape (ds : CString) :
    printFormat (0x25 :: 0x25 :: ds) = (printFormat ds).map (0x25 :: ·) := by
  rw [printFormat.eq_def (0x25 :: 0x25 :: ds)]
  dsimp only
  rw [if_pos rfl]
  exact if_pos rfl

theorem printFormat_conversion {d : UInt8} (hd : d ≠ 0x25) (ds : CString) :
    printFormat (0x25 :: d :: ds) = none := by
  rw [printFormat.eq_def]
  dsimp only
  rw [if_pos rfl]
  exact if_neg hd

theorem printFormat_plain {c : UInt8} (hc : c ≠ 0x25) (cs : CString) :
    printFormat (c :: cs) = (printFormat cs).map (c :: ·) := by
  rw [printFormat.eq_def]
  exact if_neg hc

theorem printFormat_of_not_mem {path : CString} (h : 0x25 ∉ path) : printFormat path = some path := by
  induction path with
  | nil => rfl
  | cons c cs ih =>
    obtain ⟨hc, hcs⟩ := not_or.mp (mt List.mem_cons.mpr h)
    rw [printFormat_plain (Ne.symm hc), ih hcs]
    rfl

/-- What is printed is part of the format, and less than the format if that has a `%`. -/
theorem printFormat_spec (path : CString) : ∀ {out : CString}, printFormat path = some out →
    out.length ≤ path.length ∧ (0x25 ∈ path → out.length < path.length) ∧
      ∀ c ∈ out, c ∈ path := by
  induction path using printFormat.induct with
  | case1 =>
    rintro out ⟨⟩
    simp
  | case2 ds ih =>
    intro out h
    rw [printFormat_escape] at h
    obtain ⟨printed, hprinted, rfl⟩ := Option.map_eq_some_iff.mp h
    obtain ⟨hle, _, hmem⟩ := ih hprinted
    have hlt : (0x25 :: printed).length < (0x25 :: 0x25 :: ds : List UInt8).length := by
      simp only [List.length_cons]
      omega
    refine ⟨Nat.le_of_lt hlt, fun _ => hlt, fun c hc => ?_⟩
    rcases List.mem_cons.mp hc with rfl | hc
    · exact List.mem_cons_self
    · exact List.mem_cons_of_mem _ (List.mem_cons_of_mem _ (hmem c hc))
  | case3 d ds hd =>
    intro out h
    rw [printFormat_conversion hd] at h
    cases h
  | case4 =>
    intro out h
    cases h
  | case5 c cs hc ih =>
    intro out h
    rw [printFormat_plain hc] at h
    obtain ⟨printed, hprinted, rfl⟩ := Option.map_eq_some_iff.mp h
    obtain ⟨hle, hlt, hmem⟩ := ih hprinted
    simp only [List.length_cons]
    refine ⟨by omega, fun hin => ?_, fun x hx => ?_⟩
    · rcases List.mem_cons.mp hin with heq | hin
      · exact absurd heq.symm hc
      · have := hlt hin
        omega
    · rcases List.mem_cons.mp hx with rfl | hx
      · exact List.mem_cons_self
      · exact List.mem_cons_of_mem _ (hmem x hx)

/-- A path is printed as it is and fits, exactly when it is carried. -/
theorem carried_iff (path : CString) :
    (∃ out, printFormat path = some out ∧ out.take (sunPathSize - 2) = path) ↔ Carried path := by
  have hsize : sunPathSize = 108 := rfl
  constructor
  · rintro ⟨out, hout, htake⟩
    obtain ⟨hle, hlt, _⟩ := printFormat_spec path hout
    have hlength := congrArg List.length htake
    rw [List.length_take] at hlength
    refine ⟨fun hin => ?_, by omega⟩
    have := hlt hin
    omega
  · rintro ⟨hnot, hfits⟩
    refine ⟨path, printFormat_of_not_mem hnot, List.take_of_length_le ?_⟩
    omega

/-! ## The bytes of the socket address -/

theorem sunPath_ne_zero (s : CmsgSocket) : ∀ b ∈ s.sunPath, b ≠ 0 := by
  intro b hb
  have hne := List.all_eq_true.mp List.all_takeWhile b hb
  simpa using hne

theorem unixSockaddr_sunPath {printed : CString} (hne : ∀ b ∈ printed, b ≠ 0)
    (hlt : printed.length < sunPathSize) (family : Nat) (dev : CString) :
    (CmsgSocket.mk family dev (unixSockaddr printed)).sunPath = printed :=
  (holds_memcpy _ 2 (printed ++ [0])).takeWhile_slice hne hlt

theorem unixSockaddr_sunFamily (printed : CString) (family : Nat) (dev : CString) :
    (CmsgSocket.mk family dev (unixSockaddr printed)).sunFamily = [1, 0] := by
  unfold CmsgSocket.sunFamily unixSockaddr
  rw [slice_memcpy_of_disjoint (.inl (Nat.le_refl 2))]
  exact (holds_memcpy _ 0 (saFamily afUnix)).slice

section
variable {tcp : TcpTransportInfo}

theorem slice_port (hport : tcp.port.length = 2) : slice (tcpSockaddr tcp) 2 2 = tcp.port := by
  unfold tcpSockaddr
  split
  · rw [slice_memcpy_of_disjoint (.inl (Nat.le_refl 4))]
    exact slice_memcpy hport
  · rw [slice_memcpy_of_disjoint (.inl (by omega)), slice_memcpy_of_disjoint (.inl (by omega))]
    exact slice_memcpy hport

theorem slice_addr_ipv4 (hipv4 : tcp.ipv4 = true) (haddr : tcp.addr.length = 4) :
    slice (tcpSockaddr tcp) 4 4 = tcp.addr := by
  rw [tcpSockaddr, if_pos hipv4]
  exact slice_memcpy haddr

theorem slice_addr_ipv6 (hipv6 : ¬ tcp.ipv4 = true) (haddr : tcp.addr.length = 16) :
    slice (tcpSockaddr tcp) 8 16 = tcp.addr := by
  rw [tcpSockaddr, if_neg hipv6, slice_memcpy_of_disjoint (.inl (Nat.le_refl 24))]
  exact slice_memcpy haddr

theorem slice_scopeId (hipv6 : ¬ tcp.ipv4 = true) {scopeId : List UInt8}
    (hscope : tcp.scopeId = some scopeId) (hlength : scopeId.length = 4) :
    slice (tcpSockaddr tcp) 24 4 = scopeId := by
  rw [tcpSockaddr, if_neg hipv6, hscope, Option.getD_some]
  exact slice_memcpy hlength

end

/-! ## Unix transports -/

/-- A unix transport with this path. -/
def unixTransport (oneWay : Bool) (path : CString) (hlt : path.length < sunPathSize) :
    Describable where
  val :=
    { type := if oneWay then .onewayUnix else .rpcUnix
      socket := { family := afUnix, vrfBindDev := [], sockaddr := unixSockaddr path } }
  property := by
    have hend : (0 : UInt8) ∈ slice (unixSockaddr path) 2 sunPathSize := by
      have hzero := holds_memcpy (familySockaddr afUnix) 2 (path ++ [0]) path.length (by simp)
      rw [List.getElem_append_right (Nat.le_refl _)] at hzero
      exact List.mem_map.mpr ⟨path.length, List.mem_range.mpr hlt, hzero.trans (by simp)⟩
    cases oneWay with
    | false => exact ⟨rfl, unixSockaddr_sunFamily _ _ _, hend⟩
    | true => exact ⟨rfl, unixSockaddr_sunFamily _ _ _, hend⟩

theorem unixTransport_transport {path : CString} (oneWay : Bool) (hlt : path.length < sunPathSize)
    (hne : ∀ b ∈ path, b ≠ 0) : (unixTransport oneWay path hlt).transport = .unix oneWay path := by
  have hpath : (unixTransport oneWay path hlt).val.socket.sunPath = path :=
    unixSockaddr_sunPath hne hlt _ _
  cases oneWay with
  | false =>
    rw [transport_unix (.inl rfl), hpath]
    rfl
  | true =>
    rw [transport_unix (.inr rfl), hpath]
    rfl

/-! ## The round trip -/

/-- The direction of a message gives the type back. -/
theorem type_of_oneWay {x rpc oneway : TransportType} (hne : rpc ≠ oneway)
    (hx : x = rpc ∨ x = oneway) : (if (x == oneway) = true then oneway else rpc) = x := by
  rcases hx with rfl | rfl
  · rw [if_neg (by simpa using hne)]
  · rw [if_pos (by simp)]

theorem vrfBindDev_kept (t : CmsgTransport) (hdev : t.socket.vrfBindDev.length < bindDevNameMax) :
    ((transportTcpInfoCreate t).vrfBindDev.getD []).take (bindDevNameMax - 1) =
      t.socket.vrfBindDev := by
  have hname : (transportTcpInfoCreate t).vrfBindDev.getD [] = t.socket.vrfBindDev := by
    unfold transportTcpInfoCreate
    dsimp only
    split
    · next hempty => rw [hempty, Option.getD_none]
    · rw [Option.getD_some]
  rw [hname, List.take_of_length_le (Nat.le_sub_one_of_lt hdev)]

/-- The fields of the message of an IPv4 transport, and of an IPv6 transport. -/
theorem tcpInfo_inet {t : CmsgTransport} (h : t.socket.family = afInet) :
    (transportTcpInfoCreate t).ipv4 = true ∧ (transportTcpInfoCreate t).addr = t.socket.sinAddr ∧
      (transportTcpInfoCreate t).port = t.socket.sinPort := by
  have hne : (t.socket.family != afInet6) = true := by
    rw [h]
    rfl
  unfold transportTcpInfoCreate
  dsimp only
  rw [hne]
  exact ⟨rfl, rfl, rfl⟩

theorem tcpInfo_inet6 {t : CmsgTransport} (h : t.socket.family = afInet6) :
    ¬ (transportTcpInfoCreate t).ipv4 = true ∧
      (transportTcpInfoCreate t).addr = t.socket.sin6Addr ∧
      (transportTcpInfoCreate t).port = t.socket.sin6Port ∧
      (transportTcpInfoCreate t).scopeId = some t.socket.sin6ScopeId := by
  have heq : (t.socket.family != afInet6) = false := by
    rw [h]
    rfl
  unfold transportTcpInfoCreate
  dsimp only
  rw [heq]
  exact ⟨Bool.false_ne_true, rfl, rfl, rfl⟩

/-- A tcp transport comes back as it was. -/
theorem sameTransport_tcp {t : Describable} (ht : t.val.type = .rpcTcp ∨ t.val.type = .onewayTcp)
    (hfamily : t.val.socket.family = afInet ∨ t.val.socket.family = afInet6)
    (hdev : t.val.socket.vrfBindDev.length < bindDevNameMax) :
    ∃ t', transportInfoToTransport t.info = some t' ∧ SameTransport t.val t' := by
  have hne : afInet ≠ afInet6 := by
    unfold afInet afInet6
    omega
  rw [info_eq (transportInfoCreate_tcp ht)]
  refine ⟨_, rfl, ?_⟩
  have hport : (transportTcpInfoCreate t.val).port = t.val.socket.sinPort := by
    rcases hfamily with h4 | h6
    · exact (tcpInfo_inet h4).2.2
    · exact (tcpInfo_inet6 h6).2.2.1
  refine ⟨type_of_oneWay (by simp) ht, ?_, fun _ => ⟨?_, vrfBindDev_kept _ hdev, ?_, ?_⟩,
    fun hunix => absurd rfl (tcp_ne_unix ht hunix)⟩
  · rcases hfamily with h4 | h6
    · exact (if_pos (tcpInfo_inet h4).1).trans h4.symm
    · exact (if_neg (tcpInfo_inet6 h6).1).trans h6.symm
  · exact (slice_port (length_port _)).trans hport
  · intro h4
    obtain ⟨hipv4, haddr, _⟩ := tcpInfo_inet h4
    have hlength : (transportTcpInfoCreate t.val).addr.length = 4 := by
      rw [haddr]
      exact length_slice ..
    exact (slice_addr_ipv4 hipv4 hlength).trans haddr
  · intro h6
    obtain ⟨hipv6, haddr, _, hscope⟩ := tcpInfo_inet6 h6
    have hlength : (transportTcpInfoCreate t.val).addr.length = 16 := by
      rw [haddr]
      exact length_slice ..
    exact ⟨(slice_addr_ipv6 hipv6 hlength).trans haddr,
      slice_scopeId hipv6 hscope (length_slice ..)⟩

theorem take_lt_sunPathSize (out : CString) : (out.take (sunPathSize - 2)).length < sunPathSize := by
  rw [List.length_take]
  have hsize : sunPathSize = 108 := rfl
  omega

/-- What a unix message with this path becomes, if anything. -/
theorem toTransport_unix (oneWay : Bool) (path : CString) :
    transportInfoToTransport ⟨.unix, oneWay, .unixInfo path⟩ = (printFormat path).map fun out =>
      (unixTransport oneWay (out.take (sunPathSize - 2)) (take_lt_sunPathSize out)).val := rfl

/-- A path without a terminator in it is printed without one. -/
theorem printed_ne_zero {path out : CString} (hne : ∀ b ∈ path, b ≠ 0)
    (hout : printFormat path = some out) : ∀ b ∈ out.take (sunPathSize - 2), b ≠ 0 := fun b hb =>
  hne b ((printFormat_spec path hout).2.2 b (List.mem_of_mem_take hb))

/-- A unix transport comes back as it was exactly when its path is carried. -/
theorem sameTransport_unix {t : Describable} (ht : t.val.type = .rpcUnix ∨ t.val.type = .onewayUnix)
    (hfamily : t.val.socket.family = afUnix) (hsun : t.val.socket.sunFamily = [1, 0]) :
    (∃ t', transportInfoToTransport t.info = some t' ∧ SameTransport t.val t') ↔
      Carried t.val.socket.sunPath := by
  have hne := sunPath_ne_zero t.val.socket
  rw [info_eq (transportInfoCreate_unix ht), toTransport_unix, ← carried_iff]
  constructor
  · rintro ⟨t', ht', hsame⟩
    obtain ⟨out, hout, rfl⟩ := Option.map_eq_some_iff.mp ht'
    have hpath := unixSockaddr_sunPath (printed_ne_zero hne hout) (take_lt_sunPathSize out)
    exact ⟨out, hout, (hpath _ _).symm.trans (hsame.unix ht).2⟩
  · rintro ⟨out, hout, htake⟩
    refine ⟨_, Option.map_eq_some_iff.mpr ⟨out, hout, rfl⟩, ?_⟩
    refine ⟨type_of_oneWay (by simp) ht, hfamily.symm,
      fun htcp => absurd rfl (tcp_ne_unix htcp ht), fun _ => ⟨?_, ?_⟩⟩
    · exact (unixSockaddr_sunFamily _ _ _).trans hsun.symm
    · have hpath := unixSockaddr_sunPath (printed_ne_zero hne hout) (take_lt_sunPathSize out)
      exact (hpath _ _).trans htake

/-- **The round trip**: every tcp transport comes back as it was, a unix transport exactly
when its path has no `%` and leaves two bytes of `sun_path` free. -/
theorem info_roundtrip_iff (t : Describable)
    (hdev : t.val.socket.vrfBindDev.length < bindDevNameMax) :
    (∃ t', transportInfoToTransport t.info = some t' ∧ SameTransport t.val t') ↔
      (t.val.type = .rpcUnix ∨ t.val.type = .onewayUnix → Carried t.val.socket.sunPath) := by
  rcases t.cases with ⟨ht, hfamily⟩ | ⟨ht, hfamily, hsun⟩
  · refine iff_of_true (sameTransport_tcp ht hfamily hdev) fun hunix => ?_
    exact absurd rfl (tcp_ne_unix ht hunix)
  · rw [sameTransport_unix ht hfamily hsun]
    exact ⟨fun h _ => h, fun h => h ht⟩

theorem info_roundtrip_sample :
    let t := unixTransport true [0x2f, 0x61] (Nat.lt_of_sub_eq_succ rfl)
    ∃ t', transportInfoToTransport t.info = some t' ∧ SameTransport t.val t' := by
  intro t
  refine (info_roundtrip_iff t (Nat.zero_lt_succ 15)).mpr fun _ => ?_
  have hpath : t.val.socket.sunPath = [0x2f, 0x61] :=
    unixSockaddr_sunPath (by simp) (Nat.lt_of_sub_eq_succ rfl) _ _
  rw [hpath]
  exact ⟨by simp, Nat.le_of_sub_eq_zero rfl⟩

/-- `%%` comes back as `%`. -/
theorem percent_path_changed :
    ¬ ∀ t : Describable, t.val.socket.vrfBindDev.length < bindDevNameMax →
      ∃ t', transportInfoToTransport t.info = some t' ∧ SameTransport t.val t' := by
  intro h
  have hlt : ([0x25, 0x25] : CString).length < sunPathSize := Nat.lt_of_sub_eq_succ rfl
  have hcarried := (sameTransport_unix (.inl rfl) rfl (unixSockaddr_sunFamily _ _ _)).mp
    (h (unixTransport false [0x25, 0x25] hlt) (Nat.zero_lt_succ 15))
  have hpath : (unixTransport false [0x25, 0x25] hlt).val.socket.sunPath = [0x25, 0x25] :=
    unixSockaddr_sunPath (by simp) hlt _ _
  rw [hpath] at hcarried
  exact hcarried.1 List.mem_cons_self

/-! ## Copies -/

/-- The message of a transport depends on nothing else. -/
theorem transportInfoCreate_same {t : Describable} {t' : CmsgTransport}
    (h : SameTransport t.val t') : transportInfoCreate t' = transportInfoCreate t.val := by
  rcases t.cases with ⟨ht, hfamily⟩ | ⟨ht, _⟩
  · have ht' := ht
    rw [← h.type] at ht'
    obtain ⟨hport, hdev, haddr, haddr6⟩ := h.tcp ht
    have hinfo : transportTcpInfoCreate t' = transportTcpInfoCreate t.val := by
      unfold transportTcpInfoCreate
      rw [h.family, hdev, hport]
      rcases hfamily with h4 | h6
      · rw [h4, haddr h4]
        rfl
      · rw [h6, (haddr6 h6).1, (haddr6 h6).2, show t'.socket.sin6Port = t'.socket.sinPort from rfl,
          hport]
        rfl
    rw [transportInfoCreate_tcp ht', transportInfoCreate_tcp ht, h.type, hinfo]
  · have ht' := ht
    rw [← h.type] at ht'
    rw [transportInfoCreate_unix ht', transportInfoCreate_unix ht, h.type, (h.unix ht).2]

/-- A copy of the message of a transport is the same message, unless a path is changed. -/
theorem transportInfoCopy_info_iff (t : Describable)
    (hdev : t.val.socket.vrfBindDev.length < bindDevNameMax) :
    transportInfoCopy t.info = some t.info ↔
      (t.val.type = .rpcUnix ∨ t.val.type = .onewayUnix → Carried t.val.socket.sunPath) := by
  have hcreate : transportInfoCreate t.val = some t.info :=
    (Option.some_get (transportInfoCreate_isSome t)).symm
  have hcopied : (∃ t', transportInfoToTransport t.info = some t' ∧ SameTransport t.val t') →
      transportInfoCopy t.info = some t.info := by
    rintro ⟨t', ht', hsame⟩
    rw [transportInfoCopy, ht', Option.bind_some, transportInfoCreate_same hsame, hcreate]
  rcases t.cases with ⟨ht, hfamily⟩ | ⟨ht, hfamily, hsun⟩
  · refine iff_of_true (hcopied (sameTransport_tcp ht hfamily hdev)) fun hunix => ?_
    exact absurd rfl (tcp_ne_unix ht hunix)
  · refine ⟨fun hcopy _ => ?_, fun h => hcopied ((sameTransport_unix ht hfamily hsun).mpr (h ht))⟩
    have hne := sunPath_ne_zero t.val.socket
    rw [info_eq (transportInfoCreate_unix ht), transportInfoCopy, toTransport_unix] at hcopy
    obtain ⟨t', ht', hinfo⟩ := Option.bind_eq_some_iff.mp hcopy
    obtain ⟨out, hout, rfl⟩ := Option.map_eq_some_iff.mp ht'
    have hunix : ∀ oneWay path hlt, transportInfoCreate (unixTransport oneWay path hlt).val =
        some ⟨.unix, oneWay, .unixInfo (unixTransport oneWay path hlt).val.socket.sunPath⟩ := by
      intro oneWay path hlt
      cases oneWay with
      | false => rfl
      | true => rfl
    rw [hunix, Option.some.injEq, TransportInfo.mk.injEq, TransportInfoData.unixInfo.injEq] at hinfo
    have hpath := unixSockaddr_sunPath (printed_ne_zero hne hout) (take_lt_sunPathSize out)
    exact (carried_iff _).mp ⟨out, hout, (hpath _ _).symm.trans hinfo.2.2⟩

/-! ## The words -/

theorem slice_flowinfo {tcp : TcpTransportInfo} (hipv6 : ¬ tcp.ipv4 = true)
    (hport : tcp.port.length = 2) : slice (tcpSockaddr tcp) 4 4 = [0, 0, 0, 0] := by
  rw [tcpSockaddr, if_neg hipv6, slice_memcpy_of_disjoint (.inl (by omega)),
    slice_memcpy_of_disjoint (.inl (by omega)), slice_memcpy_of_disjoint (.inr (by omega)),
    familySockaddr, slice_memcpy_of_disjoint (.inr (by simp [saFamily]))]
  rfl

theorem inAddress_inet {s : CmsgSocket} (h : s.family = afInet) :
    s.inAddress = .inet (UInt16.ofNat (leWord s.sinPort)) (UInt32.ofNat (leWord s.sinAddr)) := by
  have hne : afInet ≠ afInet6 := by
    unfold afInet afInet6
    omega
  rw [CmsgSocket.inAddress, h, if_neg hne]

theorem inAddress_inet6 {s : CmsgSocket} (h : s.family = afInet6) :
    s.inAddress = .inet6 (UInt16.ofNat (leWord s.sin6Port)) (UInt32.ofNat (leWord s.sin6Flowinfo))
      (BitVec.ofNat 128 (leWord s.sin6Addr)) (UInt32.ofNat (leWord s.sin6ScopeId)) := by
  rw [CmsgSocket.inAddress, if_pos h]

section
variable {tcp : TcpTransportInfo}

theorem tcpSockaddr_inet (hipv4 : tcp.ipv4 = true) (hport : tcp.port.length = 2)
    (haddr : tcp.addr.length = 4) (dev : CString) :
    (CmsgSocket.mk (if tcp.ipv4 then afInet else afInet6) dev (tcpSockaddr tcp)).inAddress =
      .inet (UInt16.ofNat (leWord tcp.port)) (UInt32.ofNat (leWord tcp.addr)) := by
  rw [inAddress_inet (if_pos hipv4)]
  unfold CmsgSocket.sinPort CmsgSocket.sinAddr
  dsimp only
  rw [slice_port hport, slice_addr_ipv4 hipv4 haddr]

theorem tcpSockaddr_inet6 (hipv6 : ¬ tcp.ipv4 = true) (hport : tcp.port.length = 2)
    (haddr : tcp.addr.length = 16) {scopeId : List UInt8} (hscope : tcp.scopeId = some scopeId)
    (hlength : scopeId.length = 4) (dev : CString) :
    (CmsgSocket.mk (if tcp.ipv4 then afInet else afInet6) dev (tcpSockaddr tcp)).inAddress =
      .inet6 (UInt16.ofNat (leWord tcp.port)) 0 (BitVec.ofNat 128 (leWord tcp.addr))
        (UInt32.ofNat (leWord scopeId)) := by
  have hzero : leWord [0, 0, 0, 0] = 0 := by simp [leWord, Nat.ofDigits]
  rw [inAddress_inet6 (if_neg hipv6)]
  unfold CmsgSocket.sin6Port CmsgSocket.sin6Flowinfo CmsgSocket.sin6Addr CmsgSocket.sin6ScopeId
  dsimp only
  rw [slice_port hport, slice_flowinfo hipv6 hport, slice_addr_ipv6 hipv6 haddr,
    slice_scopeId hipv6 hscope hlength, hzero]
  rfl

end

theorem wellFormed_tcp {t : CmsgTransport} (ht : t.type = .rpcTcp ∨ t.type = .onewayTcp)
    (hfamily : t.socket.family = afInet ∨ t.socket.family = afInet6) : t.WellFormed := by
  unfold CmsgTransport.WellFormed
  rcases ht with ht | ht
  · rw [ht]
    exact hfamily
  · rw [ht]
    exact hfamily

/-- The conversion of the bytes is the one of the words that they stand for. -/
theorem toTransport_transport (t : Describable) :
    (∀ t', transportInfoToTransport t.info = some t' → ∃ h : t'.WellFormed,
      Cmsg.transportInfoToTransport (Cmsg.transportInfoCreate t.transport) =
        some (Describable.transport ⟨t', h⟩)) ∧
    (transportInfoToTransport t.info = none →
      Cmsg.transportInfoToTransport (Cmsg.transportInfoCreate t.transport) = none) := by
  rcases t.cases with ⟨ht, hfamily⟩ | ⟨ht, _⟩
  · rw [info_eq (transportInfoCreate_tcp ht), transport_tcp ht]
    refine ⟨fun t' ht' => ?_, fun h => (by cases h)⟩
    obtain rfl := Option.some.inj ht'
    have htype := @type_of_oneWay t.val.type .rpcTcp .onewayTcp (by simp) ht
    have hresult := ht
    rw [← htype] at hresult
    have hway := congrArg (· == TransportType.onewayTcp) htype.symm
    rcases hfamily with h4 | h6
    · obtain ⟨hipv4, haddr, hport⟩ := tcpInfo_inet h4
      refine ⟨wellFormed_tcp hresult (.inl (if_pos hipv4)), ?_⟩
      rw [transport_tcp hresult, inAddress_inet h4, ← hport, ← haddr,
        tcpSockaddr_inet hipv4 (length_port t.val) (haddr ▸ length_slice ..)]
      exact congrArg (fun way => some (Transport.tcp way _ _)) hway
    · obtain ⟨hipv6, haddr, hport, hscope⟩ := tcpInfo_inet6 h6
      refine ⟨wellFormed_tcp hresult (.inr (if_neg hipv6)), ?_⟩
      rw [transport_tcp hresult, inAddress_inet6 h6, ← hport, ← haddr,
        tcpSockaddr_inet6 hipv6 (length_port t.val) (haddr ▸ length_slice ..) hscope
          (length_slice ..)]
      exact congrArg (fun way => some (Transport.tcp way _ _)) hway
  · have hne := sunPath_ne_zero t.val.socket
    rw [info_eq (transportInfoCreate_unix ht), transport_unix ht, toTransport_unix]
    refine ⟨fun t' ht' => ?_, fun h => ?_⟩
    · obtain ⟨out, hout, rfl⟩ := Option.map_eq_some_iff.mp ht'
      refine ⟨(unixTransport _ _ (take_lt_sunPathSize out)).property, ?_⟩
      have htransport := unixTransport_transport (t.val.type == .onewayUnix)
        (take_lt_sunPathSize out) (printed_ne_zero hne hout)
      exact (congrArg (Option.map _) hout).trans (congrArg some htransport.symm)
    · exact congrArg (Option.map _) (Option.map_eq_none_iff.mp h)

end Cmsg.Overlay
