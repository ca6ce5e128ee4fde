import Cmsg.Base.Bytes

/-! # Transports and the messages that describe them

`cmsg_transport_info` is the message that carries a transport between
processes; `cmsg_transport` is the socket configuration built from it. The
daemons compare messages with `cmsg_transport_info_compare` and sockets with
`cmsg_transport_compare`; both look at the endpoint only (`compare_iff`,
`transportCompare_iff`), never at the scope id or at the device. -/
namespace Cmsg
open Cmsg.Base

/-! ## Messages -/

/-- The `ipv4` flag of a tcp message together with the address bytes it
announces: four bytes, or sixteen. -/
inductive IpAddr
  | ipv4 (addr : UInt32)
  | ipv6 (addr : BitVec 128)
deriving DecidableEq, Repr

/-- `cmsg_tcp_transport_info`. Addresses and ports are in network byte order
and read as the words that `memcpy` copies them to. -/
structure TcpTransportInfo where
  addr : IpAddr
  port : UInt16
  scopeId : UInt32
  vrfBindDev : Option (CString)
deriving DecidableEq, Repr

/-- The `data` of a `cmsg_transport_info`, together with its `type`. -/
inductive TransportInfoData
  | unixInfo (path : CString)
  | tcpInfo (info : TcpTransportInfo)
deriving DecidableEq, Repr

/-- `cmsg_transport_info`. -/
structure TransportInfo where
  oneWay : Bool
  data : TransportInfoData
deriving DecidableEq, Repr

/-- `cmsg_transport_info_compare`. -/
def transportInfoCompare (a b : TransportInfo) : Bool :=
  a.oneWay == b.oneWay &&
    match a.data, b.data with
    | .tcpInfo a, .tcpInfo b => a.port == b.port && a.addr == b.addr
    | .unixInfo a, .unixInfo b => a == b
    | _, _ => false

/-! ## Transports -/

/-- The `sockaddr` union of a tcp transport. -/
inductive Sockaddr
  | inet (port : UInt16) (addr : UInt32)
  | inet6 (port : UInt16) (flowinfo : UInt32) (addr : BitVec 128) (scopeId : UInt32)
deriving DecidableEq, Repr

/-- `sockaddr.in.sin_addr.s_addr`: in an IPv6 address these four bytes are the
flow information. -/
def Sockaddr.sinAddr : Sockaddr → UInt32
  | .inet _ addr => addr
  | .inet6 _ flowinfo _ _ => flowinfo

/-- `sockaddr.in.sin_port`, which lies where `sin6_port` does. -/
def Sockaddr.sinPort : Sockaddr → UInt16
  | .inet port _ => port
  | .inet6 port _ _ _ => port

/-- The part of `cmsg_transport` that says where it connects to, for the four
types a message can describe. -/
inductive Transport
  | unix (oneWay : Bool) (sunPath : CString)
  | tcp (oneWay : Bool) (sockaddr : Sockaddr) (vrfBindDev : CString)
deriving DecidableEq, Repr

/-- The address a tcp transport connects to, with its family. -/
def Sockaddr.ipAddr : Sockaddr → IpAddr
  | .inet _ addr => .ipv4 addr
  | .inet6 _ _ addr _ => .ipv6 addr

/-- `cmsg_transport_compare`. -/
def transportCompare : Transport → Transport → Bool
  | .tcp oneWay₁ addr₁ _, .tcp oneWay₂ addr₂ _ =>
    oneWay₁ == oneWay₂ && addr₁.ipAddr == addr₂.ipAddr && addr₁.sinPort == addr₂.sinPort
  | .unix oneWay₁ path₁, .unix oneWay₂ path₂ => oneWay₁ == oneWay₂ && path₁ == path₂
  | _, _ => false

/-- The size of `sun_path`. -/
def sunPathSize : Nat := 108

/-- `CMSG_BIND_DEV_NAME_MAX` -/
def bindDevNameMax : Nat := 16

/-- What `snprintf` prints for a string given as its format: `%%` prints `%`,
and any other conversion reads an argument that is not there. -/
def printFormat : CString → Option (CString)
  | [] => some []
  | c :: cs =>
    if c = 0x25 then
      match cs with
      | d :: ds => if d = 0x25 then (printFormat ds).map (0x25 :: ·) else none
      | [] => none
    else (printFormat cs).map (c :: ·)

/-- `cmsg_transport_info_to_transport`, undefined where the path of a unix
transport, which is used as a format, has a conversion in it. -/
def transportInfoToTransport (info : TransportInfo) : Option Transport :=
  match info.data with
  | .unixInfo path =>
    (printFormat path).map fun out => .unix info.oneWay (out.take (sunPathSize - 2))
  | .tcpInfo tcp =>
    let sockaddr := match tcp.addr with
      | .ipv4 addr => Sockaddr.inet tcp.port addr
      | .ipv6 addr => Sockaddr.inet6 tcp.port 0 addr tcp.scopeId
    some (.tcp info.oneWay sockaddr ((tcp.vrfBindDev.getD []).take (bindDevNameMax - 1)))

/-- `cmsg_transport_tcp_info_create` -/
def transportTcpInfoCreate (sockaddr : Sockaddr) (vrfBindDev : CString) : TcpTransportInfo where
  addr := sockaddr.ipAddr
  port := sockaddr.sinPort
  scopeId := match sockaddr with
    | .inet _ _ => 0
    | .inet6 _ _ _ scopeId => scopeId
  vrfBindDev := if vrfBindDev = [] then none else some vrfBindDev

/-- `cmsg_transport_info_create` -/
def transportInfoCreate : Transport → TransportInfo
  | .unix oneWay sunPath => ⟨oneWay, .unixInfo sunPath⟩
  | .tcp oneWay sockaddr vrfBindDev => ⟨oneWay, .tcpInfo (transportTcpInfoCreate sockaddr vrfBindDev)⟩

/-- `cmsg_transport_info_copy` -/
def transportInfoCopy (info : TransportInfo) : Option TransportInfo :=
  (transportInfoToTransport info).map transportInfoCreate

/-! ## Endpoints -/

/-- What both comparisons look at. -/
inductive Endpoint
  | unix (oneWay : Bool) (path : CString)
  | tcp (oneWay : Bool) (addr : IpAddr) (port : UInt16)
deriving DecidableEq, Repr

/-- The endpoint a message describes. -/
def TransportInfo.endpoint (info : TransportInfo) : Endpoint :=
  match info.data with
  | .unixInfo path => .unix info.oneWay path
  | .tcpInfo tcp => .tcp info.oneWay tcp.addr tcp.port

/-- The endpoint a transport connects to. -/
def Transport.endpoint : Transport → Endpoint
  | .unix oneWay path => .unix oneWay path
  | .tcp oneWay sockaddr _ => .tcp oneWay sockaddr.ipAddr sockaddr.sinPort

/-- Two messages compare equal exactly when they describe the same endpoint. -/
theorem transportInfoCompare_iff (a b : TransportInfo) :
    transportInfoCompare a b = true ↔ a.endpoint = b.endpoint := by
  obtain ⟨oneWay₁, data₁⟩ := a
  obtain ⟨oneWay₂, data₂⟩ := b
  cases data₁ <;> cases data₂ <;> simp [transportInfoCompare, TransportInfo.endpoint]
  tauto

/-- Two transports compare equal exactly when they connect to the same endpoint. -/
theorem transportCompare_iff (a b : Transport) :
    transportCompare a b = true ↔ a.endpoint = b.endpoint := by
  cases a <;> cases b <;> simp [transportCompare, Transport.endpoint, and_assoc]

/-- The message made for a transport describes the endpoint it connects to. -/
@[simp] theorem transportInfoCreate_endpoint (t : Transport) :
    (transportInfoCreate t).endpoint = t.endpoint := by
  cases t <;> rfl

/-- A message that a copy leaves unchanged is turned into a transport to the
endpoint it describes. -/
theorem toTransport_endpoint {info : TransportInfo} (h : transportInfoCopy info = some info) :
    ∃ t, transportInfoToTransport info = some t ∧ t.endpoint = info.endpoint ∧
      transportInfoCreate t = info := by
  obtain ⟨t, ht, hc⟩ := Option.map_eq_some_iff.mp h
  exact ⟨t, ht, by rw [← transportInfoCreate_endpoint, hc], hc⟩

end Cmsg
