import Cmsg.Base.Layout
import Cmsg.Wire.Tlv

/-! # Packets

`cmsg_header_create` and `cmsg_tlv_method_header_create` write what
`cmsg_header_process` and `cmsg_tlv_header_process` read. A packet is a header,
a TLV header with the name of a method, and the bytes of a message. -/
namespace Cmsg.Wire
open Cmsg.Base

def MsgType.toWord : MsgType → Nat
  | .methodReq => 0
  | .methodReply => 1
  | .echoReq => 2
  | .echoReply => 3
  | .connOpen => 4

def StatusCode.toWord : StatusCode → Nat
  | .unset => 0
  | .success => 1
  | .serviceFailed => 2
  | .tooManyPending => 3
  | .serviceQueued => 4
  | .serviceDropped => 5
  | .serverConnreset => 6
  | .serverMethodNotFound => 7
  | .connectionClosed => 8
  | .other word => word

/-- `cmsg_header_create`, in network byte order -/
def headerCreate (msgType : MsgType) (extraHeaderSize packedSize : Nat) (statusCode : StatusCode) :
    List UInt8 :=
  toBe32 msgType.toWord ++ (toBe32 (wrap32 (headerSize + extraHeaderSize)) ++
    (toBe32 packedSize ++ toBe32 statusCode.toWord))

/-- `cmsg_tlv_method_header_create` -/
def tlvMethodHeaderCreate (header : List UInt8) (type length : Nat) (methodName : CString) :
    List UInt8 :=
  header ++ (toBe32 type ++ (toBe32 length ++ strncpy methodName length))

/-- A header, the name of a method and a message. -/
def methodPacket (msgType : MsgType) (statusCode : StatusCode) (methodName : CString)
    (message : List UInt8) : List UInt8 :=
  tlvMethodHeaderCreate
    (headerCreate msgType (tlvSize (methodName.length + 1)) message.length statusCode)
    tlvMethodType (methodName.length + 1) methodName ++ message

/-- The TLV header with the name of a method. -/
def methodTlv (methodName : CString) : List UInt8 :=
  toBe32 tlvMethodType ++ (toBe32 (methodName.length + 1) ++ (methodName ++ [0]))

theorem methodPacket_eq (msgType : MsgType) (statusCode : StatusCode) (name : CString)
    (message : List UInt8) : methodPacket msgType statusCode name message =
      headerCreate msgType (tlvSize (name.length + 1)) message.length statusCode ++
        (methodTlv name ++ message) := by
  rw [methodPacket, tlvMethodHeaderCreate, strncpy_succ, List.append_assoc]
  rfl

/-! ## Sizes -/

@[simp] theorem length_headerCreate (msgType : MsgType) (extra packedSize : Nat)
    (statusCode : StatusCode) :
    (headerCreate msgType extra packedSize statusCode).length = headerSize := rfl

@[simp] theorem length_strncpy (src : CString) (n : Nat) : (strncpy src n).length = n := by
  simp [strncpy]

theorem length_tlvMethodHeaderCreate (header : List UInt8) (type length : Nat) (name : CString) :
    (tlvMethodHeaderCreate header type length name).length = header.length + tlvSize length := by
  simp only [tlvMethodHeaderCreate, List.length_append, length_toBe32, length_strncpy, tlvSize]
  omega

@[simp] theorem length_methodTlv (name : CString) :
    (methodTlv name).length = tlvSize (name.length + 1) := by
  simp only [methodTlv, List.length_append, length_toBe32, List.length_singleton, tlvSize]
  omega

theorem length_methodPacket (msgType : MsgType) (statusCode : StatusCode) (name : CString)
    (message : List UInt8) : (methodPacket msgType statusCode name message).length =
      headerSize + tlvSize (name.length + 1) + message.length := by
  rw [methodPacket, List.length_append, length_tlvMethodHeaderCreate, length_headerCreate]

/-! ## Reading a header -/

theorem MsgType.ofWord_toWord (t : MsgType) : MsgType.ofWord t.toWord = some t := by
  cases t <;> rfl

theorem MsgType.toWord_lt (t : MsgType) : t.toWord < word32 := by
  cases t <;> decide

/-- A status that a sender of this code gives. -/
def StatusCode.Known (s : StatusCode) : Prop := ∀ word, s ≠ .other word

theorem StatusCode.ofWord_toWord {s : StatusCode} (h : s.Known) : StatusCode.ofWord s.toWord = s := by
  cases s with
  | other word => exact absurd rfl (h word)
  | _ => rfl

theorem StatusCode.toWord_lt {s : StatusCode} (h : s.Known) : s.toWord < word32 := by
  cases s with
  | other word => exact absurd rfl (h word)
  | _ => decide

/-- `cmsg_header_process` reads what `cmsg_header_create` wrote. -/
theorem headerProcess_headerCreate {m : Memory} {msgType : MsgType} {extra packedSize : Nat}
    {statusCode : StatusCode} (hm : Holds m 0 (headerCreate msgType extra packedSize statusCode))
    (hs : statusCode.Known) :
    ∃ header, headerProcess m = some header ∧ header.msgType = msgType ∧
      header.headerLength = wrap32 (headerSize + extra) ∧
      header.messageLength = wrap32 packedSize ∧ header.statusCode = statusCode := by
  obtain ⟨htype, hm⟩ := hm.append
  obtain ⟨hheader, hm⟩ := hm.append
  obtain ⟨hmessage, hstatus⟩ := hm.append
  have htype' : be32 m 0 = msgType.toWord := htype.be32_of_lt msgType.toWord_lt
  have hheader' : be32 m 4 = wrap32 (headerSize + extra) := hheader.be32_of_lt (wrap32_lt _)
  have hmessage' : be32 m 8 = wrap32 packedSize := hmessage.be32
  have hstatus' : be32 m 12 = statusCode.toWord := hstatus.be32_of_lt (StatusCode.toWord_lt hs)
  have hknown : MsgType.ofWord (be32 m 0) = some msgType := by
    rw [htype', msgType.ofWord_toWord]
  refine ⟨_, by rw [headerProcess, hknown]; rfl, rfl, hheader', hmessage', ?_⟩
  show StatusCode.ofWord (be32 m 12) = statusCode
  rw [hstatus', StatusCode.ofWord_toWord hs]

/-- A header that announces a TLV header of a method and a message. -/
structure Header.Announces (header : Header) (msgType : MsgType) (statusCode : StatusCode)
    (name : CString) (messageLength : Nat) : Prop where
  msgType_eq : header.msgType = msgType
  headerLength_eq : header.headerLength = headerSize + tlvSize (name.length + 1)
  messageLength_eq : header.messageLength = messageLength
  statusCode_eq : header.statusCode = statusCode

theorem Header.Announces.extraHeaderSize_eq {header : Header} {msgType : MsgType}
    {statusCode : StatusCode} {name : CString} {n : Nat}
    (h : header.Announces msgType statusCode name n) :
    header.extraHeaderSize = tlvSize (name.length + 1) := by
  rw [Header.extraHeaderSize_eq _ (by rw [h.headerLength_eq]; exact Nat.le_add_right _ _),
    h.headerLength_eq, Nat.add_sub_cancel_left]

theorem Header.Announces.dynLen_eq {header : Header} {msgType : MsgType}
    {statusCode : StatusCode} {name : CString} {n : Nat}
    (h : header.Announces msgType statusCode name n)
    (hsize : headerSize + tlvSize (name.length + 1) + n < word32) :
    header.dynLen = headerSize + tlvSize (name.length + 1) + n := by
  rw [Header.dynLen_eq _ (by rw [h.headerLength_eq, h.messageLength_eq]; exact hsize),
    h.headerLength_eq, h.messageLength_eq]

/-- The header of a packet that fits is read back. -/
theorem headerProcess_methodPacket {m : Memory} {msgType : MsgType} {statusCode : StatusCode}
    {name : CString} {message : List UInt8}
    (hm : Holds m 0 (methodPacket msgType statusCode name message)) (hs : statusCode.Known)
    (hsize : headerSize + tlvSize (name.length + 1) + message.length < word32) :
    ∃ header, headerProcess m = some header ∧
      header.Announces msgType statusCode name message.length := by
  rw [methodPacket_eq] at hm
  obtain ⟨header, hp, htype, hheader, hmessage, hstatus⟩ := headerProcess_headerCreate hm.append.1 hs
  rw [wrap32_of_lt (by omega)] at hheader hmessage
  exact ⟨header, hp, htype, hheader, hmessage, hstatus⟩

/-! ## Reading a TLV header -/

theorem cString_of_holds {m : Memory} {pos : Nat} {name : CString}
    (hm : Holds m pos (name ++ [0])) (hnul : ∀ c ∈ name, c ≠ 0) :
    cString m pos (name.length + 1) = name := by
  have hslice : slice m pos (name.length + 1) = name ++ [0] := by
    simpa using hm.slice
  rw [cString, hslice, List.takeWhile_append_of_pos (by simpa using hnul)]
  simp

/-- A C string of 1 to 127 bytes. -/
structure MethodName (name : CString) : Prop where
  nonempty : name ≠ []
  length_lt : name.length < maxNameLength
  nul : ∀ c ∈ name, c ≠ 0

/-- The name of a method, read from its TLV header. -/
theorem tlvMethod_of_holds {lookup : CString → Nat} {m : Memory} {buf : Nat} {name : CString}
    (hm : Holds m (buf + 8) (name ++ [0])) (hname : MethodName name) (request : TlvRequest) :
    let r := tlvMethod lookup m buf (name.length + 1) request
    if lookup name = undefinedMethod then r.ret = .methodNotFound
    else r.ret = .ok ∧ r.request = ⟨lookup name, name⟩ := by
  intro r
  have hfirst : m (buf + 8) ≠ 0 := by
    obtain ⟨c, cs, rfl⟩ := List.exists_cons_of_ne_nil hname.nonempty
    have hc := hm 0 (by simp)
    rw [Nat.add_zero] at hc
    rw [hc]
    exact hname.nul c (by simp)
  have hlast : m (buf + 8 + (name.length + 1) - 1) = 0 := by
    have hc := hm name.length (by simp)
    rw [show buf + 8 + (name.length + 1) - 1 = buf + 8 + name.length by omega, hc]
    simp
  have hlen : ¬ (name.length + 1 = 0 ∨ maxNameLength < name.length + 1) := by
    have := hname.length_lt
    omega
  have htake : name.take (maxNameLength - 1) = name :=
    List.take_of_length_le (Nat.le_pred_of_lt hname.length_lt)
  unfold r tlvMethod
  dsimp only
  rw [if_neg hlen, if_neg hfirst, if_neg (not_not.mpr hlast), cString_of_holds hm hname.nul, htake]
  split
  · rfl
  · exact ⟨rfl, rfl⟩

/-- **A method header is read back**: its name is looked up, and nothing is left. -/
theorem tlvHeaderProcess_of_holds {lookup : CString → Nat} {m : Memory} {buf : Nat} {name : CString}
    (hm : Holds m buf (methodTlv name))
    (hname : MethodName name) (request : TlvRequest) :
    let r := tlvHeaderProcess lookup m buf (tlvSize (name.length + 1)) request
    if lookup name = undefinedMethod then r.ret = .methodNotFound
    else r.ret = .ok ∧ r.request = ⟨lookup name, name⟩ := by
  intro r
  obtain ⟨htype, hm⟩ := hm.append
  obtain ⟨hlength, hm⟩ := hm.append
  have hle : name.length + 1 ≤ maxNameLength := hname.length_lt
  have htype' : be32 m buf = tlvMethodType := htype.be32_of_lt (by decide)
  have hlength' : be32 m (buf + 4) = name.length + 1 :=
    hlength.be32_of_lt (Nat.lt_of_le_of_lt hle (by decide))
  have hspec := @tlvMethod_of_holds lookup m buf name hm hname request
  have htotal := wrap32_tlvSize hle
  have hsize : tlvSize (name.length + 1) = 8 + (name.length + 1) := rfl
  unfold r tlvHeaderProcess
  rw [hsize, if_neg (show ¬ 8 + (name.length + 1) = 0 by omega)]
  unfold tlvLoop
  rw [if_pos (show tlvSize 0 ≤ 8 + (name.length + 1) from Nat.le_add_right _ _)]
  dsimp only
  rw [hlength', htotal, if_pos (Nat.le_refl _), if_pos htype']
  by_cases hfound : lookup name = undefinedMethod
  · rw [if_pos hfound] at hspec ⊢
    simp only [hspec]
  · rw [if_neg hfound] at hspec ⊢
    simp only [hspec]
    rw [Nat.sub_self, tlvLoop_zero]
    exact ⟨rfl, rfl⟩

end Cmsg.Wire
