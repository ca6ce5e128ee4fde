import Cmsg.Base.Bytes

/-! # The header of every packet

The constants of the protocol and `cmsg_header_process`, which converts a
received header from network byte order and rejects unknown message types. -/
namespace Cmsg.Wire
open Cmsg.Base

/-- `cmsg_msg_type` -/
inductive MsgType
  | methodReq
  | methodReply
  | echoReq
  | echoReply
  | connOpen
deriving DecidableEq, Repr

/-- The message types that `cmsg_header_process` knows. -/
def MsgType.ofWord (n : Nat) : Option MsgType :=
  [.methodReq, .methodReply, .echoReq, .echoReply, .connOpen][n]?

/-- `cmsg_status_code`; a word received as a status is never checked. -/
inductive StatusCode
  | unset
  | success
  | serviceFailed
  | tooManyPending
  | serviceQueued
  | serviceDropped
  | serverConnreset
  | serverMethodNotFound
  | connectionClosed
  | other (word : Nat)
deriving DecidableEq, Repr

/-- A received word as a status code. -/
def StatusCode.ofWord (n : Nat) : StatusCode :=
  [unset, success, serviceFailed, tooManyPending, serviceQueued, serviceDropped,
    serverConnreset, serverMethodNotFound, connectionClosed].getD n (.other n)

/-- `CMSG_RET_OK`, …, `CMSG_RET_CLOSED` -/
inductive RetCode
  | ok
  | queued
  | dropped
  | err
  | methodNotFound
  | closed
deriving DecidableEq, Repr

/-- The value of a return code. -/
def RetCode.toInt : RetCode → Int
  | .ok => 0
  | .queued => 1
  | .dropped => 2
  | .err => -1
  | .methodNotFound => -2
  | .closed => -3

/-- `sizeof (cmsg_header)` -/
def headerSize : Nat := 16

/-- `CMSG_RECV_BUFFER_SZ` -/
def recvBufferSize : Nat := 512

/-- `CMSG_SERVER_REQUEST_MAX_NAME_LENGTH` -/
def maxNameLength : Nat := 128

/-- `UNDEFINED_METHOD` -/
def undefinedMethod : Nat := 0xffffffff

/-- `CMSG_TLV_SIZE`, whose sum is taken in `size_t`. -/
def tlvSize (x : Nat) : Nat := 8 + x

/-- `cmsg_header`, in host byte order. -/
structure Header where
  msgType : MsgType
  headerLength : Nat
  messageLength : Nat
  statusCode : StatusCode
  headerLength_lt : headerLength < word32
  messageLength_lt : messageLength < word32
deriving Repr

/-- `cmsg_header_process`, on the sixteen bytes at the start of `m`; `none`
stands for `CMSG_RET_ERR`. -/
def headerProcess (m : Memory) : Option Header :=
  (MsgType.ofWord (be32 m 0)).map fun msgType =>
    { msgType
      headerLength := be32 m 4
      messageLength := be32 m 8
      statusCode := .ofWord (be32 m 12)
      headerLength_lt := be32_lt m 4
      messageLength_lt := be32_lt m 8 }

/-- The packet size a header announces, a 32-bit sum. -/
def Header.dynLen (h : Header) : Nat := wrap32 (h.messageLength + h.headerLength)

/-- The size of the headers that follow the fixed one, a 32-bit difference. -/
def Header.extraHeaderSize (h : Header) : Nat := sub32 h.headerLength headerSize

theorem headerProcess_eq_some {m : Memory} {h : Header} (hp : headerProcess m = some h) :
    MsgType.ofWord (be32 m 0) = some h.msgType ∧ h.headerLength = be32 m 4 ∧
      h.messageLength = be32 m 8 ∧ h.statusCode = .ofWord (be32 m 12) := by
  obtain ⟨msgType, hm, rfl⟩ := Option.map_eq_some_iff.mp hp
  exact ⟨hm, rfl, rfl, rfl⟩

/-- The header is in the first sixteen bytes. -/
theorem headerProcess_congr {m m' : Memory} (h : ∀ p, p < headerSize → m p = m' p) :
    headerProcess m = headerProcess m' := by
  have hword : ∀ p, p + 3 < headerSize → be32 m p = be32 m' p :=
    fun p hp => be32_congr fun i hi => h (p + i) (by omega)
  simp only [headerProcess, hword 0 (by decide), hword 4 (by decide), hword 8 (by decide),
    hword 12 (by decide)]

/-- The sum does not wrap exactly when it stays below `2 ^ 32`. -/
theorem Header.dynLen_eq (h : Header) (hw : h.headerLength + h.messageLength < word32) :
    h.dynLen = h.headerLength + h.messageLength := by
  rw [Header.dynLen, wrap32_of_lt (by omega), Nat.add_comm]

/-- Where the header length covers the header, the difference is the plain one. -/
theorem Header.extraHeaderSize_eq (h : Header) (hl : headerSize ≤ h.headerLength) :
    h.extraHeaderSize = h.headerLength - headerSize :=
  sub32_of_le hl h.headerLength_lt

theorem Header.extraHeaderSize_eq_zero (h : Header) :
    h.extraHeaderSize = 0 ↔ h.headerLength = headerSize :=
  sub32_eq_zero h.headerLength_lt (by decide)

end Cmsg.Wire
