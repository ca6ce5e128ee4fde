import Cmsg.Base.Bytes

/-! # Receiving from a stream

`cmsg_transport_socket_recv` asks for a packet in chunks until it has it all or
the stream ends, so the number of bytes it returns does not depend on how many
of them each call of `recv` transfers. -/
namespace Cmsg
open Cmsg.Base

/-! ## The loop over the chunks -/

/-- `CMSG_RECV_ALL_CHUNK_SIZE` -/
def recvAllChunkSize : Nat := 16384

/-- How many bytes each call of `recv` transfers, of those that are there and
those that it is asked for. A signal can end a call early, but not before it has
transferred a byte. -/
structure Kernel where
  recv : (call available asked : Nat) → Nat
  recv_le : ∀ call available asked, recv call available asked ≤ min available asked
  recv_pos : ∀ call available asked, 0 < available → 0 < asked →
    0 < recv call available asked

/-- `MIN (bytes_left, CMSG_RECV_ALL_CHUNK_SIZE)`, a minimum of signed numbers
that is then taken for a size. -/
def chunkSize (bytesLeft : Nat) : Nat :=
  if bytesLeft < 2 ^ 63 then min bytesLeft recvAllChunkSize else bytesLeft

/-- The loop of `cmsg_transport_socket_recv`. Every round but the last receives a
byte, so as much fuel as there are bytes is enough. -/
def socketRecvLoop (k : Kernel) (stream : List UInt8) (len : Nat) : (fuel receivedBytes : Nat) → Nat
  | 0, receivedBytes => receivedBytes
  | fuel + 1, receivedBytes =>
    if receivedBytes < len then
      let ret := k.recv fuel (stream.length - receivedBytes) (chunkSize (len - receivedBytes))
      if ret = 0 then receivedBytes else socketRecvLoop k stream len fuel (receivedBytes + ret)
    else receivedBytes

/-- `cmsg_transport_socket_recv`, in blocking mode -/
def socketRecv (k : Kernel) (stream : List UInt8) (len : Nat) : Nat :=
  socketRecvLoop k stream len (stream.length + 1) 0

theorem chunkSize_le (n : Nat) : chunkSize n ≤ n := by
  unfold chunkSize
  split
  · exact Nat.min_le_left _ _
  · exact Nat.le_refl n

theorem chunkSize_pos {n : Nat} (h : 0 < n) : 0 < chunkSize n := by
  unfold chunkSize
  split
  · have : 0 < recvAllChunkSize := by decide
    omega
  · exact h

theorem socketRecvLoop_eq (k : Kernel) (stream : List UInt8) (len fuel : Nat) :
    ∀ receivedBytes ≤ min stream.length len, stream.length - receivedBytes < fuel →
      socketRecvLoop k stream len fuel receivedBytes = min stream.length len := by
  induction fuel with
  | zero =>
    intro _ _ hfuel
    omega
  | succ fuel ih =>
    intro receivedBytes hle hfuel
    unfold socketRecvLoop
    split
    · next hlt =>
      have hasked := chunkSize_le (len - receivedBytes)
      have hret := k.recv_le fuel (stream.length - receivedBytes) (chunkSize (len - receivedBytes))
      have hpos : 0 < stream.length - receivedBytes → _ := fun h =>
        k.recv_pos fuel _ _ h (chunkSize_pos (show 0 < len - receivedBytes by omega))
      dsimp only
      generalize k.recv fuel _ _ = ret at hret hpos
      split
      · omega
      · exact ih _ (by omega) (by omega)
    · omega

/-- All that was asked for, or all that there is. -/
theorem socketRecv_eq (k : Kernel) (stream : List UInt8) (len : Nat) :
    socketRecv k stream len = min stream.length len :=
  socketRecvLoop_eq k stream len _ 0 (Nat.zero_le _) (by omega)

/-! ## Lengths as words -/

/-- An `int`, given as a word, that is passed for a `size_t`. -/
def toSize (n : Nat) : Nat := if n < 2 ^ 31 then n else n + (2 ^ 64 - word32)

/-- The number of bytes received by a `recv_wrapper` that is asked for the word
`n` of them. It returns the number as an `int`. -/
def recvCount (stream : List UInt8) (n : Nat) : Nat := min stream.length (toSize n)

theorem recv_wrapper_eq (k : Kernel) (stream : List UInt8) (n : Nat) :
    socketRecv k stream (toSize n) = recvCount stream n := socketRecv_eq k stream (toSize n)

theorem toSize_of_lt {n : Nat} (h : n < 2 ^ 31) : toSize n = n := if_pos h

theorem recvCount_of_lt (stream : List UInt8) {n : Nat} (h : n < 2 ^ 31) :
    recvCount stream n = min stream.length n := by
  rw [recvCount, toSize_of_lt h]

theorem recvCount_le_length (stream : List UInt8) (n : Nat) : recvCount stream n ≤ stream.length :=
  Nat.min_le_left _ _

/-- The packet is received as a whole when it all arrives and is not too long. -/
theorem recvCount_eq {stream : List UInt8} {n : Nat} (hs : n ≤ stream.length) (hn : n < 2 ^ 31) :
    recvCount stream n = n := by
  rw [recvCount_of_lt stream hn, Nat.min_eq_right hs]

/-- A number of bytes that is a positive `int` and the word that was asked for. -/
theorem recvCount_eq_iff {stream : List UInt8} {n : Nat}
    (hpos : 0 < toInt32 (wrap32 (recvCount stream n))) :
    wrap32 (recvCount stream n) = n ↔ n ≤ stream.length ∧ n < 2 ^ 31 := by
  have hlt := (toInt32_pos (wrap32_lt _)).mp hpos
  constructor
  · intro h
    rw [h] at hlt
    rw [recvCount_of_lt stream hlt.2] at h
    have hle := wrap32_le (min stream.length n)
    omega
  · intro ⟨hs, hn⟩
    rw [recvCount_eq hs hn]
    exact wrap32_of_lt (lt_word32 hn)

end Cmsg
