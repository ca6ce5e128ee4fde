import Mathlib.Data.List.Basic
import Cmsg.Transport.Recv

/-! # The loops over a blocking socket

A call of `send` or `recv` transfers some of the bytes that it is asked for, or it fails, or a
signal interrupts it before the first byte. The loops go on until all bytes are transferred, so
that what they return depends on the stream and not on how it is cut. -/
namespace Cmsg.Socket
open Cmsg.Base

/-! ## Sizes -/

/-- A `ssize_t` where a `size_t` is expected. -/
def toSizeT (n : Int) : Nat := (n % 2 ^ 64).toNat

/-- A `size_t` where a `ssize_t` is expected. -/
def toSsizeT (n : Nat) : Int := if n < 2 ^ 63 then n else n - 2 ^ 64

/-- The difference of two values of type `size_t`. -/
def subSizeT (a b : Nat) : Nat := (2 ^ 64 + a - b) % 2 ^ 64

theorem toSizeT_natCast {n : Nat} (h : n < 2 ^ 63) : toSizeT n = n := by
  unfold toSizeT
  omega

theorem subSizeT_of_le {a b : Nat} (hb : b ≤ a) (ha : a < 2 ^ 63) : subSizeT a b = a - b := by
  unfold subSizeT
  omega

/-- The buffer that a caller gives; no object in memory is larger than a `ssize_t` can say. -/
structure Buffer where
  data : Memory
  len : Nat
  len_lt : len < 2 ^ 63

/-- Memory after bytes were written at a position. -/
def store (m : Memory) (pos : Nat) (bytes : List UInt8) : Memory := fun i =>
  if pos ≤ i then (bytes[i - pos]?).getD (m i) else m i

/-- What is written behind a list of bytes goes on with it. -/
theorem store_ofBytes (xs ys : List UInt8) (m : Memory) :
    store (ofBytes xs m) xs.length ys = ofBytes (xs ++ ys) m := by
  funext i
  unfold store ofBytes
  by_cases hi : xs.length ≤ i
  · rw [if_pos hi, List.getElem?_append_right hi, List.getElem?_eq_none hi]
    rfl
  · rw [if_neg hi, List.getElem?_append_left (by omega)]

theorem slice_append (m : Memory) (a b : Nat) : slice m 0 a ++ slice m a b = slice m 0 (a + b) := by
  unfold slice
  rw [List.range_add, List.map_append, List.map_map]
  simp only [Nat.zero_add]
  rfl

/-! ## Receiving -/

/-- What a call of `recv` gives: bytes, 0, or -1 with the `errno` of an error or of a signal. -/
inductive RecvResult
  | received (bytes : List UInt8)
  | shutdown
  | failed
  | interrupted

/-- What the loop comes to: its value, unless it waits for the kernel, and the buffer. -/
structure RecvReturn where
  ret : Option Int
  data : Memory

/-- The `chunk_size` of a round: a minimum of signed numbers. -/
def recvAsked (len : Nat) (receivedBytes : Int) : Nat :=
  let bytesLeft := toSsizeT (subSizeT len (toSizeT receivedBytes))
  toSizeT (min bytesLeft recvAllChunkSize)

/-- The loop of `cmsg_transport_socket_recv`, in which `TEMP_FAILURE_RETRY` calls again after a
signal. -/
def recvLoop (len : Nat) : List RecvResult → Memory → Int → RecvReturn
  | [], data, receivedBytes =>
    ⟨if toSizeT receivedBytes < len then none else some receivedBytes, data⟩
  | result :: results, data, receivedBytes =>
    if toSizeT receivedBytes < len then
      match result with
      | .interrupted => recvLoop len results data receivedBytes
      | .failed => ⟨some (-1), data⟩
      | .shutdown => ⟨some receivedBytes, data⟩
      | .received bytes =>
        recvLoop len results (store data (toSizeT receivedBytes) bytes)
          (receivedBytes + bytes.length)
    else ⟨some receivedBytes, data⟩

/-- The one call that is made with `MSG_DONTWAIT`. -/
def recvOnce (data : Memory) : List RecvResult → RecvReturn
  | [] => ⟨none, data⟩
  | .received bytes :: _ => ⟨some bytes.length, store data 0 bytes⟩
  | .shutdown :: _ => ⟨some 0, data⟩
  | .failed :: _ | .interrupted :: _ => ⟨some (-1), data⟩

/-- `cmsg_transport_socket_recv`, given what the calls of `recv` result in. -/
def socketRecv (msgDontwait : Bool) (buf : Buffer) (results : List RecvResult) : RecvReturn :=
  if msgDontwait then recvOnce buf.data results else recvLoop buf.len results buf.data 0

/-- Each call transfers at least one of the bytes that it is asked for, and no more than these. -/
def RecvAnswers (len : Nat) : Int → List RecvResult → Prop
  | _, [] => True
  | receivedBytes, result :: results => toSizeT receivedBytes < len →
    match result with
    | .received bytes => 0 < bytes.length ∧ bytes.length ≤ recvAsked len receivedBytes ∧
        RecvAnswers len (receivedBytes + bytes.length) results
    | .interrupted => RecvAnswers len receivedBytes results
    | .shutdown | .failed => True

/-- How a stream of bytes goes on after its last byte. -/
inductive StreamEnd
  | more | shutdown | failed
  deriving DecidableEq

/-- The bytes that come in up to the end of the stream. -/
def incoming : List RecvResult → List UInt8 × StreamEnd
  | [] => ([], .more)
  | .received bytes :: results => (bytes ++ (incoming results).1, (incoming results).2)
  | .shutdown :: _ => ([], .shutdown)
  | .failed :: _ => ([], .failed)
  | .interrupted :: results => incoming results

/-! ## Sending -/

/-- What a call of `send` gives: the number of bytes that the kernel took, or -1. -/
inductive SendResult
  | sent (n : Nat)
  | failed
  | interrupted

/-- What the loop comes to, and the bytes that the kernel took. -/
structure SendReturn where
  ret : Option Int
  passed : List UInt8

/-- The loop of `cmsg_transport_socket_send`. -/
def sendLoop (buf : Buffer) : List SendResult → List UInt8 → Int → SendReturn
  | [], passed, sentBytes => ⟨if toSizeT sentBytes < buf.len then none else some sentBytes, passed⟩
  | result :: results, passed, sentBytes =>
    if toSizeT sentBytes < buf.len then
      match result with
      | .interrupted => sendLoop buf results passed sentBytes
      | .failed => ⟨some (-1), passed⟩
      | .sent n =>
        sendLoop buf results (passed ++ slice buf.data (toSizeT sentBytes) n) (sentBytes + n)
    else ⟨some sentBytes, passed⟩

/-- `cmsg_transport_socket_send`, given what the calls of `send` result in. -/
def socketSend (buf : Buffer) (results : List SendResult) : SendReturn := sendLoop buf results [] 0

/-- Each call takes no more bytes than it is given. -/
def SendAnswers (len : Nat) : Int → List SendResult → Prop
  | _, [] => True
  | sentBytes, result :: results => toSizeT sentBytes < len →
    match result with
    | .sent n => n ≤ subSizeT len (toSizeT sentBytes) ∧ SendAnswers len (sentBytes + n) results
    | .interrupted => SendAnswers len sentBytes results
    | .failed => True

/-- How many bytes the kernel takes up to an error. -/
def outgoing : List SendResult → Nat × StreamEnd
  | [] => (0, .more)
  | .sent n :: results => (n + (outgoing results).1, (outgoing results).2)
  | .failed :: _ => (0, .failed)
  | .interrupted :: results => outgoing results

/-! ## What the loops should return -/

/-- The calls that bring a loop on. -/
def RecvResult.counts : RecvResult → Bool
  | .interrupted => false
  | _ => true

def SendResult.counts : SendResult → Bool
  | .sent n => 0 < n
  | .failed => true
  | .interrupted => false

/-- What is received is the stream, as far as there is room for it. -/
structure ReceivesStream (buf : Buffer) (results : List RecvResult) : Prop where
  stored : (socketRecv false buf results).data = ofBytes ((incoming results).1.take buf.len) buf.data
  full : buf.len ≤ (incoming results).1.length → (socketRecv false buf results).ret = some (buf.len : Int)
  shutdown : (incoming results).1.length < buf.len → (incoming results).2 = .shutdown →
    (socketRecv false buf results).ret = some ((incoming results).1.length : Int)
  failed : (incoming results).1.length < buf.len → (incoming results).2 = .failed →
    (socketRecv false buf results).ret = some (-1)
  waits : (incoming results).1.length < buf.len → (incoming results).2 = .more →
    (socketRecv false buf results).ret = none
  returns : buf.len ≤ results.countP RecvResult.counts → (socketRecv false buf results).ret ≠ none

/-- What is sent is the buffer from its first byte on. -/
structure SendsBuffer (buf : Buffer) (results : List SendResult) : Prop where
  passed : (socketSend buf results).passed = slice buf.data 0 (min buf.len (outgoing results).1)
  all : buf.len ≤ (outgoing results).1 → (socketSend buf results).ret = some (buf.len : Int)
  failed : (outgoing results).1 < buf.len → (outgoing results).2 = .failed →
    (socketSend buf results).ret = some (-1)
  waits : (outgoing results).1 < buf.len → (outgoing results).2 ≠ .failed →
    (socketSend buf results).ret = none
  returns : buf.len ≤ results.countP SendResult.counts → (socketSend buf results).ret ≠ none

/-- The two calls, whatever the kernel does, and that what is received depends on the stream
alone. -/
structure SocketCalls (buf : Buffer) : Prop where
  send : ∀ results, SendAnswers buf.len 0 results → SendsBuffer buf results
  recv : ∀ results, RecvAnswers buf.len 0 results → ReceivesStream buf results
  chunks : ∀ results results', RecvAnswers buf.len 0 results → RecvAnswers buf.len 0 results' →
    incoming results = incoming results' →
    socketRecv false buf results = socketRecv false buf results'

/-! ## The loop over `recv` -/

section
variable {len n : Nat}

/-- The chunk of a round, for sizes that are in range. -/
theorem recvAsked_natCast (hn : n ≤ len) (hlen : len < 2 ^ 63) :
    recvAsked len n = chunkSize (len - n) := by
  unfold recvAsked chunkSize toSsizeT
  rw [toSizeT_natCast (by omega), subSizeT_of_le hn hlen]
  dsimp only
  have hmin : min ((len - n : Nat) : Int) recvAllChunkSize =
      (min (len - n) recvAllChunkSize : Nat) := by omega
  rw [if_pos (by omega), if_pos (by omega), hmin]
  exact toSizeT_natCast (by omega)

/-- The value where the stream is too short: the loop waits, or it returns how much there was. -/
def StreamEnd.ret (received : Nat) : StreamEnd → Option Int
  | .more => none
  | .shutdown => some received
  | .failed => some (-1)

/-- What the loop comes to, given the whole stream. -/
def streamReturn (len : Nat) (data : Memory) (stream : List UInt8 × StreamEnd) : RecvReturn :=
  { ret := if len ≤ stream.1.length then some len else stream.2.ret stream.1.length
    data := ofBytes (stream.1.take len) data }

theorem streamReturn_full {xs ys : List UInt8} (data : Memory) (e : StreamEnd)
    (h : xs.length = len) : streamReturn len data (xs ++ ys, e) = ⟨some len, ofBytes xs data⟩ := by
  unfold streamReturn
  rw [if_pos (by rw [List.length_append]; omega), List.take_append_of_le_length (by omega),
    List.take_of_length_le (by omega)]

theorem streamReturn_short {stream : List UInt8 × StreamEnd} (data : Memory)
    (h : stream.1.length < len) :
    streamReturn len data stream = ⟨stream.2.ret stream.1.length, ofBytes stream.1 data⟩ := by
  unfold streamReturn
  rw [if_neg (by omega), List.take_of_length_le (by omega)]

theorem recvLoop_full (hlen : len < 2 ^ 63) (results : List RecvResult) (data : Memory) :
    recvLoop len results data len = ⟨some len, data⟩ := by
  have hsize : toSizeT len = len := toSizeT_natCast hlen
  cases results with
  | nil =>
    unfold recvLoop
    rw [hsize, if_neg (Nat.lt_irrefl len)]
  | cons result results =>
    unfold recvLoop
    rw [hsize, if_neg (Nat.lt_irrefl len)]

/-- The loop, with the bytes received so far. -/
theorem recvLoop_eq (hlen : len < 2 ^ 63) (data : Memory) (results : List RecvResult)
    (xs : List UInt8) (hxs : xs.length ≤ len) (h : RecvAnswers len xs.length results) :
    recvLoop len results (ofBytes xs data) xs.length =
      streamReturn len data (xs ++ (incoming results).1, (incoming results).2) := by
  have hsize : toSizeT xs.length = xs.length := toSizeT_natCast (by omega)
  induction results generalizing xs with
  | nil =>
    rcases Nat.lt_or_eq_of_le hxs with hlt | hfull
    · unfold recvLoop incoming
      rw [hsize, if_pos hlt, List.append_nil, streamReturn_short data hlt]
      rfl
    · rw [streamReturn_full data _ hfull, hfull, recvLoop_full hlen]
  | cons result results ih =>
    rcases Nat.lt_or_eq_of_le hxs with hlt | hfull
    · cases result with
      | shutdown =>
        unfold recvLoop incoming
        rw [hsize, if_pos hlt, List.append_nil, streamReturn_short data hlt]
        rfl
      | failed =>
        unfold recvLoop incoming
        rw [hsize, if_pos hlt, List.append_nil, streamReturn_short data hlt]
        rfl
      | interrupted =>
        unfold RecvAnswers at h
        unfold recvLoop incoming
        rw [hsize] at h
        rw [hsize, if_pos hlt]
        exact ih xs hxs (h hlt) hsize
      | received bytes =>
        unfold RecvAnswers at h
        unfold recvLoop incoming
        rw [hsize] at h
        obtain ⟨_, hasked, hrest⟩ := h hlt
        rw [recvAsked_natCast hxs hlen] at hasked
        have hle : (xs ++ bytes).length ≤ len := by
          have := chunkSize_le (len - xs.length)
          rw [List.length_append]
          omega
        have hcast : (xs.length : Int) + bytes.length = (xs ++ bytes).length := by
          rw [List.length_append]
          omega
        rw [hcast] at hrest
        dsimp only
        rw [hsize, if_pos hlt, store_ofBytes, hcast,
          ih (xs ++ bytes) hle hrest (toSizeT_natCast (by omega)), List.append_assoc]
    · rw [streamReturn_full data _ hfull, hfull, recvLoop_full hlen]

/-- Each call that was answered brought a byte, as long as the loop waits. -/
theorem countP_le_incoming (hlen : len < 2 ^ 63) (results : List RecvResult) (n : Nat)
    (h : RecvAnswers len n results) (hlt : n + (incoming results).1.length < len)
    (hmore : (incoming results).2 = .more) :
    results.countP RecvResult.counts ≤ (incoming results).1.length := by
  have hsize : toSizeT n = n := toSizeT_natCast (by omega)
  induction results generalizing n with
  | nil => exact Nat.le_refl 0
  | cons result results ih =>
    cases result with
    | shutdown => cases hmore
    | failed => cases hmore
    | interrupted =>
      unfold RecvAnswers at h
      rw [hsize] at h
      exact ih n (h (by omega)) hlt hmore hsize
    | received bytes =>
      unfold RecvAnswers at h
      rw [hsize] at h
      obtain ⟨hpos, _, hrest⟩ := h (by omega)
      rw [← Int.natCast_add] at hrest
      unfold incoming at hlt hmore ⊢
      rw [List.length_append] at hlt ⊢
      have hrec := ih (n + bytes.length) hrest (by omega) hmore (toSizeT_natCast (by omega))
      rw [List.countP_cons_of_pos rfl]
      omega

theorem socketRecv_eq_streamReturn (buf : Buffer) {results : List RecvResult}
    (h : RecvAnswers buf.len 0 results) :
    socketRecv false buf results = streamReturn buf.len buf.data (incoming results) :=
  recvLoop_eq buf.len_lt buf.data results [] (Nat.zero_le _) h

theorem receivesStream (buf : Buffer) {results : List RecvResult}
    (h : RecvAnswers buf.len 0 results) : ReceivesStream buf results := by
  have heq := socketRecv_eq_streamReturn buf h
  have hshort : (incoming results).1.length < buf.len → (socketRecv false buf results).ret =
      (incoming results).2.ret (incoming results).1.length := by
    intro hlt
    rw [heq, streamReturn_short buf.data hlt]
  have hfull : buf.len ≤ (incoming results).1.length →
      (socketRecv false buf results).ret = some (buf.len : Int) := by
    intro hle
    rw [heq]
    exact if_pos hle
  refine ⟨?_, hfull, ?_, ?_, ?_, ?_⟩
  · rw [heq]
    rfl
  · intro hlt hend
    rw [hshort hlt, hend]
    rfl
  · intro hlt hend
    rw [hshort hlt, hend]
    rfl
  · intro hlt hend
    rw [hshort hlt, hend]
    rfl
  · intro hcalls
    by_cases hle : buf.len ≤ (incoming results).1.length
    · rw [hfull hle]
      exact Option.some_ne_none _
    · rw [hshort (by omega)]
      cases hend : (incoming results).2 with
      | more =>
        have hfew := countP_le_incoming buf.len_lt results 0 h (by omega) hend
        omega
      | shutdown => exact Option.some_ne_none _
      | failed => exact Option.some_ne_none _

end

/-! ## The loop over `send` -/

section
variable {buf : Buffer} {n : Nat}

theorem sendLoop_full (results : List SendResult) (passed : List UInt8) :
    sendLoop buf results passed buf.len = ⟨some buf.len, passed⟩ := by
  have hsize : toSizeT buf.len = buf.len := toSizeT_natCast buf.len_lt
  cases results with
  | nil =>
    unfold sendLoop
    rw [hsize, if_neg (Nat.lt_irrefl _)]
  | cons result results =>
    unfold sendLoop
    rw [hsize, if_neg (Nat.lt_irrefl _)]

/-- What the loop comes to, given how much the kernel takes. -/
def bufferReturn (buf : Buffer) (taken : Nat × StreamEnd) : SendReturn :=
  { ret :=
      if buf.len ≤ taken.1 then some buf.len
      else if taken.2 = .failed then some (-1) else none
    passed := slice buf.data 0 (min buf.len taken.1) }

theorem bufferReturn_full (total : Nat) (e : StreamEnd) :
    bufferReturn buf (buf.len + total, e) = ⟨some buf.len, slice buf.data 0 buf.len⟩ := by
  unfold bufferReturn
  rw [if_pos (Nat.le_add_right _ _), Nat.min_eq_left (Nat.le_add_right _ _)]

theorem bufferReturn_short {taken : Nat × StreamEnd} (h : taken.1 < buf.len) :
    bufferReturn buf taken =
      ⟨if taken.2 = .failed then some (-1) else none, slice buf.data 0 taken.1⟩ := by
  unfold bufferReturn
  rw [if_neg (by omega), Nat.min_eq_right (by omega)]

/-- The loop, with the number of bytes sent so far. -/
theorem sendLoop_eq (results : List SendResult) (n : Nat) (hn : n ≤ buf.len)
    (h : SendAnswers buf.len n results) : sendLoop buf results (slice buf.data 0 n) n =
      bufferReturn buf (n + (outgoing results).1, (outgoing results).2) := by
  have hlen := buf.len_lt
  have hsize : toSizeT n = n := toSizeT_natCast (by omega)
  induction results generalizing n with
  | nil =>
    rcases Nat.lt_or_eq_of_le hn with hlt | hfull
    · unfold sendLoop outgoing
      rw [hsize, if_pos hlt, Nat.add_zero, bufferReturn_short hlt]
      rfl
    · rw [hfull, sendLoop_full, bufferReturn_full]
  | cons result results ih =>
    rcases Nat.lt_or_eq_of_le hn with hlt | hfull
    · cases result with
      | failed =>
        unfold sendLoop outgoing
        rw [hsize, if_pos hlt, Nat.add_zero, bufferReturn_short hlt]
        rfl
      | interrupted =>
        unfold SendAnswers at h
        unfold sendLoop outgoing
        rw [hsize] at h
        rw [hsize, if_pos hlt]
        exact ih n hn (h hlt) hsize
      | sent k =>
        unfold SendAnswers at h
        unfold sendLoop outgoing
        rw [hsize] at h
        obtain ⟨hk, hrest⟩ := h hlt
        rw [subSizeT_of_le hn hlen] at hk
        rw [← Int.natCast_add] at hrest
        dsimp only
        rw [hsize, if_pos hlt, slice_append, ← Int.natCast_add,
          ih (n + k) (by omega) hrest (toSizeT_natCast (by omega)), Nat.add_assoc]
    · rw [hfull, sendLoop_full, bufferReturn_full]

theorem countP_le_outgoing (results : List SendResult) (hmore : (outgoing results).2 ≠ .failed) :
    results.countP SendResult.counts ≤ (outgoing results).1 := by
  induction results with
  | nil => exact Nat.le_refl 0
  | cons result results ih =>
    cases result with
    | failed => exact absurd rfl hmore
    | interrupted => exact ih hmore
    | sent n =>
      have hrec := ih hmore
      unfold outgoing
      have hcounts : (SendResult.sent n).counts = decide (0 < n) := rfl
      rw [List.countP_cons, hcounts]
      split
      · next hpos =>
        have := of_decide_eq_true hpos
        omega
      · omega

theorem sendsBuffer (buf : Buffer) {results : List SendResult}
    (h : SendAnswers buf.len 0 results) : SendsBuffer buf results := by
  have heq : socketSend buf results = bufferReturn buf (outgoing results) := by
    have := sendLoop_eq results 0 (Nat.zero_le _) h
    rwa [Nat.zero_add] at this
  have hshort : (outgoing results).1 < buf.len → (socketSend buf results).ret =
      if (outgoing results).2 = .failed then some (-1) else none := by
    intro hlt
    rw [heq, bufferReturn_short hlt]
  have hall : buf.len ≤ (outgoing results).1 →
      (socketSend buf results).ret = some (buf.len : Int) := by
    intro hle
    rw [heq]
    exact if_pos hle
  refine ⟨?_, hall, ?_, ?_, ?_⟩
  · rw [heq]
    rfl
  · intro hlt hend
    rw [hshort hlt, if_pos hend]
  · intro hlt hend
    rw [hshort hlt, if_neg hend]
  · intro hcalls
    by_cases hle : buf.len ≤ (outgoing results).1
    · rw [hall hle]
      exact Option.some_ne_none _
    · rw [hshort (by omega)]
      by_cases hend : (outgoing results).2 = .failed
      · rw [if_pos hend]
        exact Option.some_ne_none _
      · have hfew := countP_le_outgoing results hend
        omega

end

/-- **The loops** transfer a stream in order, up to the size of the buffer, however it is cut. -/
theorem socketCalls (buf : Buffer) : SocketCalls buf where
  send _ h := sendsBuffer buf h
  recv _ h := receivesStream buf h
  chunks results results' h h' he := by
    rw [socketRecv_eq_streamReturn buf h, socketRecv_eq_streamReturn buf h', he]

/-- Where the stream ends after its last byte this is the number that the packets are received
with. -/
theorem socketRecv_of_shutdown (k : Kernel) (buf : Buffer) {results : List RecvResult}
    {stream : List UInt8} (h : RecvAnswers buf.len 0 results)
    (hstream : incoming results = (stream, .shutdown)) :
    (socketRecv false buf results).ret = some (Cmsg.socketRecv k stream buf.len : Int) := by
  rw [socketRecv_eq_streamReturn buf h, hstream, socketRecv_eq]
  unfold streamReturn
  dsimp only
  split
  · next hle => rw [Nat.min_eq_right hle]
  · next hlt =>
    rw [Nat.min_eq_left (by omega)]
    rfl

end Cmsg.Socket
