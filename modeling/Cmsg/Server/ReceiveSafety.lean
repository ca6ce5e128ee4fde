import Cmsg.Server.Receive

/-! # What a received packet makes the server look at

The length of a packet is checked after the TLV headers are processed, and not
at all when its message is empty. The condition under which the server looks at
nothing but the bytes it received, and at no method that there is not, is read
off the header and the bytes that arrive. -/
namespace Cmsg.Server
open Cmsg.Base Cmsg.Wire

variable {Msg : Type} {svc : Service Msg}

/-! ## The header that arrives -/

def Connection.msgType (c : Connection) : Option MsgType :=
  MsgType.ofWord (be32 (ofBytes c.stream c.stale) 0)

def Connection.headerLength (c : Connection) : Nat := be32 (ofBytes c.stream c.stale) 4

def Connection.messageLength (c : Connection) : Nat := be32 (ofBytes c.stream c.stale) 8

/-- The packet arrives as a whole, and its size is an `int`. -/
def Connection.ArrivesWhole (c : Connection) : Prop :=
  c.headerLength + c.messageLength ≤ c.stream.length ∧
    c.headerLength + c.messageLength < 2 ^ 31

/-- The server gives up before it has received anything to process. -/
def Connection.NotProcessed (c : Connection) : Prop :=
  let dynLen := wrap32 (c.messageLength + c.headerLength)
  c.stream.length < headerSize ∨ c.msgType = none ∨
    (recvBufferSize < dynLen ∧ c.calloc dynLen = false) ∨
    toInt32 (wrap32 (min c.stream.length (toSize dynLen))) ≤ 0

/-- Either there is nothing to process, or the packet has room for TLV headers
but is whole or has no room for the smallest of them, or it has no TLV headers,
its lengths do not wrap, and it is not a whole method request. -/
def Connection.SafeHeader (c : Connection) : Prop :=
  c.NotProcessed ∨
    (headerSize < c.headerLength ∧ (c.headerLength < headerSize + tlvSize 0 ∨ c.ArrivesWhole)) ∨
    (c.headerLength = headerSize ∧ c.headerLength + c.messageLength < word32 ∧
      (c.ArrivesWhole → c.msgType ≠ some .methodReq))

/-- The server enters the loop over the TLV headers, or processes a message, only
for a packet whose lengths cover its header, do not wrap, and are those of the
bytes received; it inspects those bytes only, and existing methods only. -/
structure ReceivesSafely (c : Connection) (r : Reception svc) : Prop where
  complete : r.tlvLooped = true ∨ r.dispatched = true →
    headerSize ≤ c.headerLength ∧ c.headerLength + c.messageLength < word32 ∧
      r.nbytes = c.headerLength + c.messageLength
  inspected : ∀ p ∈ r.inspected, p < r.nbytes
  indexed : ∀ i ∈ r.indexed, i < svc.nMethods

theorem nothing_safe (c : Connection) (s : State svc) (ret : RetCode) (n : Nat) :
    ReceivesSafely c (Reception.nothing s ret n) where
  complete h := by simp [Reception.nothing] at h
  inspected _ h := by cases h
  indexed _ h := by cases h

/-- A packet that is processed: its header, and the bytes received of it. -/
structure Connection.Gets (c : Connection) (header : Header) (nbytes : Nat) : Prop where
  msgType : c.msgType = some header.msgType
  headerLength : c.headerLength = header.headerLength
  messageLength : c.messageLength = header.messageLength
  stream : headerSize ≤ c.stream.length
  received : nbytes = recvCount c.stream header.dynLen
  pos : 0 < toInt32 (wrap32 nbytes)

theorem announced_eq {c : Connection} {header : Header}
    (hp : headerProcess (ofBytes c.stream c.stale) = some header) :
    wrap32 (c.messageLength + c.headerLength) = header.dynLen := by
  obtain ⟨_, hhl, hml, _⟩ := headerProcess_eq_some hp
  rw [Header.dynLen, hhl, hml]
  rfl

theorem notProcessed_iff {c : Connection} {header : Header} (hlong : ¬ c.stream.length < headerSize)
    (hp : headerProcess (ofBytes c.stream c.stale) = some header) :
    c.NotProcessed ↔ (recvBufferSize < header.dynLen ∧ c.calloc header.dynLen = false) ∨
      toInt32 (wrap32 (recvCount c.stream header.dynLen)) ≤ 0 := by
  obtain ⟨htype, _⟩ := headerProcess_eq_some hp
  have hsome : ¬ c.msgType = none := by
    rw [Connection.msgType, htype]
    simp
  unfold Connection.NotProcessed
  rw [announced_eq hp, or_iff_right hlong, or_iff_right hsome]
  rfl

theorem gets_of_header {c : Connection} {header : Header} (hlong : ¬ c.stream.length < headerSize)
    (hp : headerProcess (ofBytes c.stream c.stale) = some header)
    (hpos : 0 < toInt32 (wrap32 (recvCount c.stream header.dynLen))) :
    c.Gets header (recvCount c.stream header.dynLen) := by
  obtain ⟨htype, hhl, hml, _⟩ := headerProcess_eq_some hp
  exact ⟨htype, hhl.symm, hml.symm, Nat.le_of_not_lt hlong, rfl, hpos⟩

theorem serverReceive_cases (s : State svc) (c : Connection) :
    (c.NotProcessed ∧ ∃ ret n, serverReceive s c = .nothing s ret n) ∨
      (¬ c.NotProcessed ∧ ∃ header nbytes, c.Gets header nbytes ∧ serverReceive s c =
        serverRecvProcess s c.calloc header (ofBytes (c.stream.take nbytes) c.stale) nbytes) := by
  unfold serverReceive
  split
  · next hshort => exact .inl ⟨.inl hshort, _, _, rfl⟩
  · next hlong =>
    cases hp : headerProcess (ofBytes c.stream c.stale) with
    | none => exact .inl ⟨.inr (.inl (Option.map_eq_none_iff.mp hp)), _, _, rfl⟩
    | some header =>
      have hiff := notProcessed_iff hlong hp
      dsimp only
      split
      · next hcalloc => exact .inl ⟨hiff.mpr (.inl hcalloc), _, _, rfl⟩
      · next hcalloc =>
        split
        · next hpos =>
          refine .inr ⟨fun hnot => ?_, header, _, gets_of_header hlong hp hpos, rfl⟩
          exact (hiff.mp hnot).elim hcalloc (Int.not_le.mpr hpos)
        · next hpos => exact .inl ⟨hiff.mpr (.inr (Int.not_lt.mp hpos)), _, _, rfl⟩

/-! ## Processing a packet -/

theorem messageProcessor_looks (s : State svc) (calloc : Nat → Bool) (header : Header) (m : Memory)
    (bufferData : Nat) (request : TlvRequest) :
    let r := messageProcessor s calloc header m bufferData request
    (∀ p ∈ r.inspected, bufferData ≤ p ∧ p < bufferData + header.messageLength) ∧
      r.indexed = if header.msgType = .methodReq then [request.methodIndex] else [] := by
  intro r
  unfold r messageProcessor
  cases header.msgType with
  | methodReq =>
    dsimp only
    unfold methodReqMessageProcessor
    split
    · dsimp only
      split
      · exact ⟨fun p hp => mem_span.mp hp, by simp⟩
      · exact ⟨fun p hp => mem_span.mp hp, by simp⟩
    · exact ⟨by simp, by simp⟩
  | _ => exact ⟨by simp, by simp⟩

/-- What `cmsg_server_recv_process` does and looks at. -/
theorem serverRecvProcess_looks (s : State svc) (calloc : Nat → Bool) (header : Header) (m : Memory)
    (nbytes : Nat) :
    let tlv := tlvHeaderProcess svc.getMethodIndexByName m headerSize header.extraHeaderSize .init
    let r := serverRecvProcess s calloc header m nbytes
    r.nbytes = nbytes ∧ (r.tlvLooped = true ↔ tlvSize 0 ≤ header.extraHeaderSize) ∧
      (r.dispatched = true ↔ tlv.ret = .ok ∧
        (header.messageLength = 0 ∨ toInt32 (wrap32 nbytes) = toInt32 header.dynLen)) ∧
      (∀ p ∈ r.inspected, p ∈ tlv.inspected ∨ r.dispatched = true ∧
        p < headerSize + header.extraHeaderSize + header.messageLength) ∧
      (∀ i, i ∈ r.indexed ↔ r.dispatched = true ∧ header.msgType = .methodReq ∧
        i = tlv.request.methodIndex) := by
  intro tlv r
  unfold r serverRecvProcess
  dsimp only
  split
  · next hok =>
    split
    · next hsent =>
      obtain ⟨hinspected, hindexed⟩ := messageProcessor_looks s calloc header m
        (headerSize + header.extraHeaderSize) tlv.request
      refine ⟨rfl, by simp, by simp [tlv, hok, hsent], fun p hp => ?_, fun i => ?_⟩
      · rcases List.mem_append.mp hp with hp | hp
        · exact .inl hp
        · exact .inr ⟨rfl, (hinspected p hp).2⟩
      · show i ∈ (messageProcessor s calloc header m _ tlv.request).indexed ↔ _
        rw [hindexed]
        by_cases htype : header.msgType = .methodReq
        · simp [htype, tlv]
        · simp [htype]
    · next hsent =>
      exact ⟨rfl, by simp, by simp [hsent], fun p hp => .inl hp, by simp⟩
  · next hret =>
    refine ⟨rfl, by simp, ?_, fun p hp => .inl hp, by simp⟩
    simp only [Bool.false_eq_true, false_iff]
    exact fun h => hret h.1

section
variable {c : Connection} {header : Header} {nbytes : Nat}

/-- A packet that arrives as a whole is received as a whole. -/
theorem Connection.Gets.whole (hc : c.Gets header nbytes) (hall : c.ArrivesWhole) :
    header.headerLength + header.messageLength < word32 ∧
      nbytes = header.headerLength + header.messageLength := by
  obtain ⟨hstream, hmax⟩ := hall
  rw [hc.headerLength, hc.messageLength] at hstream hmax
  have hw : header.headerLength + header.messageLength < word32 := lt_word32 hmax
  refine ⟨hw, ?_⟩
  rw [hc.received, header.dynLen_eq hw]
  exact recvCount_eq hstream hmax

/-- The comparison that decides whether to process a message. -/
theorem Connection.Gets.arrives_iff (hc : c.Gets header nbytes)
    (hw : header.headerLength + header.messageLength < word32) :
    toInt32 (wrap32 nbytes) = toInt32 header.dynLen ↔ c.ArrivesWhole := by
  have hpos := hc.pos
  have hlt : header.dynLen < word32 := wrap32_lt _
  rw [toInt32_inj (wrap32_lt _) hlt]
  rw [hc.received] at hpos ⊢
  rw [recvCount_eq_iff hpos, header.dynLen_eq hw, Connection.ArrivesWhole, hc.headerLength,
    hc.messageLength]

/-! ## The three kinds of packets that are safe -/

/-- Too little room for a TLV header: an error, and nothing is looked at. -/
theorem safe_of_noRoom (s : State svc) (m : Memory) (hgt : headerSize < header.headerLength)
    (hroom : header.headerLength < headerSize + tlvSize 0) :
    ReceivesSafely c (serverRecvProcess s c.calloc header m nbytes) := by
  obtain ⟨_, hlooped, hdispatched, hinspected, hindexed⟩ :=
    serverRecvProcess_looks s c.calloc header m nbytes
  have hmin : tlvSize 0 = 8 := rfl
  have hextra := header.extraHeaderSize_eq (Nat.le_of_lt hgt)
  have hshort := tlvHeaderProcess_short svc.getMethodIndexByName m headerSize .init
    (show header.extraHeaderSize ≠ 0 by omega) (by omega)
  rw [hshort] at hdispatched hinspected
  have hidle : ¬ (serverRecvProcess s c.calloc header m nbytes).dispatched = true := by
    simp [hdispatched]
  refine ⟨fun h => ?_, fun p hp => ?_, fun i hi => absurd ((hindexed i).mp hi).1 hidle⟩
  · rcases h with h | h
    · have := hlooped.mp h
      omega
    · exact absurd h hidle
  · rcases hinspected p hp with h | ⟨h, _⟩
    · cases h
    · exact absurd h hidle

section
variable (hc : c.Gets header nbytes) (s : State svc) (m : Memory)
include hc

/-- Room for TLV headers, in a packet that is received as a whole. -/
theorem safe_of_whole (hgt : headerSize < header.headerLength) (hall : c.ArrivesWhole) :
    ReceivesSafely c (serverRecvProcess s c.calloc header m nbytes) := by
  obtain ⟨hn, _, hdispatched, hinspected, hindexed⟩ :=
    serverRecvProcess_looks s c.calloc header m nbytes
  have hlt : header.extraHeaderSize < word32 := sub32_lt _ _
  obtain ⟨htlv, hfound, _⟩ :=
    tlvHeaderProcess_spec svc.getMethodIndexByName m headerSize .init hlt
  have hextra := header.extraHeaderSize_eq (Nat.le_of_lt hgt)
  obtain ⟨hw, hsize⟩ := hc.whole hall
  refine ⟨fun _ => ?_, fun p hp => ?_, fun i hi => ?_⟩
  · rw [hn, hc.headerLength, hc.messageLength]
    exact ⟨Nat.le_of_lt hgt, hw, hsize⟩
  · rw [hn]
    rcases hinspected p hp with h | ⟨_, h⟩
    · have := htlv p h
      omega
    · omega
  · -- headers that were accepted have named a method
    obtain ⟨hd, _, rfl⟩ := (hindexed i).mp hi
    rcases hfound (hdispatched.mp hd).1 with ⟨h0, _⟩ | ⟨hdefined, _, _, _, _, _, _, _, hname⟩
    · omega
    · rw [hname] at hdefined ⊢
      exact svc.getMethodIndexByName_lt _ hdefined

/-- No TLV headers, and not a whole method request. -/
theorem safe_of_noTlv (heq : header.headerLength = headerSize)
    (hw : header.headerLength + header.messageLength < word32)
    (htype : c.ArrivesWhole → c.msgType ≠ some .methodReq) :
    ReceivesSafely c (serverRecvProcess s c.calloc header m nbytes) := by
  obtain ⟨hn, hlooped, hdispatched, hinspected, hindexed⟩ :=
    serverRecvProcess_looks s c.calloc header m nbytes
  have hextra : header.extraHeaderSize = 0 := header.extraHeaderSize_eq_zero.mpr heq
  rw [hextra, tlvHeaderProcess_zero] at hdispatched hinspected
  -- a message is processed only when the packet arrived as a whole
  have hall : (serverRecvProcess s c.calloc header m nbytes).dispatched = true →
      c.ArrivesWhole := by
    intro hd
    rcases (hdispatched.mp hd).2 with h0 | hsent
    · have hle := hc.stream
      have hmax : headerSize < 2 ^ 31 := by decide
      rw [Connection.ArrivesWhole, hc.headerLength, hc.messageLength]
      omega
    · exact (hc.arrives_iff hw).mp hsent
  refine ⟨fun h => ?_, fun p hp => ?_, fun i hi => ?_⟩
  · rcases h with h | h
    · have hmin : tlvSize 0 = 8 := rfl
      have := hlooped.mp h
      omega
    · rw [hn, hc.headerLength, hc.messageLength]
      exact ⟨Nat.le_of_eq heq.symm, hw, (hc.whole (hall h)).2⟩
  · rcases hinspected p hp with h | ⟨hd, h⟩
    · cases h
    · rw [hn, (hc.whole (hall hd)).2]
      omega
  · obtain ⟨hd, hreq, _⟩ := (hindexed i).mp hi
    exact absurd (by rw [hc.msgType, hreq]) (htype (hall hd))

/-! ## No other packet is -/

/-- Lengths that wrap announce a packet that is shorter than its header: it is
received, and its message is processed. -/
theorem dispatched_of_wrap (heq : header.headerLength = headerSize)
    (hw : ¬ header.headerLength + header.messageLength < word32) :
    (serverRecvProcess s c.calloc header m nbytes).dispatched = true := by
  obtain ⟨_, _, hdispatched, _, _⟩ := serverRecvProcess_looks s c.calloc header m nbytes
  have hextra : header.extraHeaderSize = 0 := header.extraHeaderSize_eq_zero.mpr heq
  have hhl := header.headerLength_lt
  have hml := header.messageLength_lt
  have hwrap : header.dynLen = header.messageLength + header.headerLength - word32 := by
    rw [Header.dynLen, wrap32, Nat.mod_eq_sub_mod (by omega), Nat.mod_eq_of_lt (by omega)]
  have hmax : headerSize < 2 ^ 31 := by decide
  have hle := hc.stream
  refine hdispatched.mpr ⟨by rw [hextra, tlvHeaderProcess_zero], .inr ?_⟩
  rw [hc.received, recvCount_eq (by omega) (by omega), wrap32_of_lt (show header.dynLen < word32 from wrap32_lt _)]

theorem safeHeader_of_safe
    (hsafe : ReceivesSafely c (serverRecvProcess s c.calloc header m nbytes)) : c.SafeHeader := by
  obtain ⟨hn, hlooped, hdispatched, _, hindexed⟩ :=
    serverRecvProcess_looks s c.calloc header m nbytes
  have hmin : tlvSize 0 = 8 := rfl
  refine .inr ?_
  rw [hc.headerLength, hc.messageLength]
  rcases Nat.lt_trichotomy header.headerLength headerSize with hlt | heq | hgt
  · -- the size of the extra headers wraps, and the loop is entered
    have hextra : header.extraHeaderSize = word32 + header.headerLength - headerSize :=
      sub32_of_lt hlt (by decide)
    have hroom : headerSize + 8 < word32 := by decide
    have hcomplete := hsafe.complete (.inl (hlooped.mpr (by omega)))
    rw [hc.headerLength] at hcomplete
    omega
  · have hextra : header.extraHeaderSize = 0 := header.extraHeaderSize_eq_zero.mpr heq
    have hw : header.headerLength + header.messageLength < word32 := by
      by_contra hw
      have hcomplete := hsafe.complete (.inr (dispatched_of_wrap hc s m heq hw))
      rw [hc.headerLength, hc.messageLength] at hcomplete
      exact hw hcomplete.2.1
    refine .inr ⟨heq, hw, fun hall htype => ?_⟩
    -- a whole method request is processed with the undefined index
    have hreq : header.msgType = .methodReq := Option.some.inj (hc.msgType.symm.trans htype)
    rw [hextra, tlvHeaderProcess_zero] at hdispatched hindexed
    have hundefined := (hindexed undefinedMethod).mpr
      ⟨hdispatched.mpr ⟨rfl, .inr ((hc.arrives_iff hw).mpr hall)⟩, hreq, rfl⟩
    exact absurd (hsafe.indexed _ hundefined) (Nat.not_lt.mpr (Nat.le_of_lt svc.methods_lt))
  · refine .inl ⟨hgt, ?_⟩
    by_cases hroom : header.headerLength < headerSize + tlvSize 0
    · exact .inl hroom
    · have hextra := header.extraHeaderSize_eq (Nat.le_of_lt hgt)
      have hcomplete := hsafe.complete (.inl (hlooped.mpr (by omega)))
      have hle := recvCount_le_length c.stream header.dynLen
      rw [← hc.received] at hle
      rw [hn, hc.headerLength, hc.messageLength] at hcomplete
      -- the number of bytes received does not wrap, and is positive as an int
      have hshort := (toInt32_pos (wrap32_lt _)).mp hc.pos
      rw [wrap32_of_lt (by omega)] at hshort
      refine .inr ?_
      rw [Connection.ArrivesWhole, hc.headerLength, hc.messageLength]
      omega

end
end

/-- **Receiving is safe** exactly under the condition on the header and the
bytes that arrive. -/
theorem serverReceive_safe_iff (s : State svc) (c : Connection) :
    ReceivesSafely c (serverReceive s c) ↔ c.SafeHeader := by
  rcases serverReceive_cases s c with ⟨hnot, ret, n, he⟩ | ⟨hp, header, nbytes, hc, he⟩
  · rw [he]
    exact ⟨fun _ => .inl hnot, fun _ => nothing_safe c s ret n⟩
  · rw [he]
    refine ⟨safeHeader_of_safe hc s _, fun hsafe => ?_⟩
    rcases hsafe.resolve_left hp with ⟨hgt, hroom | hall⟩ | ⟨heq, hw, htype⟩
    · rw [hc.headerLength] at hgt hroom
      exact safe_of_noRoom s _ hgt hroom
    · rw [hc.headerLength] at hgt
      exact safe_of_whole hc s _ hgt hall
    · rw [hc.headerLength] at heq hw
      rw [hc.messageLength] at hw
      exact safe_of_noTlv hc s _ heq hw htype

/-- A method request without TLV headers: the method table is read at the
undefined index. -/
theorem serverReceive_indexes_undefined :
    let c : Connection :=
      ⟨toBe32 0 ++ toBe32 16 ++ toBe32 0 ++ toBe32 0, fun _ => 0, fun _ => true⟩
    (serverReceive (serverCreate sampleService true) c).indexed = [undefinedMethod] ∧
      ¬ ReceivesSafely c (serverReceive (serverCreate sampleService true) c) := by
  intro c
  have hindexed : (serverReceive (serverCreate sampleService true) c).indexed =
      [undefinedMethod] := by decide
  refine ⟨hindexed, fun hsafe => ?_⟩
  have hlt := hsafe.indexed undefinedMethod (by rw [hindexed]; exact List.mem_singleton_self _)
  exact absurd hlt (by decide)

end Cmsg.Server
