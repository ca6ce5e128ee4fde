import Cmsg.Server.Encrypted

/-! # The lengths of secure frames

Which bytes `cmsg_crypto_decrypt` touches when a server or a client received a
frame of the length that its header announces. The three words of the header are
read before anything is compared with the length, so a frame is safe exactly when
it is long enough for them and its length is an `int`. -/
namespace Cmsg.Crypto
open Cmsg.Base Cmsg.Wire Cmsg.Client Cmsg.Server

/-! ## What a call touches -/

/-- What the code that is called touches: how many bytes the two calls of the cipher
write, which are no more than they are given, and how many bytes of a nonce the
callback reads. -/
structure Touches where
  evpWrites : Int → List UInt8 → Nat
  evpWrites_le : ∀ n bytes, evpWrites n bytes ≤ n.toNat
  nonceReads : Nat

/-- The positions of `inbuf` that a call of `cmsg_crypto_decrypt` reads, the values that
`bytes_remaining` takes, and the positions of `outbuf` that are written. -/
structure Access where
  reads : List Nat
  remaining : List Int
  writes : List Nat

/-- The three calls of `cmsg_crypto_get32`, each of which takes four bytes off
`bytes_remaining` -/
def headerAccess (length : Int) : Access :=
  ⟨span 0 4 ++ (span 4 4 ++ span 8 4), [length, length - 4, length - 8, length - 12], []⟩

/-- `cmsg_crypto_decrypt`, with what it touches in place of what it returns -/
def decryptAccess (t : Touches) (sa : Option CryptoSa)
    (saDeriveFunc : Option (CryptoSa → Memory → Bool)) (inbuf : Memory) (length : Int) : Access :=
  match sa, saDeriveFunc with
  | some sa, some _ =>
    let header := headerAccess length
    let type := be32 inbuf 8
    let bytesRemaining := length - secureHeaderSize
    if sa.server = true ∧ sa.ctxOutInit = false then
      if type = cryptoTypeNonce then
        { header with reads := header.reads ++ span secureHeaderSize t.nonceReads }
      else header
    else if type = cryptoTypePayload then
      { header with
        reads := header.reads ++ span secureHeaderSize bytesRemaining.toNat
        writes := span 0
          (t.evpWrites bytesRemaining (slice inbuf secureHeaderSize bytesRemaining.toNat)) }
    else header
  | _, _ => ⟨[], [], []⟩

/-- The call that a receive function makes: the frame, its announced length, and the
size of the output buffer that was chosen for it. -/
structure DecryptCall where
  inbuf : Memory
  announced : Nat
  capacity : Nat
  announced_lt : announced < word32
  announced_le : announced ≤ capacity

/-- The `int` that is passed for the announced length -/
def DecryptCall.length (call : DecryptCall) : Int := toInt32 call.announced

/-- Reads within the announced length, counts that are not negative, and writes within
the output buffer. -/
structure FrameSafe (call : DecryptCall) (a : Access) : Prop where
  reads : ∀ p ∈ a.reads, p < call.announced
  remaining : ∀ n ∈ a.remaining, 0 ≤ n
  writes : ∀ p ∈ a.writes, p < call.capacity

/-- The server has no key yet and the frame brings the nonce for it. -/
def HandsNonce (sa : CryptoSa) (inbuf : Memory) : Prop :=
  sa.server = true ∧ sa.ctxOutInit = false ∧ be32 inbuf 8 = cryptoTypeNonce

/-- A length that holds the header and is an `int`, and the nonce that is handed on. -/
def LengthFits (t : Touches) (sa : CryptoSa) (inbuf : Memory) (announced : Nat) : Prop :=
  secureHeaderSize ≤ announced ∧ announced < 2 ^ 31 ∧
    (HandsNonce sa inbuf → secureHeaderSize + t.nonceReads ≤ announced)

section
variable {t : Touches} {sa : CryptoSa} {saDeriveFunc : CryptoSa → Memory → Bool}
  {call : DecryptCall}

/-- The header is touched by every call that has an association and a callback. -/
theorem headerAccess_sub (inbuf : Memory) (length : Int) :
    let a := decryptAccess t (some sa) (some saDeriveFunc) inbuf length
    (∀ p ∈ (headerAccess length).reads, p ∈ a.reads) ∧
      a.remaining = (headerAccess length).remaining := by
  intro a
  unfold a decryptAccess
  dsimp only
  split
  · split
    · exact ⟨fun p hp => List.mem_append_left _ hp, rfl⟩
    · exact ⟨fun p hp => hp, rfl⟩
  · split
    · exact ⟨fun p hp => List.mem_append_left _ hp, rfl⟩
    · exact ⟨fun p hp => hp, rfl⟩

theorem mem_headerAccess {length : Int} {p : Nat} :
    p ∈ (headerAccess length).reads ↔ p < secureHeaderSize := by
  have hsize : secureHeaderSize = 12 := rfl
  simp only [headerAccess, List.mem_append, mem_span]
  omega

theorem headerAccess_remaining {length : Int} :
    (∀ n ∈ (headerAccess length).remaining, 0 ≤ n) ↔ (secureHeaderSize : Int) ≤ length := by
  have hsize : secureHeaderSize = 12 := rfl
  simp only [headerAccess, List.mem_cons, List.not_mem_nil, or_false, forall_eq_or_imp, forall_eq]
  omega

/-- A call is safe exactly when the length fits. -/
theorem frameSafe_iff :
    FrameSafe call (decryptAccess t (some sa) (some saDeriveFunc) call.inbuf call.length) ↔
      LengthFits t sa call.inbuf call.announced := by
  obtain ⟨hreads, hremaining⟩ := @headerAccess_sub t sa saDeriveFunc call.inbuf call.length
  have hsize : secureHeaderSize = 12 := rfl
  constructor
  · intro hsafe
    have hcounts := hsafe.remaining
    rw [hremaining, headerAccess_remaining] at hcounts
    have hint : call.announced < 2 ^ 31 := by
      by_contra hge
      have hneg := toInt32_neg (Nat.le_of_not_lt hge) call.announced_lt
      rw [DecryptCall.length] at hcounts
      omega
    rw [DecryptCall.length, toInt32_of_lt hint] at hcounts
    refine ⟨Int.ofNat_le.mp hcounts, hint, fun ⟨hserver, hinit, htype⟩ => ?_⟩
    by_contra hlt
    have hlast : secureHeaderSize + (t.nonceReads - 1) < call.announced := by
      refine hsafe.reads _ ?_
      unfold decryptAccess
      dsimp only
      rw [if_pos ⟨hserver, hinit⟩, if_pos htype]
      refine List.mem_append_right _ (mem_span.mpr ⟨Nat.le_add_right _ _, ?_⟩)
      omega
    omega
  · intro ⟨hheader, hint, hnonce⟩
    have hlength : call.length = call.announced := toInt32_of_lt hint
    have hread : ∀ p ∈ (headerAccess call.length).reads, p < call.announced := by
      intro p hp
      exact Nat.lt_of_lt_of_le (mem_headerAccess.mp hp) hheader
    refine ⟨fun p hp => ?_, ?_, fun p hp => ?_⟩
    · unfold decryptAccess at hp
      dsimp only at hp
      split at hp
      · next hwaits =>
        split at hp
        · next htype =>
          have hfits := hnonce ⟨hwaits.1, hwaits.2, htype⟩
          rcases List.mem_append.mp hp with hp | hp
          · exact hread p hp
          · have := mem_span.mp hp
            omega
        · exact hread p hp
      · split at hp
        · rcases List.mem_append.mp hp with hp | hp
          · exact hread p hp
          · have := mem_span.mp hp
            omega
        · exact hread p hp
    · rw [hremaining, headerAccess_remaining, hlength]
      exact Int.ofNat_le.mpr hheader
    · unfold decryptAccess at hp
      dsimp only at hp
      split at hp
      · split at hp
        · cases hp
        · cases hp
      · split at hp
        · have hmem := mem_span.mp hp
          have hle := t.evpWrites_le (call.length - secureHeaderSize)
            (slice call.inbuf secureHeaderSize (call.length - secureHeaderSize).toNat)
          have hcapacity := call.announced_le
          omega
        · cases hp

/-- Without an association or a callback nothing is touched. -/
theorem frameSafe_of_none {sa : Option CryptoSa}
    {saDeriveFunc : Option (CryptoSa → Memory → Bool)} (h : sa = none ∨ saDeriveFunc = none) :
    FrameSafe call (decryptAccess t sa saDeriveFunc call.inbuf call.length) := by
  have hnothing : decryptAccess t sa saDeriveFunc call.inbuf call.length = ⟨[], [], []⟩ := by
    rcases h with rfl | rfl
    · rfl
    · cases sa with
      | none => rfl
      | some sa => rfl
  rw [hnothing]
  exact ⟨by simp, by simp, by simp⟩

end

/-! ## The calls of the receive functions -/

theorem cryptoParseHeader_lt (m : Memory) : cryptoParseHeader m < word32 := by
  unfold cryptoParseHeader
  split
  · exact Nat.lt_succ_self invalidHeader
  · exact be32_lt m 4

theorem le_toSize (n : Nat) : n ≤ toSize n := by
  unfold toSize
  split
  · exact Nat.le_refl n
  · exact Nat.le_add_right _ _

/-- The bytes that were received and what lay in the buffer before -/
def frameBuffer (stream : List UInt8) (stale : Memory) (n : Nat) : Memory :=
  ofBytes (stream.take (recvCount stream n)) stale

/-- A buffer of `size` bytes where those of the static one are too few. -/
theorem le_chosen {n size static : Nat} (h : n ≤ size) :
    n ≤ if static < size then size else static := by
  split
  · exact h
  · omega

/-- The call in `_cmsg_server_receive_encrypted` -/
def serverDecryptCall (c : EncryptedConnection) : Option DecryptCall :=
  if c.sa = none then none
  else if c.stream.length < 8 then none
  else
    let msgLength := cryptoParseHeader (ofBytes c.stream c.stale)
    if msgLength = invalidHeader then none
    else if bufStaticSize ≤ msgLength ∧ c.calloc msgLength = false then none
    else if wrap32 (recvCount c.stream msgLength) = msgLength then
      if recvBufferSize < msgLength ∧ c.calloc msgLength = false then none
      else some {
        inbuf := frameBuffer c.stream c.stale msgLength
        announced := msgLength
        capacity := if recvBufferSize < msgLength then msgLength else recvBufferSize
        announced_lt := cryptoParseHeader_lt _
        announced_le := le_chosen (Nat.le_refl _) }
    else none

/-- The call in `_cmsg_client_receive_encrypted` -/
def clientDecryptCall (c : Client.Connection) : Option DecryptCall :=
  if c.peekCode ≠ .success then none
  else
    let msgLength := cryptoParseHeader (ofBytes c.stream c.stale)
    if msgLength = invalidHeader then none
    else if bufStaticSize ≤ msgLength ∧ c.bufferCalloc = false then none
    else if c.recvErrno = none ∧ wrap32 (recvCount c.stream msgLength) = msgLength then
      if bufStaticSize < toSize msgLength ∧ callocs c.decodedCalloc (toSize msgLength) = false then
        none
      else some {
        inbuf := frameBuffer c.stream c.stale msgLength
        announced := msgLength
        capacity := if bufStaticSize < toSize msgLength then toSize msgLength else bufStaticSize
        announced_lt := cryptoParseHeader_lt _
        announced_le := le_chosen (le_toSize _) }
    else none

section
variable {Msg : Type}

/-- The server decrypts by this call and by no other. -/
theorem serverReceiveEncrypted_eq {svc : Service Msg} (s : State svc) (c : EncryptedConnection) :
    serverReceiveEncrypted s c =
      match serverDecryptCall c with
      | none => .nothing s .err 0
      | some call => serverReceiveDecoded s c
          (Client.cryptoDecrypt c.sa c.saDeriveFunc call.inbuf call.length) := by
  unfold serverReceiveEncrypted serverDecryptCall
  dsimp only
  by_cases hsa : c.sa = none
  · rw [if_pos hsa, if_pos hsa]
  rw [if_neg hsa, if_neg hsa]
  by_cases hshort : c.stream.length < 8
  · rw [if_pos hshort, if_pos hshort]
  rw [if_neg hshort, if_neg hshort]
  by_cases hinvalid : cryptoParseHeader (ofBytes c.stream c.stale) = invalidHeader
  · rw [if_pos hinvalid, if_pos hinvalid]
  rw [if_neg hinvalid, if_neg hinvalid]
  split
  · rfl
  · split
    · split
      · rfl
      · rfl
    · rfl

/-- The client decrypts by this call: nothing depends on its association where it makes
none. -/
theorem clientReceiveEncrypted_eq (client : CmsgClient Msg) (c : Client.Connection) :
    match clientDecryptCall c with
    | none => ∀ sa f, clientReceiveEncrypted
        { client with cryptoSa := sa, cryptoSaDeriveFunc := f } c = clientReceiveEncrypted client c
    | some call => clientReceiveEncrypted client c =
        receiveDecoded client c (toSize call.announced)
          (Client.cryptoDecrypt (some client.cryptoSa) (some client.cryptoSaDeriveFunc) call.inbuf
            call.length) := by
  unfold clientReceiveEncrypted clientDecryptCall
  dsimp only
  by_cases hpeek : c.peekCode ≠ .success
  · simp only [if_pos hpeek, implies_true]
  simp only [if_neg hpeek]
  by_cases hinvalid : cryptoParseHeader (ofBytes c.stream c.stale) = invalidHeader
  · simp only [if_pos hinvalid, implies_true]
  simp only [if_neg hinvalid]
  by_cases hbuffer : bufStaticSize ≤ cryptoParseHeader (ofBytes c.stream c.stale) ∧
      c.bufferCalloc = false
  · simp only [if_pos hbuffer, implies_true]
  simp only [if_neg hbuffer]
  by_cases herrno : c.recvErrno = none
  · simp only [herrno, true_and]
    by_cases harrives : wrap32 (recvCount c.stream (cryptoParseHeader
        (ofBytes c.stream c.stale))) = cryptoParseHeader (ofBytes c.stream c.stale)
    · simp only [if_pos harrives]
      unfold receiveEncrypted
      split
      · next hnone =>
        by_cases hdecoded : bufStaticSize < toSize (cryptoParseHeader (ofBytes c.stream c.stale)) ∧
            callocs c.decodedCalloc (toSize (cryptoParseHeader (ofBytes c.stream c.stale))) = false
        · simp only [if_pos hdecoded, implies_true]
        · rw [if_neg hdecoded] at hnone
          cases hnone
      · next call hsome =>
        split at hsome
        · cases hsome
        · next hdecoded =>
          obtain rfl := Option.some.inj hsome
          rw [if_neg hdecoded]
          rfl
    · simp only [if_neg harrives, implies_true]
  · simp only [herrno, false_and, if_false]
    cases hcode : c.recvErrno with
    | none => exact absurd hcode herrno
    | some errno =>
      cases errno with
      | connreset => exact fun _ _ => rfl
      | other => exact fun _ _ => rfl

/-! ## Safe frames -/

/-- The frame announces `n` bytes, which all arrive, and the server finds the association
and the memory for it. -/
structure ServerArrival (c : EncryptedConnection) (n : Nat) : Prop where
  sa : c.sa ≠ none
  peeked : 8 ≤ c.stream.length
  announced : cryptoParseHeader (ofBytes c.stream c.stale) = n
  accepted : n ≠ invalidHeader
  calloc : bufStaticSize ≤ n → c.calloc n = true
  arrives : wrap32 (recvCount c.stream n) = n

/-- The same for the client. Its length for the second buffer is an `int` that becomes a
size, and no object has 2^63 bytes. -/
structure ClientArrival (c : Client.Connection) (n : Nat) : Prop where
  peeked : c.peekCode = .success
  announced : cryptoParseHeader (ofBytes c.stream c.stale) = n
  accepted : n ≠ invalidHeader
  bufferCalloc : bufStaticSize ≤ n → c.bufferCalloc = true
  recvErrno : c.recvErrno = none
  arrives : wrap32 (recvCount c.stream n) = n
  decodedCalloc : bufStaticSize < n → c.decodedCalloc = true
  length_lt : n < 2 ^ 31

/-- Every call that the server makes is safe. -/
def ServerFrameSafe (t : Touches) (c : EncryptedConnection) : Prop :=
  ∀ call, serverDecryptCall c = some call →
    FrameSafe call (decryptAccess t c.sa c.saDeriveFunc call.inbuf call.length)

/-- Every call that the client makes is safe. -/
def ClientFrameSafe (t : Touches) (client : CmsgClient Msg) (c : Client.Connection) : Prop :=
  ∀ call, clientDecryptCall c = some call → FrameSafe call (decryptAccess t
    (some client.cryptoSa) (some client.cryptoSaDeriveFunc) call.inbuf call.length)

/-- A buffer is there unless its allocation was needed and failed. -/
theorem not_and_eq_false {p : Prop} {b : Bool} : ¬ (p ∧ b = false) ↔ (p → b = true) := by
  simp

theorem serverDecryptCall_eq_some {c : EncryptedConnection} {call : DecryptCall}
    (h : serverDecryptCall c = some call) :
    ServerArrival c call.announced ∧
      call.inbuf = frameBuffer c.stream c.stale call.announced := by
  unfold serverDecryptCall at h
  split at h
  · cases h
  · next hsa =>
    split at h
    · cases h
    · next hshort =>
      dsimp only at h
      split at h
      · cases h
      · next haccepted =>
        split at h
        · cases h
        · next hcalloc =>
          split at h
          · next harrives =>
            split at h
            · cases h
            · obtain rfl := Option.some.inj h
              exact ⟨⟨hsa, Nat.le_of_not_lt hshort, rfl, haccepted, not_and_eq_false.mp hcalloc,
                harrives⟩, rfl⟩
          · cases h

theorem ServerArrival.call {c : EncryptedConnection} {n : Nat} (h : ServerArrival c n) :
    ∃ call, serverDecryptCall c = some call ∧ call.announced = n ∧
      call.inbuf = frameBuffer c.stream c.stale n := by
  obtain ⟨hsa, hpeeked, rfl, haccepted, hcalloc, harrives⟩ := h
  have hfirst : ¬ (bufStaticSize ≤ cryptoParseHeader (ofBytes c.stream c.stale) ∧
      c.calloc (cryptoParseHeader (ofBytes c.stream c.stale)) = false) :=
    not_and_eq_false.mpr hcalloc
  have hsecond : ¬ (recvBufferSize < cryptoParseHeader (ofBytes c.stream c.stale) ∧
      c.calloc (cryptoParseHeader (ofBytes c.stream c.stale)) = false) :=
    not_and_eq_false.mpr fun hlong => hcalloc (Nat.le_of_lt hlong)
  unfold serverDecryptCall
  dsimp only
  rw [if_neg hsa, if_neg (Nat.not_lt.mpr hpeeked), if_neg haccepted, if_neg hfirst,
    if_pos harrives, if_neg hsecond]
  exact ⟨_, rfl, rfl, rfl⟩

/-- The second buffer of the client is allocated where the size is that of an object. -/
theorem callocs_toSize {available : Bool} {n : Nat} (hn : n < word32) :
    (bufStaticSize < toSize n → callocs available (toSize n) = true) ↔
      n < 2 ^ 31 ∧ (bufStaticSize < n → available = true) := by
  have hword : word32 = 2 ^ 32 := rfl
  have hstatic : bufStaticSize = 512 := rfl
  have hcallocs : callocs available (toSize n) = true ↔ available = true ∧ toSize n < 2 ^ 63 := by
    rw [callocs, Bool.and_eq_true, decide_eq_true_iff]
  rw [hcallocs]
  by_cases hint : n < 2 ^ 31
  · have hobject : n < 2 ^ 63 := Nat.lt_trans hint (by omega)
    rw [toSize_of_lt hint]
    exact ⟨fun h => ⟨hint, fun hlong => (h hlong).1⟩, fun h hlong => ⟨h.2 hlong, hobject⟩⟩
  · have hsize : toSize n = n + (2 ^ 64 - word32) := if_neg hint
    have hlong : bufStaticSize < toSize n := by omega
    have hobject : ¬ toSize n < 2 ^ 63 := by omega
    exact ⟨fun h => absurd (h hlong).2 hobject, fun h => absurd h.1 hint⟩

theorem clientDecryptCall_eq_some {c : Client.Connection} {call : DecryptCall}
    (h : clientDecryptCall c = some call) :
    ClientArrival c call.announced ∧
      call.inbuf = frameBuffer c.stream c.stale call.announced := by
  unfold clientDecryptCall at h
  split at h
  · cases h
  · next hpeek =>
    dsimp only at h
    split at h
    · cases h
    · next haccepted =>
      split at h
      · cases h
      · next hbuffer =>
        split at h
        · next hreceived =>
          split at h
          · cases h
          · next hdecoded =>
            obtain rfl := Option.some.inj h
            obtain ⟨hint, hcalloc⟩ :=
              (callocs_toSize (cryptoParseHeader_lt _)).mp (not_and_eq_false.mp hdecoded)
            exact ⟨⟨not_not.mp hpeek, rfl, haccepted, not_and_eq_false.mp hbuffer, hreceived.1,
              hreceived.2, hcalloc, hint⟩, rfl⟩
        · cases h

theorem ClientArrival.call {c : Client.Connection} {n : Nat} (h : ClientArrival c n) :
    ∃ call, clientDecryptCall c = some call ∧ call.announced = n ∧
      call.inbuf = frameBuffer c.stream c.stale n := by
  obtain ⟨hpeeked, rfl, haccepted, hbuffer, herrno, harrives, hdecoded, hint⟩ := h
  have hfirst : ¬ (bufStaticSize ≤ cryptoParseHeader (ofBytes c.stream c.stale) ∧
      c.bufferCalloc = false) :=
    not_and_eq_false.mpr hbuffer
  have hcalloc := (@callocs_toSize c.decodedCalloc _ (cryptoParseHeader_lt _)).mpr ⟨hint, hdecoded⟩
  have hsecond : ¬ (bufStaticSize < toSize (cryptoParseHeader (ofBytes c.stream c.stale)) ∧
      callocs c.decodedCalloc (toSize (cryptoParseHeader (ofBytes c.stream c.stale))) = false) :=
    not_and_eq_false.mpr hcalloc
  unfold clientDecryptCall
  dsimp only
  rw [if_neg (not_not.mpr hpeeked), if_neg haccepted, if_neg hfirst, if_pos ⟨herrno, harrives⟩,
    if_neg hsecond]
  exact ⟨_, rfl, rfl, rfl⟩

theorem serverFrameSafe_iff {t : Touches} {c : EncryptedConnection} :
    ServerFrameSafe t c ↔ ∀ n, ServerArrival c n → ∀ sa saDeriveFunc, c.sa = some sa →
      c.saDeriveFunc = some saDeriveFunc → LengthFits t sa (frameBuffer c.stream c.stale n) n := by
  constructor
  · intro hsafe n harrival sa saDeriveFunc hsa hderive
    obtain ⟨call, hcall, rfl, hinbuf⟩ := harrival.call
    have hframe := hsafe call hcall
    rw [hsa, hderive] at hframe
    rw [← hinbuf]
    exact frameSafe_iff.mp hframe
  · intro hfits call hcall
    obtain ⟨harrival, hinbuf⟩ := serverDecryptCall_eq_some hcall
    cases hsa : c.sa with
    | none => exact frameSafe_of_none (.inl rfl)
    | some sa =>
      cases hderive : c.saDeriveFunc with
      | none => exact frameSafe_of_none (.inr rfl)
      | some saDeriveFunc =>
        have hlength := hfits call.announced harrival sa saDeriveFunc hsa hderive
        rw [← hinbuf] at hlength
        exact frameSafe_iff.mpr hlength

theorem clientFrameSafe_iff {t : Touches} {client : CmsgClient Msg} {c : Client.Connection} :
    ClientFrameSafe t client c ↔ ∀ n, ClientArrival c n →
      LengthFits t client.cryptoSa (frameBuffer c.stream c.stale n) n := by
  constructor
  · intro hsafe n harrival
    obtain ⟨call, hcall, rfl, hinbuf⟩ := harrival.call
    rw [← hinbuf]
    exact frameSafe_iff.mp (hsafe call hcall)
  · intro hfits call hcall
    obtain ⟨harrival, hinbuf⟩ := clientDecryptCall_eq_some hcall
    have hlength := hfits call.announced harrival
    rw [← hinbuf] at hlength
    exact frameSafe_iff.mpr hlength

/-- **Secure frame lengths**: whatever the cipher and the callback touch, a frame is safe,
on the server and on the client, exactly when its announced length fits or it is never
decrypted. -/
theorem frame_lengths_iff (t : Touches) :
    (∀ c : EncryptedConnection, ServerFrameSafe t c ↔
      ∀ n, ServerArrival c n → ∀ sa saDeriveFunc, c.sa = some sa →
        c.saDeriveFunc = some saDeriveFunc →
        LengthFits t sa (frameBuffer c.stream c.stale n) n) ∧
      ∀ (client : CmsgClient Msg) (c : Client.Connection), ClientFrameSafe t client c ↔
        ∀ n, ClientArrival c n →
          LengthFits t client.cryptoSa (frameBuffer c.stream c.stale n) n :=
  ⟨fun _ => serverFrameSafe_iff, fun _ _ => clientFrameSafe_iff⟩

end

/-! ## A frame without a type -/

-- a cipher that fails, and writes nothing
def untouched : Touches := ⟨fun _ _ => 0, fun _ _ => Nat.zero_le _, 0⟩

theorem length_lt_of_none {plaintext : List UInt8} (h : none = some plaintext) :
    plaintext.length < 2 ^ 31 := by
  cases h

def keyedSa : CryptoSa := ⟨true, true, fun _ _ => none, length_lt_of_none⟩

/-- The header announces itself and three bytes. -/
def shortFrame : List UInt8 := [0xa5, 0xa5, 0x00, 0x01, 0, 0, 0, 11, 0, 0, 0]

def shortConnection : EncryptedConnection :=
  ⟨shortFrame, some keyedSa, some fun _ _ => true, fun _ => true, fun _ => 0,
    ⟨.methodReq, 0, 0, .unset, Nat.zero_lt_succ _, Nat.zero_lt_succ _⟩⟩

/-- The type is read past the end, and one byte less than none remains. -/
theorem short_frame_unsafe : ServerArrival shortConnection 11 ∧
    ¬ ServerFrameSafe untouched shortConnection := by
  have harrival : ServerArrival shortConnection 11 := by
    refine ⟨?_, ?_, rfl, ?_, ?_, rfl⟩
    all_goals decide
  refine ⟨harrival, fun hsafe => ?_⟩
  have hfits := serverFrameSafe_iff.mp hsafe 11 harrival keyedSa _ rfl rfl
  exact Nat.not_succ_le_self 11 hfits.1

end Cmsg.Crypto
