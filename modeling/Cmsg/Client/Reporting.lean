import Cmsg.Client.Encrypted

/-! # When the client reports an incomplete reply

The status starts out as success and a failed decryption, a plaintext shorter
than a header and a plaintext of another length than its header announces leave
it at that. The frames on which the client reports success for a complete reply
only are described by what is delivered and what it decrypts to. -/
namespace Cmsg.Client
open Cmsg.Base Cmsg.Wire

variable {Msg : Type}

/-! ## The frame that is delivered -/

def Connection.msgLength (c : Connection) : Nat := be32 (ofBytes c.stream c.stale) 4

/-- The secure header is valid and the whole frame is received. -/
structure Connection.FrameArrives (c : Connection) : Prop where
  peek : c.peekCode = .success
  magic : be32 (ofBytes c.stream c.stale) 0 = cryptoMagic
  nonempty : c.msgLength ≠ 0
  recv : c.recvErrno = none
  length_le : c.msgLength ≤ c.stream.length
  length_lt : c.msgLength < 2 ^ 31

/-- The buffers that a frame needs can be allocated. -/
def Connection.Allocated (c : Connection) : Prop :=
  (c.msgLength < bufStaticSize ∨ c.bufferCalloc = true) ∧
    (c.msgLength ≤ bufStaticSize ∨ c.decodedCalloc = true)

/-- What the frame decrypts to. -/
def plaintext (client : CmsgClient Msg) (c : Connection) : Option (List UInt8) :=
  cryptoDecrypt (some client.cryptoSa) (some client.cryptoSaDeriveFunc)
    (ofBytes (c.stream.take c.msgLength) c.stale) c.msgLength

/-- A header with everything that it announces, and nothing more: a reply. -/
structure WholeReply (header : Header) (length : Nat) : Prop where
  reply : header.msgType = .methodReply ∨ header.msgType = .echoReply
  headerLength : headerSize ≤ header.headerLength
  length_eq : header.headerLength + header.messageLength = length

/-- A frame is received and decrypts to exactly one complete reply. -/
def CompleteReply (client : CmsgClient Msg) (c : Connection) (status : StatusCode) : Prop :=
  c.FrameArrives ∧ ∃ decoded header, plaintext client c = some decoded ∧
    headerProcess (ofBytes decoded c.staleDecoded) = some header ∧
    WholeReply header decoded.length ∧ header.statusCode = status

/-- Anything but a complete reply is reported as a failure, and the invocation
succeeds only with a complete reply of status success. As the receive functions
document, every status other than success is a failure. -/
def ReportsFailure (client : CmsgClient Msg) (c : Connection) : Prop :=
  ((¬ ∃ status, CompleteReply client c status) →
    (clientReceiveEncrypted client c).status ≠ .success ∧ (clientInvokeRecv client c).ret ≠ .ok) ∧
  ((clientInvokeRecv client c).ret = .ok → CompleteReply client c .success)

/-- The plaintext is a complete reply, or one that the client refuses: its type is
not known, its announced size exceeds the frame, or it is processed up to its
status and its message without success. -/
def SafePlaintext (client : CmsgClient Msg) (c : Connection) (decoded : List UInt8) : Prop :=
  let m := ofBytes decoded c.staleDecoded
  ∀ header, headerProcess m = some header →
    WholeReply header decoded.length ∨
    (bodyLen header ≠ 0 ∧ c.msgLength < bodyLen header + headerSize) ∨
    ((bodyLen header = 0 ∨ decoded.length = bodyLen header + headerSize) ∧
      (header.statusCode ≠ .success ∨
        bodyLen header ≠ 0 ∧ unpackMessage client c header m = none))

/-- Nothing is received, or it cannot be stored, or it decrypts to a plaintext
that has a header and is safe. -/
def SafeFrame (client : CmsgClient Msg) (c : Connection) : Prop :=
  c.FrameArrives → c.Allocated →
    ∃ decoded, plaintext client c = some decoded ∧ headerSize ≤ decoded.length ∧
      SafePlaintext client c decoded

/-! ## Up to the decryption -/

theorem callocs_of_lt (available : Bool) {n : Nat} (h : n < 2 ^ 31) :
    callocs available (toSize n) = available := by
  have hlt : toSize n < 2 ^ 63 := by
    rw [toSize_of_lt h]
    omega
  rw [callocs, decide_eq_true hlt, Bool.and_true]

/-- A plaintext buffer of a negative length is never allocated. -/
theorem receiveEncrypted_of_le (client : CmsgClient Msg) (c : Connection) {n : Nat}
    (h : 2 ^ 31 ≤ n) (buffer : Memory) :
    receiveEncrypted client c n buffer = .withoutMessage .serviceFailed := by
  have hsize : toSize n = n + (2 ^ 64 - word32) := if_neg (Nat.not_lt.mpr h)
  have hlarge : ¬ toSize n < 2 ^ 63 := by
    have : word32 = 4294967296 := rfl
    omega
  have hstatic : bufStaticSize < toSize n := by
    have : bufStaticSize < 2 ^ 31 := by decide
    omega
  unfold receiveEncrypted
  rw [if_pos ⟨hstatic, by rw [callocs, decide_eq_false hlarge, Bool.and_false]⟩]

/-- A frame that does not arrive or cannot be stored is reported. -/
theorem clientReceiveEncrypted_fails {client : CmsgClient Msg} {c : Connection}
    (h : ¬ (c.FrameArrives ∧ c.Allocated)) :
    (clientReceiveEncrypted client c).status ≠ .success := by
  unfold clientReceiveEncrypted
  split
  · next hpeek =>
    cases hc : c.peekCode with
    | success => exact absurd hc hpeek
    | connectionClosed | connectionReset | timeout => simp [Received.withoutMessage, peekToStatusCode]
  · next hpeek =>
    dsimp only
    split
    · simp [Received.withoutMessage]
    · next hvalid =>
      have hheader : be32 (ofBytes c.stream c.stale) 0 = cryptoMagic ∧ c.msgLength ≠ 0 := by
        by_contra hbad
        refine hvalid (if_pos ?_)
        by_contra hgood
        exact hbad (not_or.mp hgood |>.imp_left not_not.mp)
      have hparse : cryptoParseHeader (ofBytes c.stream c.stale) = c.msgLength :=
        if_neg fun hbad => hbad.elim (absurd hheader.1) (fun h0 => hheader.2 h0)
      rw [hparse]
      split
      · simp [Received.withoutMessage]
      · next hbuffer =>
        split
        · simp [Received.withoutMessage]
        · simp [Received.withoutMessage]
        · next hrecv =>
          split
          · next hn =>
            by_cases hlt : c.msgLength < 2 ^ 31
            · have hpos : 0 < toInt32 (wrap32 (recvCount c.stream c.msgLength)) := by
                rw [hn, toInt32_of_lt hlt]
                have := hheader.2
                omega
              have hlen := ((recvCount_eq_iff hpos).mp hn).1
              have harrives : c.FrameArrives :=
                ⟨not_not.mp hpeek, hheader.1, hheader.2, hrecv, hlen, hlt⟩
              unfold receiveEncrypted
              rw [callocs_of_lt _ hlt, toSize_of_lt hlt, if_pos]
              · simp [Received.withoutMessage]
              · by_contra hdecoded
                refine h ⟨harrives, ?_, ?_⟩
                · grind
                · grind
            · rw [receiveEncrypted_of_le client c (Nat.le_of_not_lt hlt)]
              simp [Received.withoutMessage]
          · split
            · simp [Received.withoutMessage]
            · simp [Received.withoutMessage]

/-- A frame that arrives and can be stored is decrypted and processed. -/
theorem clientReceiveEncrypted_arrives {client : CmsgClient Msg} {c : Connection}
    (harrives : c.FrameArrives) (halloc : c.Allocated) :
    clientReceiveEncrypted client c =
      receiveDecoded client c c.msgLength (plaintext client c) := by
  have hparse : cryptoParseHeader (ofBytes c.stream c.stale) = c.msgLength :=
    if_neg fun hbad => hbad.elim (absurd harrives.magic) (fun h0 => harrives.nonempty h0)
  have hvalid : c.msgLength ≠ invalidHeader := by
    have := harrives.length_lt
    have : 2 ^ 31 ≤ invalidHeader := by decide
    omega
  have hn : recvCount c.stream c.msgLength = c.msgLength :=
    recvCount_eq harrives.length_le harrives.length_lt
  have hword : wrap32 c.msgLength = c.msgLength := wrap32_of_lt (be32_lt _ 4)
  have hbuffer : ¬ (bufStaticSize ≤ c.msgLength ∧ c.bufferCalloc = false) := by
    intro ⟨hle, hfalse⟩
    rcases halloc.1 with hlt | htrue
    · omega
    · exact absurd htrue (by simp [hfalse])
  have hdecoded : ¬ (bufStaticSize < c.msgLength ∧ c.decodedCalloc = false) := by
    intro ⟨hlt, hfalse⟩
    rcases halloc.2 with hle | htrue
    · omega
    · exact absurd htrue (by simp [hfalse])
  unfold clientReceiveEncrypted
  rw [if_neg (not_not.mpr harrives.peek)]
  dsimp only
  rw [hparse, if_neg hvalid, if_neg hbuffer, harrives.recv]
  dsimp only
  rw [hn, if_pos hword]
  unfold receiveEncrypted
  rw [callocs_of_lt _ harrives.length_lt, toSize_of_lt harrives.length_lt, if_neg hdecoded,
    toInt32_of_lt harrives.length_lt, plaintext]

/-! ## The plaintext -/

/-- The size that a complete reply announces does not wrap. -/
theorem WholeReply.bodyLen_eq {header : Header} {length : Nat} (h : WholeReply header length)
    (hlt : length < 2 ^ 31) : bodyLen header + headerSize = length := by
  have hw : header.headerLength + header.messageLength < word32 := by
    rw [h.length_eq]
    exact lt_word32 hlt
  have hle : headerSize ≤ length := by
    have := h.headerLength
    have := h.length_eq
    omega
  rw [bodyLen, header.dynLen_eq hw, h.length_eq,
    sub32_of_le hle (lt_word32 hlt)]
  omega

/-- The comparison of the plaintext's length with the announced size. -/
theorem length_eq_bodyLen {decoded : List UInt8} {header : Header} {msgLength : Nat}
    (hmax : msgLength < 2 ^ 31) (hbody : ¬ msgLength < bodyLen header + headerSize) :
    (decoded.length : Int) - headerSize = toInt32 (bodyLen header) ↔
      decoded.length = bodyLen header + headerSize := by
  rw [toInt32_of_lt (show bodyLen header < 2 ^ 31 by omega)]
  omega

/-- The plaintexts that are reported as success. -/
theorem receiveDecoded_success_iff (client : CmsgClient Msg) (c : Connection) {msgLength : Nat}
    (hmax : msgLength < 2 ^ 31) {decoded : List UInt8} {header : Header}
    (hlen : headerSize ≤ decoded.length)
    (hp : headerProcess (ofBytes decoded c.staleDecoded) = some header) :
    (receiveDecoded client c msgLength (some decoded)).status = .success ↔
      (bodyLen header = 0 ∧ header.statusCode = .success) ∨
      (bodyLen header ≠ 0 ∧ bodyLen header + headerSize ≤ msgLength ∧
        (decoded.length = bodyLen header + headerSize → header.statusCode = .success ∧
          unpackMessage client c header (ofBytes decoded c.staleDecoded) ≠ none)) := by
  unfold receiveDecoded
  dsimp only
  rw [if_pos hlen, hp]
  dsimp only
  split
  · next h0 => simp [h0, Received.withoutMessage]
  · next h0 =>
    split
    · next hlarge =>
      have hnot : ¬ bodyLen header + headerSize ≤ msgLength := Nat.not_le.mpr hlarge
      simp [h0, hnot, Received.withoutMessage]
    · next hfits =>
      have hle : bodyLen header + headerSize ≤ msgLength := Nat.le_of_not_lt hfits
      have hlength : (decoded.length : Int) - headerSize = toInt32 (bodyLen header) ↔
          decoded.length = bodyLen header + headerSize := length_eq_bodyLen hmax hfits
      split
      · next hdecoded =>
        have hwhole := hlength.mp hdecoded
        split
        · next hstatus =>
          cases hu : unpackMessage client c header (ofBytes decoded c.staleDecoded) with
          | none => simp [h0, hwhole, Received.withoutMessage]
          | some message => simp [h0, hle, hstatus]
        · next hstatus => simp [h0, hwhole, hstatus, Received.withoutMessage]
      · next hdecoded =>
        have hother := mt hlength.mpr hdecoded
        simp [h0, hle, hother, Received.withoutMessage]

/-! ## The condition -/

/-- A complete reply fits the frame when the client unpacks its message. -/
theorem safePlaintext_iff (client : CmsgClient Msg) (c : Connection) {decoded : List UInt8}
    (hmax : c.msgLength < 2 ^ 31) (hshort : decoded.length < 2 ^ 31)
    (hlen : headerSize ≤ decoded.length) :
    SafePlaintext client c decoded ↔
      ((receiveDecoded client c c.msgLength (some decoded)).status = .success →
        ∃ header, headerProcess (ofBytes decoded c.staleDecoded) = some header ∧
          WholeReply header decoded.length ∧ header.statusCode = .success) := by
  cases hp : headerProcess (ofBytes decoded c.staleDecoded) with
  | none =>
    have hfailed : (receiveDecoded client c c.msgLength (some decoded)).status = .serviceFailed := by
      unfold receiveDecoded
      dsimp only
      rw [if_pos hlen, hp]
      rfl
    rw [hfailed]
    exact iff_of_true (by simp [SafePlaintext, hp]) (by simp)
  | some header =>
    rw [receiveDecoded_success_iff client c hmax hlen hp]
    constructor
    · intro hsafe hsuccess
      rcases hsafe header hp with hwhole | ⟨h0, hlarge⟩ | ⟨hprocessed, hrefused⟩
      · refine ⟨header, rfl, hwhole, ?_⟩
        rcases hsuccess with ⟨_, hstatus⟩ | ⟨_, _, hmessage⟩
        · exact hstatus
        · exact (hmessage (hwhole.bodyLen_eq hshort).symm).1
      · rcases hsuccess with ⟨hzero, _⟩ | ⟨_, hfits, _⟩
        · exact absurd hzero h0
        · omega
      · rcases hsuccess with ⟨hzero, hstatus⟩ | ⟨h0, _, hmessage⟩
        · rcases hrefused with hother | ⟨h0, _⟩
          · exact absurd hstatus hother
          · exact absurd hzero h0
        · rcases hprocessed with hzero | hlength
          · exact absurd hzero h0
          · obtain ⟨hstatus, hunpacked⟩ := hmessage hlength
            rcases hrefused with hother | ⟨_, hnone⟩
            · exact absurd hstatus hother
            · exact absurd hnone hunpacked
    · intro hcomplete header' hp'
      obtain rfl : header = header' := Option.some.inj (hp ▸ hp')
      by_cases hwhole : WholeReply header decoded.length
      · exact .inl hwhole
      · have hfails := mt hcomplete fun ⟨_, hp', hwhole', _⟩ =>
          hwhole (Option.some.inj hp' ▸ hwhole')
        right
        by_cases h0 : bodyLen header = 0
        · exact .inr ⟨.inl h0, .inl fun hstatus => hfails (.inl ⟨h0, hstatus⟩)⟩
        · by_cases hfits : bodyLen header + headerSize ≤ c.msgLength
          · right
            by_contra hother
            refine hfails (.inr ⟨h0, hfits, fun hlength => ?_⟩)
            by_contra hrefused
            exact hother ⟨.inr hlength, by tauto⟩
          · exact .inl ⟨h0, Nat.lt_of_not_le hfits⟩

/-- The receive function reports success for a complete reply of that status
only exactly when the frame is safe. -/
theorem success_complete_iff (client : CmsgClient Msg) (c : Connection) :
    ((clientReceiveEncrypted client c).status = .success → CompleteReply client c .success) ↔
      SafeFrame client c := by
  by_cases hstored : c.FrameArrives ∧ c.Allocated
  · obtain ⟨harrives, halloc⟩ := hstored
    rw [clientReceiveEncrypted_arrives harrives halloc]
    have hcomplete : ∀ status, CompleteReply client c status ↔
        ∃ decoded header, plaintext client c = some decoded ∧
          headerProcess (ofBytes decoded c.staleDecoded) = some header ∧
          WholeReply header decoded.length ∧ header.statusCode = status :=
      fun status => ⟨fun h => h.2, fun h => ⟨harrives, h⟩⟩
    have hsafe : SafeFrame client c ↔ ∃ decoded, plaintext client c = some decoded ∧
        headerSize ≤ decoded.length ∧ SafePlaintext client c decoded :=
      ⟨fun h => h harrives halloc, fun h _ _ => h⟩
    rw [hcomplete, hsafe]
    cases hplain : plaintext client c with
    | none => simp [receiveDecoded, Received.withoutMessage]
    | some decoded =>
      by_cases hlen : headerSize ≤ decoded.length
      · have hiff := safePlaintext_iff client c harrives.length_lt
          (cryptoDecrypt_length hplain) hlen
        simp only [Option.some.injEq, exists_eq_left', exists_and_left]
        rw [← hiff]
        simp [hlen]
      · have hsuccess : (receiveDecoded client c c.msgLength (some decoded)).status = .success := by
          unfold receiveDecoded
          dsimp only
          rw [if_neg hlen]
          rfl
        have hnot : ∀ header, ¬ WholeReply header decoded.length := by
          intro header hwhole
          have := hwhole.headerLength
          have := hwhole.length_eq
          omega
        simp [hsuccess, hlen, hnot]
  · exact iff_of_true (fun h => absurd h (clientReceiveEncrypted_fails hstored))
      (fun harrives halloc => absurd ⟨harrives, halloc⟩ hstored)

/-- The client reports every frame that is not a complete reply as a failure,
and succeeds with complete replies only, exactly for the safe frames. -/
theorem reportsFailure_iff (client : CmsgClient Msg) (c : Connection) :
    ReportsFailure client c ↔ SafeFrame client c := by
  rw [← success_complete_iff, ReportsFailure, clientInvokeRecv_ok_iff]
  constructor
  · intro ⟨_, hcomplete⟩
    exact hcomplete
  · intro hcomplete
    refine ⟨fun hnone => ?_, hcomplete⟩
    have hfails : (clientReceiveEncrypted client c).status ≠ .success :=
      fun hsuccess => hnone ⟨_, hcomplete hsuccess⟩
    exact ⟨hfails, mt (clientInvokeRecv_ok_iff client c).mp hfails⟩

-- a frame of one secure header, whose ciphertext does not decrypt
def undecryptable : Connection :=
  { stream := toBe32 cryptoMagic ++ toBe32 12 ++ toBe32 cryptoTypePayload
    peekCode := .success
    peeked := by decide
    recvErrno := none
    bufferCalloc := true
    decodedCalloc := true
    stale := fun _ => 0
    staleDecoded := fun _ => 0
    serverRequest := .init }

def keylessClient : CmsgClient Unit :=
  { cryptoSa := ⟨false, false, fun _ _ => none, fun h => by cases h⟩
    cryptoSaDeriveFunc := fun _ _ => true
    getMethodIndexByName := fun _ => undefinedMethod
    unpackOutput := fun _ _ => some ()
    freeUnknownFields := id }

/-- A decryption that fails is reported as success, to the caller as well. -/
theorem decryption_failure_unreported :
    (clientReceiveEncrypted keylessClient undecryptable).status = .success ∧
      (clientInvokeRecv keylessClient undecryptable).ret = .ok ∧
      ¬ ∀ (client : CmsgClient Unit) (c : Connection), ReportsFailure client c := by
  have hstatus : (clientReceiveEncrypted keylessClient undecryptable).status = .success := by
    decide
  have hplain : plaintext keylessClient undecryptable = none := by decide
  refine ⟨hstatus, (clientInvokeRecv_ok_iff _ _).mpr hstatus, fun hall => ?_⟩
  refine ((hall keylessClient undecryptable).1 ?_).1 hstatus
  intro ⟨_, _, decoded, _, hdecoded, _⟩
  rw [hplain] at hdecoded
  cases hdecoded

end Cmsg.Client
