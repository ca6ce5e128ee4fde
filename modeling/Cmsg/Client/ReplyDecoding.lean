import Cmsg.Client.Receive
import Cmsg.Wire.TlvGrammar

/-! # What a reply makes the client look at

`cmsg_transport_client_recv` checks only that the announced number of bytes
arrived, and unpacks with the method that the reply names. The condition under
which the client stays within the reply, and unpacks it as one of the method that
was invoked, is read off the header and the bytes that arrive. -/
namespace Cmsg.Client
open Cmsg.Base Cmsg.Wire

variable {Msg Desc : Type}

/-! ## The reception and what it looks at -/

/-- A `ProtobufCServiceDescriptor`: the output descriptor of each method, and
`protobuf_c_message_unpack` with a descriptor. -/
structure ServiceDescriptor (Msg Desc : Type) where
  getMethodIndexByName : CString → Nat
  output : Nat → Desc
  messageUnpack : Desc → List UInt8 → Option Msg
  freeUnknownFields : Msg → Msg

/-- The descriptor as the client uses it. -/
def ServiceDescriptor.descriptor (d : ServiceDescriptor Msg Desc) : Descriptor Msg where
  getMethodIndexByName := d.getMethodIndexByName
  unpackOutput i bytes := d.messageUnpack (d.output i) bytes
  freeUnknownFields := d.freeUnknownFields

/-- A reception, how many bytes of the body it received, the positions of the
body that it looks at, and the descriptor it unpacks with. -/
structure Reading (Msg Desc : Type) where
  received : Received Msg
  nbytes : Nat
  inspected : List Nat
  desc : Option Desc

def Reading.nothing (received : Received Msg) (nbytes : Nat) : Reading Msg Desc :=
  ⟨received, nbytes, [], none⟩

/-- The processing of a body; `beyond` is what the memory after it holds. -/
def readBody (d : ServiceDescriptor Msg Desc) (beyond : Memory) (header : Header)
    (body : List UInt8) : Reading Msg Desc :=
  let m := ofBytes body beyond
  let tlv := tlvHeaderProcess d.getMethodIndexByName m 0 header.extraHeaderSize ⟨0, []⟩
  if tlv.ret ≠ .ok then ⟨.withoutMessage .serviceFailed, body.length, tlv.inspected, none⟩
  else if h : header.statusCode = .success then
    let desc := d.output tlv.request.methodIndex
    let inspected := tlv.inspected ++ span header.extraHeaderSize header.messageLength
    match d.messageUnpack desc (slice m header.extraHeaderSize header.messageLength) with
    | some message =>
      ⟨⟨header.statusCode, some message, false, fun _ => h⟩, body.length, inspected, some desc⟩
    | none => ⟨.withoutMessage .serviceFailed, body.length, inspected, some desc⟩
  else ⟨.withoutMessage header.statusCode, body.length, tlv.inspected, none⟩

/-- `receiveAnnounced` with what it looks at. -/
def readAnnounced (d : ServiceDescriptor Msg Desc) (beyond : Memory) (a : Arrival)
    (header : Header) : Reading Msg Desc :=
  let dynLen := bodyLen header
  if dynLen = 0 then .nothing (.withoutMessage header.statusCode) 0
  else if bufStaticSize < dynLen ∧ a.calloc dynLen = false then
    .nothing { Received.withoutMessage .serviceFailed with socketClosed := true } 0
  else
    let received := recvCount (a.stream.drop headerSize) dynLen
    if a.nbytes dynLen = toInt32 dynLen then
      readBody d beyond header ((a.stream.drop headerSize).take received)
    else .nothing (.withoutMessage .serviceFailed) received

/-- `clientRecv` with what it looks at. -/
def clientRead (d : ServiceDescriptor Msg Desc) (beyond : Memory) (a : Arrival) :
    Reading Msg Desc :=
  if a.peekCode ≠ .success then .nothing (.withoutMessage (peekToStatusCode a.peekCode)) 0
  else match a.headerErrno with
    | some .connreset => .nothing (.withoutMessage .serverConnreset) 0
    | some .other => .nothing (.withoutMessage .serviceFailed) 0
    | none =>
      match headerProcess (ofBytes a.stream zeroed) with
      | none => .nothing (.withoutMessage .serviceFailed) 0
      | some header => readAnnounced d beyond a header

/-- The client looks at nothing but the bytes it received, and what an invocation
of the method `m` hands back was unpacked with the output descriptor of `m`. -/
structure ReadsReply (d : ServiceDescriptor Msg Desc) (m : Nat) (r : Reading Msg Desc) : Prop where
  inspected : ∀ p ∈ r.inspected, p < r.nbytes
  decoded : (invokeRecv d.descriptor r.received).message ≠ none → r.desc = some (d.output m)

/-! ## The bytes that arrive -/

/-- A header and a body that is processed. -/
structure Arrival.Brings (a : Arrival) (header : Header) (body : List UInt8) : Prop where
  peekCode : a.peekCode = .success
  headerErrno : a.headerErrno = none
  header_eq : headerProcess (ofBytes a.stream zeroed) = some header
  announced : bodyLen header ≠ 0
  calloc : ¬ (bufStaticSize < bodyLen header ∧ a.calloc (bodyLen header) = false)
  nbytes : a.nbytes (bodyLen header) = toInt32 (bodyLen header)
  body_eq : body = (a.stream.drop headerSize).take
    (recvCount (a.stream.drop headerSize) (bodyLen header))

/-- Behind headers that name methods the body ends too early: within a header, or
within the message. -/
def Overruns (lookup : CString → Nat) (header : Header) (body : List UInt8) : Prop :=
  ∃ values rest, body = methodHeaders values ++ rest ∧ (∀ value ∈ values, Names lookup value) ∧
    (methodHeaders values).length ≤ header.extraHeaderSize ∧
    (CutShort (header.extraHeaderSize - (methodHeaders values).length) rest ∨
      (methodHeaders values).length = header.extraHeaderSize ∧ header.statusCode = .success ∧
        rest.length < header.messageLength)

/-- The body is a message of a method with another output than `m`. The first
method is taken where none is named. -/
def Misnames (d : ServiceDescriptor Msg Desc) (m : Nat) (header : Header) (body : List UInt8) :
    Prop :=
  ∃ values message rest, body = methodHeaders values ++ (message ++ rest) ∧
    (∀ value ∈ values, Names d.getMethodIndexByName value) ∧
    (methodHeaders values).length = header.extraHeaderSize ∧
    message.length = header.messageLength ∧ header.statusCode = .success ∧
    d.output (lastNamed d.getMethodIndexByName 0 values) ≠ d.output m ∧
    d.messageUnpack (d.output (lastNamed d.getMethodIndexByName 0 values)) message ≠ none

section
variable (d : ServiceDescriptor Msg Desc) (beyond : Memory) {header : Header} {body : List UInt8}

/-! ## The processing of a body -/

section
variable {values : List (List UInt8)} {rest : List UInt8}
  (hbody : body = methodHeaders values ++ rest)
  (hvalues : ∀ value ∈ values, Names d.getMethodIndexByName value)
  (hextra : (methodHeaders values).length = header.extraHeaderSize)
include hbody hvalues hextra

/-- A body with headers that name methods. -/
theorem readBody_headers :
    let m := ofBytes body beyond
    let tlv := tlvHeaderProcess d.getMethodIndexByName m 0 header.extraHeaderSize ⟨0, []⟩
    tlv.ret = .ok ∧ tlv.request.methodIndex = lastNamed d.getMethodIndexByName 0 values ∧
      ∀ p ∈ tlv.inspected, p < header.extraHeaderSize := by
  have hm := holds_ofBytes body beyond
  rw [hbody] at hm
  have h := tlvHeaderProcess_headers ⟨0, []⟩ hm.append.1 hvalues
  rw [hextra, Nat.zero_add, ← hbody] at h
  exact h

end

theorem readBody_tlvInspected {p : Nat}
    (hp : p ∈ (tlvHeaderProcess d.getMethodIndexByName (ofBytes body beyond) 0
      header.extraHeaderSize ⟨0, []⟩).inspected) :
    p ∈ (readBody d beyond header body).inspected := by
  unfold readBody
  dsimp only
  split
  · exact hp
  · split
    · split
      · exact List.mem_append_left _ hp
      · exact List.mem_append_left _ hp
    · exact hp

theorem readBody_nbytes : (readBody d beyond header body).nbytes = body.length := by
  unfold readBody
  dsimp only
  split
  · rfl
  · split
    · split
      · rfl
      · rfl
    · rfl

/-- A message that is unpacked. -/
theorem readBody_message {tlv : TlvResult}
    (htlv : tlvHeaderProcess d.getMethodIndexByName (ofBytes body beyond) 0
      header.extraHeaderSize ⟨0, []⟩ = tlv)
    (hok : tlv.ret = .ok) (hs : header.statusCode = .success) :
    let r := readBody d beyond header body
    r.inspected = tlv.inspected ++ span header.extraHeaderSize header.messageLength ∧
      r.desc = some (d.output tlv.request.methodIndex) ∧
      r.received.message = d.messageUnpack (d.output tlv.request.methodIndex)
        (slice (ofBytes body beyond) header.extraHeaderSize header.messageLength) := by
  intro r
  unfold r readBody
  dsimp only
  rw [htlv, if_neg (not_not.mpr hok), dif_pos hs]
  split
  · next message hmsg => exact ⟨rfl, rfl, hmsg.symm⟩
  · next hmsg => exact ⟨rfl, rfl, hmsg.symm⟩

/-- Headers that are refused, or a status that is not success. -/
theorem readBody_noMessage {tlv : TlvResult}
    (htlv : tlvHeaderProcess d.getMethodIndexByName (ofBytes body beyond) 0
      header.extraHeaderSize ⟨0, []⟩ = tlv)
    (h : ¬ (tlv.ret = .ok ∧ header.statusCode = .success)) :
    (readBody d beyond header body).inspected = tlv.inspected ∧
      (readBody d beyond header body).received.message = none := by
  unfold readBody
  dsimp only
  rw [htlv]
  by_cases hok : tlv.ret = .ok
  · rw [if_neg (not_not.mpr hok), dif_neg fun hs => h ⟨hok, hs⟩]
    exact ⟨rfl, rfl⟩
  · rw [if_pos hok]
    exact ⟨rfl, rfl⟩

/-! ## The reply that is safe -/

theorem not_overruns_of_reads {m : Nat} (h : ReadsReply d m (readBody d beyond header body)) :
    ¬ Overruns d.getMethodIndexByName header body := by
  intro ⟨values, rest, hbody, hvalues, hle, hend⟩
  have hin := h.inspected
  rw [readBody_nbytes] at hin
  rcases hend with hcut | ⟨hextra, hs, hshort⟩
  · have hm := holds_ofBytes body beyond
    rw [hbody] at hm
    obtain ⟨p, hp, hge⟩ := tlvHeaderProcess_cutShort ⟨0, []⟩ hm hvalues hle hcut
    rw [← hbody] at hp hge
    have := hin p (readBody_tlvInspected d beyond hp)
    omega
  · obtain ⟨hok, _, _⟩ := readBody_headers d beyond hbody hvalues hextra
    obtain ⟨hinspected, _, _⟩ := readBody_message d beyond rfl hok hs
    have hlen : body.length = header.extraHeaderSize + rest.length := by
      rw [hbody, List.length_append, hextra]
    -- the first byte of the message that was not received
    have hlast := hin body.length (by
      rw [hinspected]
      exact List.mem_append_right _ (mem_span.mpr ⟨by omega, by omega⟩))
    exact absurd hlast (Nat.lt_irrefl _)

theorem slice_message {values : List (List UInt8)} {message rest : List UInt8}
    (hbody : body = methodHeaders values ++ (message ++ rest))
    (hextra : (methodHeaders values).length = header.extraHeaderSize)
    (hlength : message.length = header.messageLength) :
    slice (ofBytes body beyond) header.extraHeaderSize header.messageLength = message := by
  have hm := holds_ofBytes body beyond
  rw [hbody] at hm
  have hmessage := hm.append.2.append.1.slice
  rw [Nat.zero_add, hextra, hlength, ← hbody] at hmessage
  exact hmessage

theorem not_misnames_of_reads {m : Nat} (h : ReadsReply d m (readBody d beyond header body)) :
    ¬ Misnames d m header body := by
  intro ⟨values, message, rest, hbody, hvalues, hextra, hlength, hs, hne, hmessage⟩
  obtain ⟨hok, hindex, _⟩ := readBody_headers d beyond hbody hvalues hextra
  obtain ⟨_, hdesc, hreceived⟩ := readBody_message d beyond rfl hok hs
  rw [hindex, slice_message beyond hbody hextra hlength] at hreceived
  have hdecoded := h.decoded (by
    rw [invokeRecv_message, hreceived]
    simpa using hmessage)
  rw [hdesc, hindex] at hdecoded
  exact hne (Option.some.inj hdecoded)

/-- A body is read safely exactly when it neither ends too early nor is a message
of another method. -/
theorem readBody_reads_iff (m : Nat) :
    ReadsReply d m (readBody d beyond header body) ↔
      ¬ Overruns d.getMethodIndexByName header body ∧ ¬ Misnames d m header body := by
  refine ⟨fun h => ⟨not_overruns_of_reads d beyond h, not_misnames_of_reads d beyond h⟩, ?_⟩
  intro ⟨hfits, hnames⟩
  have hm := holds_ofBytes body beyond
  have heq := tlvHeaderProcess_eq d.getMethodIndexByName (ofBytes body beyond) 0
    header.extraHeaderSize ⟨0, []⟩
  obtain ⟨values, rest, hbody, hvalues, hle, hreads⟩ :=
    @tlvLoop_reads d.getMethodIndexByName _ header.extraHeaderSize _ header.extraHeaderSize body
      ⟨0, []⟩ hm (Nat.le_refl _)
  rw [← heq, Nat.zero_add] at hreads
  obtain ⟨hin, hend⟩ := hreads.resolve_left fun hcut =>
    hfits ⟨values, rest, hbody, hvalues, hle, .inl hcut⟩
  by_cases hmessage : (tlvHeaderProcess d.getMethodIndexByName (ofBytes body beyond) 0
      header.extraHeaderSize ⟨0, []⟩).ret = .ok ∧ header.statusCode = .success
  · obtain ⟨hok, hs⟩ := hmessage
    have hextra := hend hok
    obtain ⟨_, hindex, _⟩ := readBody_headers d beyond hbody hvalues hextra
    obtain ⟨hinspected, hdesc, hreceived⟩ := readBody_message d beyond rfl hok hs
    have hwhole : header.messageLength ≤ rest.length := by
      by_contra hshort
      exact hfits ⟨values, rest, hbody, hvalues, hle, .inr ⟨hextra, hs, by omega⟩⟩
    have hlen : body.length = header.extraHeaderSize + rest.length := by
      rw [hbody, List.length_append, hextra]
    refine ⟨fun p hp => ?_, fun hne => ?_⟩
    · rw [readBody_nbytes]
      rw [hinspected] at hp
      rcases List.mem_append.mp hp with hp | hp
      · exact hin p hp
      · have := mem_span.mp hp
        omega
    · rw [invokeRecv_message, hreceived, hindex] at hne
      rw [hdesc, hindex]
      by_contra hother
      have hlength : (rest.take header.messageLength).length = header.messageLength := by
        rw [List.length_take, Nat.min_eq_left hwhole]
      have hsplit : body = methodHeaders values ++
          (rest.take header.messageLength ++ rest.drop header.messageLength) := by
        rw [List.take_append_drop]
        exact hbody
      rw [slice_message beyond hsplit hextra hlength] at hne
      exact hnames ⟨values, _, _, hsplit, hvalues, hextra, hlength, hs,
        fun h => hother (congrArg some h), by simpa using hne⟩
  · obtain ⟨hinspected, hnone⟩ := readBody_noMessage d beyond rfl hmessage
    refine ⟨fun p hp => ?_, fun hne => ?_⟩
    · rw [readBody_nbytes]
      rw [hinspected] at hp
      exact hin p hp
    · rw [invokeRecv_message, hnone] at hne
      exact absurd rfl hne

end

/-! ## Any reply -/

theorem nothing_reads (d : ServiceDescriptor Msg Desc) (m : Nat) {received : Received Msg}
    (h : received.message = none) (n : Nat) :
    ReadsReply d m (Reading.nothing received n) where
  inspected _ hp := by cases hp
  decoded hne := by
    rw [invokeRecv_message, Reading.nothing, h] at hne
    exact absurd rfl hne

section
variable (d : ServiceDescriptor Msg Desc) (beyond : Memory) (a : Arrival)

theorem readBody_received {header : Header} {body : List UInt8} :
    (readBody d zeroed header body).received = receiveBody d.descriptor header body := by
  unfold readBody receiveBody
  dsimp only
  rw [show d.descriptor.getMethodIndexByName = d.getMethodIndexByName from rfl]
  split
  · rfl
  · split
    · unfold ServiceDescriptor.descriptor
      dsimp only
      generalize d.messageUnpack _ _ = unpacked
      cases unpacked <;> rfl
    · rfl

/-- The reading is the reception of the model, where the memory is cleared. -/
theorem clientRead_received :
    (clientRead d zeroed a).received = (clientRecv d.descriptor a).1 := by
  unfold clientRead clientRecv
  by_cases hpeek : a.peekCode = .success
  · rw [if_neg (not_not.mpr hpeek), if_neg (not_not.mpr hpeek)]
    cases a.headerErrno with
    | some errno =>
      cases errno with
      | connreset => rfl
      | other => rfl
    | none =>
      cases headerProcess (ofBytes a.stream zeroed) with
      | none => rfl
      | some header =>
        dsimp only
        unfold readAnnounced receiveAnnounced
        dsimp only
        split
        · rfl
        · split
          · rfl
          · split
            · exact readBody_received d
            · rfl
  · rw [if_pos hpeek, if_pos hpeek]
    rfl

/-- The reading of a reply: a body that arrives, or nothing. -/
theorem clientRead_cases :
    (∃ header body, a.Brings header body ∧
        clientRead d beyond a = readBody d beyond header body) ∨
      (¬ ∃ header body, a.Brings header body) ∧
        ∃ received n, clientRead d beyond a = .nothing received n ∧ received.message = none := by
  unfold clientRead
  by_cases hpeek : a.peekCode = .success
  · rw [if_neg (not_not.mpr hpeek)]
    cases herrno : a.headerErrno with
    | some errno =>
      refine .inr ⟨fun ⟨_, _, hb⟩ => ?_, ?_⟩
      · rw [hb.headerErrno] at herrno
        cases herrno
      · cases errno with
        | connreset => exact ⟨_, _, rfl, rfl⟩
        | other => exact ⟨_, _, rfl, rfl⟩
    | none =>
      cases hp : headerProcess (ofBytes a.stream zeroed) with
      | none =>
        refine .inr ⟨fun ⟨_, _, hb⟩ => ?_, _, _, rfl, rfl⟩
        rw [hb.header_eq] at hp
        cases hp
      | some header =>
        have hheader : ∀ {header' : Header} {body : List UInt8}, a.Brings header' body →
            header' = header := fun hb => Option.some.inj (hb.header_eq.symm.trans hp)
        dsimp only
        unfold readAnnounced
        dsimp only
        split
        · next h0 =>
          refine .inr ⟨fun ⟨_, _, hb⟩ => ?_, _, _, rfl, rfl⟩
          exact hb.announced (by rw [hheader hb, h0])
        · next h0 =>
          split
          · next hcalloc =>
            refine .inr ⟨fun ⟨_, _, hb⟩ => ?_, _, _, rfl, rfl⟩
            exact hb.calloc (by rw [hheader hb]; exact hcalloc)
          · next hcalloc =>
            split
            · next hn => exact .inl ⟨header, _, ⟨hpeek, herrno, hp, h0, hcalloc, hn, rfl⟩, rfl⟩
            · next hn =>
              refine .inr ⟨fun ⟨_, _, hb⟩ => ?_, _, _, rfl, rfl⟩
              exact hn (by rw [← hheader hb]; exact hb.nbytes)
  · rw [if_pos hpeek]
    exact .inr ⟨fun ⟨_, _, hb⟩ => hpeek hb.peekCode, _, _, rfl, rfl⟩

theorem Arrival.Brings.unique {a : Arrival} {header header' : Header} {body body' : List UInt8}
    (h : a.Brings header body) (h' : a.Brings header' body') : header = header' ∧ body = body' := by
  obtain rfl : header = header' := Option.some.inj (h.header_eq.symm.trans h'.header_eq)
  exact ⟨rfl, h.body_eq.trans h'.body_eq.symm⟩

/-- **A reply is read safely** exactly when its body, if it is processed, neither
ends too early nor is a message of another method. -/
theorem clientRead_reads_iff (m : Nat) :
    ReadsReply d m (clientRead d beyond a) ↔ ∀ header body, a.Brings header body →
      ¬ Overruns d.getMethodIndexByName header body ∧ ¬ Misnames d m header body := by
  rcases clientRead_cases d beyond a with ⟨header, body, hb, he⟩ | ⟨hnot, received, n, he, hnone⟩
  · rw [he, readBody_reads_iff]
    constructor
    · intro h header' body' hb'
      obtain ⟨rfl, rfl⟩ := hb.unique hb'
      exact h
    · intro h
      exact h header body hb
  · rw [he]
    exact ⟨fun _ header body hb => absurd ⟨header, body, hb⟩ hnot,
      fun _ => nothing_reads d m hnone n⟩

/-! ## The reply that is received -/

/-- What lies behind a body that is read within its bounds makes no difference. -/
theorem readBody_local {header : Header} {body : List UInt8}
    (h : ∀ p ∈ (readBody d beyond header body).inspected, p < body.length) :
    readBody d beyond header body = readBody d zeroed header body := by
  have hbyte : ∀ p, p < body.length → ofBytes body beyond p = ofBytes body zeroed p := by
    intro p hp
    rw [ofBytes, ofBytes, List.getElem?_eq_getElem hp, Option.getD_some, Option.getD_some]
  have htlv : tlvHeaderProcess d.getMethodIndexByName (ofBytes body beyond) 0
      header.extraHeaderSize ⟨0, []⟩ = tlvHeaderProcess d.getMethodIndexByName
      (ofBytes body zeroed) 0 header.extraHeaderSize ⟨0, []⟩ :=
    tlvHeaderProcess_local _ _ fun p hp => hbyte p (h p (readBody_tlvInspected d beyond hp))
  by_cases hmessage : (tlvHeaderProcess d.getMethodIndexByName (ofBytes body beyond) 0
      header.extraHeaderSize ⟨0, []⟩).ret = .ok ∧ header.statusCode = .success
  · obtain ⟨hok, hs⟩ := hmessage
    have hinspected := (readBody_message d beyond rfl hok hs).1
    have hslice : slice (ofBytes body beyond) header.extraHeaderSize header.messageLength =
        slice (ofBytes body zeroed) header.extraHeaderSize header.messageLength := by
      refine slice_congr fun i hi => hbyte _ (h _ ?_)
      rw [hinspected]
      exact List.mem_append_right _ (mem_span.mpr ⟨by omega, by omega⟩)
    unfold readBody
    dsimp only
    rw [htlv, hslice]
  · unfold readBody
    dsimp only
    rw [← htlv]
    by_cases hok : (tlvHeaderProcess d.getMethodIndexByName (ofBytes body beyond) 0
        header.extraHeaderSize ⟨0, []⟩).ret = .ok
    · have hs : ¬ header.statusCode = .success := fun hs => hmessage ⟨hok, hs⟩
      rw [if_neg (not_not.mpr hok), if_neg (not_not.mpr hok), dif_neg hs, dif_neg hs]
    · rw [if_pos hok, if_pos hok]

theorem clientRead_local
    (h : ∀ p ∈ (clientRead d beyond a).inspected, p < (clientRead d beyond a).nbytes) :
    clientRead d beyond a = clientRead d zeroed a := by
  unfold clientRead at h ⊢
  by_cases hpeek : a.peekCode = .success
  · rw [if_neg (not_not.mpr hpeek)] at h
    rw [if_neg (not_not.mpr hpeek), if_neg (not_not.mpr hpeek)]
    cases herrno : a.headerErrno with
    | some errno => cases errno <;> rfl
    | none =>
      rw [herrno] at h
      cases hp : headerProcess (ofBytes a.stream zeroed) with
      | none => rfl
      | some header =>
        rw [hp] at h
        dsimp only at h ⊢
        unfold readAnnounced at h ⊢
        dsimp only at h ⊢
        split
        · rfl
        · next h0 =>
          rw [if_neg h0] at h
          split
          · rfl
          · next hcalloc =>
            rw [if_neg hcalloc] at h
            split
            · next hn =>
              rw [if_pos hn, readBody_nbytes] at h
              exact readBody_local d beyond h
            · rfl
  · rw [if_pos hpeek, if_pos hpeek]

/-- **What is read safely is received**: whatever lies behind the bytes of a reply, the client
gets what the reception hands it. -/
theorem clientRead_received_of_reads {m : Nat} (h : ReadsReply d m (clientRead d beyond a)) :
    (clientRead d beyond a).received = (clientRecv d.descriptor a).1 := by
  rw [clientRead_local d beyond a h.inspected]
  exact clientRead_received d a

end

/-- A method per number, and messages that are the descriptor they were unpacked
with. -/
def numberedDescriptor : ServiceDescriptor Nat Nat where
  getMethodIndexByName _ := 0
  output i := i
  messageUnpack desc _ := some desc
  freeUnknownFields message := message

/-- A reply to the second method that names no method, and one whose header
length is smaller than the header. -/
theorem reply_misread :
    ¬ ReadsReply numberedDescriptor 1 (clientRead numberedDescriptor zeroed
        (.complete (toBe32 1 ++ toBe32 16 ++ toBe32 1 ++ toBe32 1 ++ [7]) (by decide))) ∧
      ¬ ReadsReply numberedDescriptor 0 (clientRead numberedDescriptor zeroed
        (.complete (toBe32 1 ++ toBe32 15 ++ toBe32 2 ++ toBe32 1 ++ [7]) (by decide))) := by
  constructor
  · intro h
    have hdesc := h.decoded (by decide)
    exact absurd hdesc (by decide)
  · intro h
    exact absurd (h.inspected 7 (by decide)) (by decide)

end Cmsg.Client
