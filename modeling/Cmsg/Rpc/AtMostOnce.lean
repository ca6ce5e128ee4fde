import Mathlib.Data.List.Perm.Subperm
import Cmsg.Client.Send
import Cmsg.Client.Receive
import Cmsg.Server.Dispatch
import Cmsg.Server.Lookup

/-! # A request that is sent twice

A send that fails leaves a truncated packet on the first connection, and the
packet is sent once more on a new one. The server drops a truncated packet for
its length, but it does not check the length of a packet without a message: one
that lacks nothing but the terminator of its method's name is invoked, and the
second copy is invoked again. -/
namespace Cmsg.Rpc
open Cmsg.Base Cmsg.Base.Runs Cmsg.Wire Cmsg.Client Cmsg.Server

variable {Msg : Type} {svc : Service Msg}

/-! ## What a packet starts with -/

/-- What a packet starts with, however long its message is. -/
structure Starts (packet : List UInt8) (name : CString) (input : Client.Input) : Prop where
  header : ∃ rest, packet <+: headerCreate .methodReq
    (wrap32 (tlvSize (wrap32 (name.length + 1)))) (wrap32 input.packedSize) .unset ++ rest
  length_le : packet.length ≤ wrap32
    (wrap32 (headerSize + wrap32 (tlvSize (wrap32 (name.length + 1)))) + wrap32 input.packedSize)

theorem createPacket_starts {calloc : Nat → Bool} {name : CString} {input : Client.Input}
    {packet : List UInt8} (h : createPacket calloc name input = some packet) :
    Starts packet name input := by
  unfold createPacket at h
  dsimp only at h
  split at h
  · cases h
  · split at h
    · cases h
    · split at h
      · cases h
      · obtain rfl := Option.some.inj h
        refine ⟨⟨toBe32 tlvMethodType ++ (toBe32 (wrap32 (name.length + 1)) ++
          strncpy name (wrap32 (name.length + 1))) ++ input.packed, ?_⟩, List.length_take_le _ _⟩
        rw [tlvMethodHeaderCreate, List.append_assoc]
        exact List.take_prefix _ _

/-- The header of a packet is read off any copy of the packet that is long enough. -/
theorem Starts.headerProcess {packet : List UInt8} {name : CString} {input : Client.Input}
    (h : Starts packet name input) {k : Nat} (hk : headerSize ≤ (packet.take k).length)
    (stale : Memory) :
    ∃ header, headerProcess (ofBytes (packet.take k) stale) = some header ∧
      header.msgType = .methodReq ∧ header.messageLength = wrap32 input.packedSize ∧
      packet.length ≤ header.dynLen := by
  obtain ⟨rest, hpacket⟩ := h.header
  have hfront : headerCreate .methodReq (wrap32 (tlvSize (wrap32 (name.length + 1))))
      (wrap32 input.packedSize) .unset <+: packet.take k :=
    List.prefix_of_prefix_length_le (List.prefix_append _ _)
      ((List.take_prefix _ _).trans hpacket) hk
  obtain ⟨header, hp, htype, hheader, hmessage, _⟩ := headerProcess_headerCreate
    ((holds_ofBytes _ stale).front hfront) (show StatusCode.unset.Known from by
      intro word hword
      cases hword)
  rw [wrap32_of_lt (wrap32_lt _)] at hmessage
  refine ⟨header, hp, htype, hmessage, ?_⟩
  rw [Header.dynLen, hheader, hmessage, Nat.add_comm]
  exact h.length_le

/-! ## A truncated packet -/

section
variable (i : Fin svc.nMethods)

/-- The copy lacks the terminator of the method's name and nothing else, and the
method takes an empty message. -/
def InvokedTruncated (input : Client.Input) (packet : List UInt8) (k : Nat) : Prop :=
  k + 1 = packet.length ∧ wrap32 input.packedSize = 0 ∧ MethodName (svc.methods.get i).name ∧
    svc.getMethodIndexByName (svc.methods.get i).name = i ∧
    ∃ message, (svc.methods.get i).unpack [] = some message ∧ callable svc i message = true

theorem requests_truncated {calloc : Nat → Bool} {input : Client.Input} {packet : List UInt8} {k : Nat}
    (hc : createPacket calloc (svc.methods.get i).name input = some packet) (hk : k < packet.length)
    {c : Server.Connection} (hstream : c.stream = packet.take k) (hstale : c.stale = zeroed)
    (h : c.requests i = true) : InvokedTruncated i input packet k := by
  obtain ⟨r, hr, rfl, hcallable⟩ := (Connection.requests_iff i).mp h
  have hstarts := createPacket_starts hc
  obtain ⟨hlong, hreceived⟩ := receivedRequest_eq_some hr
  have hlength : (packet.take k).length = k := List.length_take_of_le (Nat.le_of_lt hk)
  rw [hstream, hstale] at hreceived
  rw [hstream] at hlong
  obtain ⟨header, hp, _, hmessage, hdyn⟩ := hstarts.headerProcess hlong zeroed
  obtain ⟨hret, hindex, hsent, hunpack⟩ := hreceived header hp
  -- the copy is shorter than the header says, so it has no message
  have hdynlt : header.dynLen < word32 := wrap32_lt _
  have hcount : recvCount (packet.take k) header.dynLen = k := by
    have hsize : header.dynLen ≤ toSize header.dynLen := by
      unfold toSize
      split
      · exact Nat.le_refl _
      · exact Nat.le_add_right _ _
    rw [recvCount, hlength]
    omega
  have hempty : header.messageLength = 0 := by
    refine hsent.resolve_right fun heq => ?_
    rw [hcount, wrap32_of_lt (by omega), toInt32_inj (by omega) hdynlt] at heq
    omega
  rw [hcount, List.take_of_length_le (Nat.le_of_eq hlength)] at hret hindex hunpack
  rw [hempty] at hunpack
  -- the name that was found lies in the bytes that arrived
  obtain ⟨_, hfound, _⟩ := tlvHeaderProcess_spec svc.getMethodIndexByName
    (ofBytes (packet.take k) zeroed) headerSize TlvRequest.init
    (show header.extraHeaderSize < word32 from sub32_lt _ _)
  obtain ⟨_, pos, len, hpos, hlen, hmax, hfirst, hlast, hlookup⟩ := (hfound hret).resolve_left
    fun hinit => by
      rw [hinit.2] at hindex
      exact absurd hindex.symm (Nat.ne_of_lt (Nat.lt_trans r.methodIndex.isLt svc.methods_lt))
  rw [hindex] at hlookup
  have hname := Service.name_of_getMethodIndexByName hlookup.symm
  have hshort := length_cString_lt hlen hlast
  have hne : cString (ofBytes (packet.take k) zeroed) pos len ≠ [] := by
    obtain ⟨n, rfl⟩ := Nat.exists_eq_succ_of_ne_zero (Nat.ne_of_gt hlen)
    rw [cString, slice, List.range_succ_eq_map]
    simp [hfirst]
  rw [← hname] at hshort hne
  have hmethod : MethodName (svc.methods.get r.methodIndex).name :=
    ⟨hne, by omega, svc.name_ne_zero _ (List.get_mem _ _)⟩
  have hlastByte : pos + ((svc.methods.get r.methodIndex).name.length - 1) < k := by
    by_contra hge
    have hnonzero := @ne_zero_of_lt_cString (ofBytes (packet.take k) zeroed) pos len
      ((svc.methods.get r.methodIndex).name.length - 1) (by
        rw [← hname]
        exact Nat.sub_lt (List.length_pos_of_ne_nil hne) Nat.one_pos)
    refine hnonzero ?_
    rw [ofBytes, List.getElem?_eq_none (by omega)]
    rfl
  have hpositive := List.length_pos_of_ne_nil hne
  have htotal := hstarts.length_le
  rw [← hmessage, hempty] at htotal
  have htotal' : packet.length ≤ headerSize + (8 + ((svc.methods.get r.methodIndex).name.length + 1)) :=
    calc packet.length
      _ ≤ headerSize + wrap32 (tlvSize (wrap32 ((svc.methods.get r.methodIndex).name.length + 1))) :=
        Nat.le_trans htotal (Nat.le_trans (wrap32_le _) (wrap32_le _))
      _ ≤ headerSize + (8 + ((svc.methods.get r.methodIndex).name.length + 1)) :=
        Nat.add_le_add_left (Nat.le_trans (wrap32_le _) (Nat.add_le_add_left (wrap32_le _) 8)) _
  refine ⟨by omega, hmessage.symm.trans hempty, hmethod, ?_, r.message, hunpack, hcallable⟩
  rw [hname]
  exact hlookup.symm

/-- A packet with the name of method `i` and no message is a request, even if
what follows the bytes that arrive is part of it. -/
theorem receivedRequest_empty {c : Server.Connection}
    (hname : MethodName (svc.methods.get i).name)
    (hlookup : svc.getMethodIndexByName (svc.methods.get i).name = i)
    {message : Msg} (hunpack : (svc.methods.get i).unpack [] = some message)
    (hholds : Holds (ofBytes c.stream c.stale) 0
      (methodPacket .methodReq .unset (svc.methods.get i).name []))
    (hlong : headerSize ≤ c.stream.length)
    (hle : c.stream.length ≤ headerSize + tlvSize ((svc.methods.get i).name.length + 1)) :
    receivedRequest svc c = some ⟨i, (svc.methods.get i).name, message, c.calloc⟩ := by
  have hmax : (svc.methods.get i).name.length < 128 := hname.length_lt
  have htlvSize : tlvSize ((svc.methods.get i).name.length + 1) =
      8 + ((svc.methods.get i).name.length + 1) := rfl
  have hheaderSize : headerSize = 16 := rfl
  have hword : headerSize + tlvSize ((svc.methods.get i).name.length + 1) + 0 < word32 := by
    have : 1024 < word32 := by decide
    omega
  obtain ⟨header, hp, hannounces⟩ := headerProcess_methodPacket hholds (by intro word; simp) hword
  have hdyn : header.dynLen = headerSize + tlvSize ((svc.methods.get i).name.length + 1) :=
    hannounces.dynLen_eq hword
  have hcount : recvCount c.stream header.dynLen = c.stream.length := by
    rw [recvCount_of_lt _ (by omega)]
    omega
  have hpos : 0 < toInt32 (wrap32 c.stream.length) := by
    rw [wrap32_of_lt (by omega), toInt32_of_lt (by omega)]
    omega
  rw [methodPacket_eq, List.append_nil] at hholds
  have htlv := hholds.append.2
  rw [length_headerCreate, Nat.zero_add] at htlv
  have hread := @tlvHeaderProcess_of_holds svc.getMethodIndexByName _ _ _ htlv hname .init
  have hdefined : svc.getMethodIndexByName (svc.methods.get i).name ≠ undefinedMethod := by
    rw [hlookup]
    exact Nat.ne_of_lt (Nat.lt_trans i.isLt svc.methods_lt)
  rw [if_neg hdefined, hlookup] at hread
  unfold receivedRequest
  rw [if_neg (Nat.not_lt.mpr hlong), hp]
  dsimp only
  rw [if_neg (show ¬ (recvBufferSize < header.dynLen ∧ _) from fun h => by
    have : recvBufferSize = 512 := rfl
    omega), hcount, if_pos hpos, List.take_length]
  unfold processedRequest
  dsimp only
  rw [hannounces.extraHeaderSize_eq, if_pos ⟨hread.1, .inl hannounces.messageLength_eq⟩, hread.2,
    processorRequest, if_pos hannounces.msgType_eq, dif_pos i.isLt, hannounces.messageLength_eq]
  show ((svc.methods.get i).unpack []).map _ = _
  rw [hunpack]
  rfl

/-! ## Both copies -/

/-- What arrives on the connections, one list of bytes for each of them. -/
def deliveries (traffic : List Traffic) : List (List UInt8) :=
  traffic.filterMap fun
    | .sent bytes => some bytes
    | .connect | .close => none

theorem deliveries_append (xs ys : List Traffic) :
    deliveries (xs ++ ys) = deliveries xs ++ deliveries ys := List.filterMap_append

theorem deliveries_clientConnect (state : ClientState) (connects : Bool) :
    deliveries (clientConnect state connects).2 = [] := by
  unfold clientConnect
  split
  · rfl
  · split
    · rfl
    · rfl

/-- A call whose first send is cut leaves the bytes before the cut on one
connection, and at most one copy of the packet on another. -/
theorem deliveries_retry {first : Attempt} {k : Nat} (hcut : first.cut = some k)
    (state : ClientState) (second : Attempt) (packet : List UInt8) :
    ∃ copies, copies.length ≤ 1 ∧
      (deliveries (bufferSendRetryOnce state first second packet).2.2).Sublist
        (packet.take k :: copies) := by
  have hfirst := deliveries_clientConnect state first.connects
  have hsecond := deliveries_clientConnect .closed second.connects
  unfold bufferSendRetryOnce
  dsimp only
  rw [hcut]
  split
  · rw [hfirst]
    exact ⟨[], Nat.zero_le 1, List.nil_sublist _⟩
  · split
    · split
      · split
        · refine ⟨[(clientTransportSend second.cut packet).2], Nat.le_refl 1, ?_⟩
          simp only [deliveries_append, hfirst, hsecond]
          exact List.Sublist.refl _
        · refine ⟨[(clientTransportSend second.cut packet).2], Nat.le_refl 1, ?_⟩
          simp only [deliveries_append, hfirst, hsecond]
          exact List.Sublist.refl _
      · refine ⟨[], Nat.zero_le 1, ?_⟩
        simp only [deliveries_append, hfirst, hsecond]
        exact List.Sublist.refl _
    · refine ⟨[], Nat.zero_le 1, ?_⟩
      rw [deliveries_append, hfirst]
      exact List.Sublist.refl _

/-- The connections of the call, among what happens to the server. -/
def ownConnections (inputs : List (Bool × Server.Input svc)) : List Server.Connection :=
  inputs.filterMap fun
    | (true, .packet _ c) => some c
    | _ => none

/-- What else happens to the server. -/
def otherInputs (inputs : List (Bool × Server.Input svc)) : List (Server.Input svc) :=
  inputs.filterMap fun
    | (true, .packet _ _) => none
    | (_, input) => some input

/-- **At most one invocation** of method `i` for one call of
`cmsg_client_buffer_send_retry_once` whose first send is cut after `k` bytes,
whatever else the server receives and is called to do: beside what was queued and
what others requested, at most one more. -/
def AtMostOnce (packet : List UInt8) (k : Nat) : Prop :=
  ∀ (state : ClientState) (first second : Attempt), first.cut = some k →
  ∀ (s t : State svc) (inputs : List (Bool × Server.Input svc)) outputs,
    (∀ c ∈ ownConnections inputs, c.stale = zeroed) →
    ((ownConnections inputs).map (·.stream)).Subperm
      (deliveries (bufferSendRetryOnce state first second packet).2.2) →
    exec socketStep s (inputs.map (·.2)) = some (t, outputs) →
      callsOf i (invocations (outputs.map (·.2))) ≤
        s.queuedOf i + requestsOf i (otherInputs inputs) + 1

theorem requestsOf_split (inputs : List (Bool × Server.Input svc)) :
    requestsOf i (inputs.map (·.2)) = requestsOf i (otherInputs inputs) +
      (ownConnections inputs).countP (·.requests i) := by
  induction inputs with
  | nil => rfl
  | cons input inputs ih =>
    unfold requestsOf at ih ⊢
    rw [List.map_cons, List.countP_cons, ih]
    match input with
    | (true, .packet socket c) =>
      simp only [otherInputs, ownConnections, List.filterMap_cons, List.countP_cons]
      omega
    | (false, .packet socket c) =>
      simp only [otherInputs, ownConnections, List.filterMap_cons, List.countP_cons]
      omega
    | (true, .call op) =>
      simp only [otherInputs, ownConnections, List.filterMap_cons, List.countP_cons]
      omega
    | (false, .call op) =>
      simp only [otherInputs, ownConnections, List.filterMap_cons, List.countP_cons]
      omega

/-- Of the connections of the call only the one with the second copy can have a
request, unless the first is taken for one. -/
theorem ownRequests_le {calloc : Nat → Bool} {input : Client.Input} {packet : List UInt8} {k : Nat}
    (hc : createPacket calloc (svc.methods.get i).name input = some packet) (hk : k < packet.length)
    (hn : ¬ InvokedTruncated i input packet k) {first : Attempt} (hcut : first.cut = some k)
    {state : ClientState} {second : Attempt} {own : List Server.Connection}
    (hstale : ∀ c ∈ own, c.stale = zeroed)
    (hown : (own.map (·.stream)).Subperm
      (deliveries (bufferSendRetryOnce state first second packet).2.2)) :
    own.countP (·.requests i) ≤ 1 := by
  obtain ⟨copies, hcopies, hsub⟩ := deliveries_retry hcut state second packet
  have hwhole : ∀ c ∈ own, c.requests i = true → (c.stream != packet.take k) = true := by
    intro c hmem hrequests
    rw [bne_iff_ne]
    intro hstream
    exact hn (requests_truncated i hc hk hstream (hstale c hmem) hrequests)
  calc own.countP (·.requests i)
    _ ≤ own.countP ((fun stream => stream != packet.take k) ∘ (·.stream)) :=
      List.countP_mono_left hwhole
    _ = (own.map (·.stream)).countP (· != packet.take k) := List.countP_map.symm
    _ ≤ (packet.take k :: copies).countP (· != packet.take k) :=
      List.Subperm.countP_le _ (List.Subperm.trans hown hsub.subperm)
    _ = copies.countP (· != packet.take k) := by
      rw [List.countP_cons]
      simp
    _ ≤ copies.length := List.countP_le_length
    _ ≤ 1 := hcopies

theorem queueFilterLookup_serverCreate (rpc : Bool) :
    queueFilterLookup (serverCreate svc rpc).filters (svc.methods.get i).name = .process := by
  have hmem : (svc.methods.get i).name ∈ svc.names := List.mem_map_of_mem (List.get_mem _ _)
  rw [queueFilterLookup_eq (by decide)]
  show (filterInsertAll svc.names).lookup _ = _
  rw [lookup_filterInsertAll, if_pos hmem]

/-- A server without filters invokes a request at once. -/
theorem serverReceive_invokes {c : Server.Connection} {r : Request svc}
    (hr : receivedRequest svc c = some r) (hcallable : callable svc r.methodIndex r.message = true) :
    (serverReceive (serverCreate svc true) c).state = serverCreate svc true ∧
      invocations (serverReceive (serverCreate svc true) c).events =
        [(r.methodIndex.val, r.message)] := by
  have hreceive := serverReceive_request (serverCreate svc true) c
  have hlookup : queueFilterLookup (serverCreate svc true).filters r.methodName = .process :=
    queueFilterLookup_serverCreate r.methodIndex true
  rw [hr] at hreceive
  obtain ⟨hstate, hevents⟩ := hreceive
  rw [hstate, hevents, receive_state, receive_events, hlookup, if_neg (by simp)]
  dsimp only
  rw [invocations_serverInvokeImpl_eq _ _ (invocations_closure _ _ _ _), if_pos hcallable]
  exact ⟨rfl, rfl⟩

/-- What is left of the packet is followed by the terminator that it lacks. -/
theorem ofBytes_take {packet : List UInt8} {k : Nat} (hk : k + 1 = packet.length)
    (hlast : packet.getLast? = some 0) : ofBytes (packet.take k) zeroed = ofBytes packet zeroed := by
  funext p
  rcases Nat.lt_trichotomy p k with hlt | heq | hgt
  · simp [ofBytes, hlt]
  · rw [List.getLast?_eq_getElem?, ← hk, Nat.add_sub_cancel] at hlast
    rw [ofBytes, ofBytes, heq, hlast, List.getElem?_eq_none (List.length_take_le _ _)]
    rfl
  · rw [ofBytes, ofBytes, List.getElem?_eq_none, List.getElem?_eq_none]
    · omega
    · rw [List.length_take]
      omega

/-- A server without filters invokes the packet with an empty message, and also a
copy of it in which the zeros of the buffer make up for what is missing. -/
theorem copy_invoked (hname : MethodName (svc.methods.get i).name)
    (hlookup : svc.getMethodIndexByName (svc.methods.get i).name = i)
    {message : Msg} (hunpack : (svc.methods.get i).unpack [] = some message)
    (hcallable : callable svc i message = true) {copy : List UInt8}
    (hcopy : ofBytes copy zeroed =
      ofBytes (methodPacket .methodReq .unset (svc.methods.get i).name []) zeroed)
    (hlong : headerSize ≤ copy.length)
    (hle : copy.length ≤ headerSize + tlvSize ((svc.methods.get i).name.length + 1)) :
    let r := serverReceive (serverCreate svc true) ⟨copy, zeroed, fun _ => true⟩
    r.state = serverCreate svc true ∧ invocations r.events = [(i.val, message)] := by
  refine serverReceive_invokes (receivedRequest_empty i hname hlookup hunpack ?_ hlong hle) hcallable
  show Holds (ofBytes copy zeroed) 0 _
  rw [hcopy]
  exact holds_ofBytes _ zeroed

/-- Two packets that are invoked, one after the other. -/
theorem two_packets_invoked {c₁ c₂ : Server.Connection} {message : Msg}
    (h₁ : let r := serverReceive (serverCreate svc true) c₁
      r.state = serverCreate svc true ∧ invocations r.events = [(i.val, message)])
    (h₂ : let r := serverReceive (serverCreate svc true) c₂
      r.state = serverCreate svc true ∧ invocations r.events = [(i.val, message)]) :
    ∃ outputs, exec socketStep (serverCreate svc true) [.packet 0 c₁, .packet 1 c₂] =
        some (serverCreate svc true, outputs) ∧
      callsOf i (invocations (outputs.map (·.2))) = 2 := by
  refine ⟨(serverReceive (serverCreate svc true) c₁).events.map (fun event => (some 0, event)) ++
    (serverReceive (serverCreate svc true) c₂).events.map (fun event => (some 1, event)), ?_, ?_⟩
  · refine exec_cons.mpr ⟨serverCreate svc true, _, _, ?_, exec_cons.mpr
      ⟨serverCreate svc true, _, [], ?_, rfl, rfl⟩, by rw [List.append_nil]⟩
    · rw [socketStep, h₁.1]
    · rw [socketStep, h₂.1]
  · have hcalls : ∀ (socket : Nat) (events : List (Event Msg)),
        invocations events = [(i.val, message)] → callsOf i (invocations
          (events.map ((·.2) ∘ fun event => (some socket, event)))) = 1 := by
      intro socket events hevents
      have hmap : events.map ((·.2) ∘ fun event => (some socket, event)) = events :=
        List.map_id events
      rw [hmap, hevents, callsOf, List.countP_singleton, if_pos (by simp)]
    rw [List.map_append, invocations_append, callsOf_append, List.map_map, List.map_map,
      hcalls 0 _ h₁.2, hcalls 1 _ h₂.2]

theorem deliveries_resent {packet : List UInt8} (hlt : packet.length < 2 ^ 31) (k : Nat) :
    deliveries (bufferSendRetryOnce .connected ⟨true, some k⟩ ⟨true, none⟩ packet).2.2 =
      [packet.take k, packet] := by
  have hpos : (-1 : Int) < toInt32 packet.length := by
    rw [toInt32_of_lt hlt]
    omega
  simp only [bufferSendRetryOnce, clientConnect, clientTransportSend, if_pos hpos]
  simp [deliveries]

/-- The copy that lacks the terminator is invoked, and the second copy as well. -/
theorem invoked_twice {input : Client.Input} {packet : List UInt8} {k : Nat}
    {calloc : Nat → Bool}
    (hc : createPacket calloc (svc.methods.get i).name input = some packet)
    (h : InvokedTruncated i input packet k) : ¬ AtMostOnce i packet k := by
  obtain ⟨hk, hempty, hname, hlookup, message, hunpack, hcallable⟩ := h
  have hmax : (svc.methods.get i).name.length < 128 := hname.length_lt
  have htlv : tlvSize ((svc.methods.get i).name.length + 1) =
    8 + ((svc.methods.get i).name.length + 1) := rfl
  have hheader : headerSize = 16 := rfl
  have hword : 1024 < word32 := by decide
  obtain ⟨hpacket, _⟩ := createPacket_take hc (by omega)
  rw [hempty, List.take_zero] at hpacket
  have hlength : packet.length = headerSize + tlvSize ((svc.methods.get i).name.length + 1) := by
    rw [hpacket]
    exact length_methodPacket _ _ _ _
  have hlast : packet.getLast? = some 0 := by
    rw [hpacket, methodPacket_eq, List.append_nil, List.getLast?_append, methodTlv,
      List.getLast?_append, List.getLast?_append, List.getLast?_append]
    rfl
  have htake : (packet.take k).length = k := List.length_take_of_le (by omega)
  have hinvoked := fun {copy : List UInt8} (hcopy : ofBytes copy zeroed = ofBytes packet zeroed) =>
    @copy_invoked _ svc i hname hlookup message hunpack hcallable copy (by rw [hcopy, hpacket])
  obtain ⟨outputs, hrun, hcalls⟩ := two_packets_invoked i
    (hinvoked (ofBytes_take hk hlast) (by omega) (by omega)) (hinvoked rfl (by omega) (by omega))
  intro honce
  have htwice := honce .connected ⟨true, some k⟩ ⟨true, none⟩ rfl (serverCreate svc true)
    (serverCreate svc true) [(true, .packet 0 ⟨packet.take k, zeroed, fun _ => true⟩),
      (true, .packet 1 ⟨packet, zeroed, fun _ => true⟩)] outputs ?_ ?_ hrun
  · rw [hcalls] at htwice
    exact Nat.not_succ_le_self 1 htwice
  · intro c hmem
    simp only [ownConnections, List.filterMap_cons, List.filterMap_nil, List.mem_cons,
      List.not_mem_nil, or_false] at hmem
    rcases hmem with rfl | rfl
    · rfl
    · rfl
  · rw [deliveries_resent (by omega)]
    exact List.Subperm.refl _

/-- **At most once, exactly when the truncated copy is not taken for a whole one.** -/
theorem at_most_once_iff {calloc : Nat → Bool} {input : Client.Input} {packet : List UInt8} {k : Nat}
    (hc : createPacket calloc (svc.methods.get i).name input = some packet)
    (hk : k < packet.length) : AtMostOnce i packet k ↔ ¬ InvokedTruncated i input packet k := by
  constructor
  · intro h htruncated
    exact invoked_twice i hc htruncated h
  · intro hn state first second hcut s t inputs outputs hstale hown he
    have hcalls := callsOf_run i he
    have hown := ownRequests_le i hc hk hn hcut hstale hown
    rw [requestsOf_split] at hcalls
    omega

end

/-- A request of one byte, cut before that byte, is invoked at most once. -/
theorem at_most_once_sample : AtMostOnce (⟨0, by decide⟩ : Fin sampleService.nMethods)
    (methodPacket .methodReq .unset sampleName [1]) 29 := by
  have hc : createPacket (fun _ => true) (sampleService.methods.get ⟨0, by decide⟩).name ⟨1, [1]⟩ =
      some (methodPacket .methodReq .unset sampleName [1]) := by
    decide
  refine (at_most_once_iff _ hc (by decide)).mpr ?_
  intro h
  exact absurd h.2.1 (by decide)

/-- An empty request, cut before the terminator of its method's name, is invoked
twice. -/
theorem empty_request_invoked_twice :
    createPacket (fun _ => true) sampleName ⟨0, []⟩ =
        some (methodPacket .methodReq .unset sampleName []) ∧
      (methodPacket .methodReq .unset sampleName []).length = 29 ∧
      ¬ AtMostOnce (⟨0, by decide⟩ : Fin sampleService.nMethods)
        (methodPacket .methodReq .unset sampleName []) 28 := by
  have hc : createPacket (fun _ => true) (sampleService.methods.get ⟨0, by decide⟩).name ⟨0, []⟩ =
      some (methodPacket .methodReq .unset sampleName []) := by
    decide
  refine ⟨hc, rfl, invoked_twice _ hc ⟨rfl, rfl, ⟨by decide, by decide, ?_⟩, by decide, ?_⟩⟩
  · show ∀ c ∈ sampleName, c ≠ 0
    simp [sampleName]
  · exact ⟨[], by decide, by decide⟩

end Cmsg.Rpc
