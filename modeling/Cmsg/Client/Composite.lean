import Cmsg.Client.Receive

/-! # Invoking a composite client

`cmsg_composite_client_invoke` sends to every child and then receives from those it
sent to, each reply in the next entry of the closure data of `cmsg_api_invoke`, which
hands the messages on up to the first entry without one. -/
namespace Cmsg.Client
open Cmsg.Base Cmsg.Wire

variable {Msg : Type}

/-- `CMSG_MAX_CLIENTS` -/
def cmsgMaxClients : Nat := 24

/-- `CMSG_RECV_ARRAY_SIZE` -/
def cmsgRecvArraySize : Nat := cmsgMaxClients + 1

/-- A child in one call: what its `invoke_send` returns, whether it has an
`invoke_recv`, and what it then receives. -/
structure Child (Msg : Type) where
  sendRet : RetCode
  twoWay : Bool
  received : Received Msg

/-- The closure data, with the entries that were written, and the local variables of
`cmsg_composite_client_invoke`. -/
structure CompositeState (Msg : Type) where
  message : Nat → Option Msg
  written : List Nat
  i : Nat
  overallResult : RetCode

/-- An error of a child does not overwrite `CMSG_RET_ERR`. -/
def sendChild (overallResult : RetCode) (child : Child Msg) : RetCode :=
  if child.sendRet = .ok then overallResult
  else if overallResult ≠ .err then child.sendRet
  else overallResult

/-- `cmsg_client_invoke_recv` leaves the message, if there is one, in entry `i`. -/
def storeMessage (s : CompositeState Msg) : Option Msg → CompositeState Msg
  | none => s
  | some message =>
    { s with
      message := fun j => if j = s.i then some message else s.message j
      written := s.i :: s.written }

/-- The reply of a child goes to entry `i`, which is left for the next one where the
child fails. -/
def receiveChild (d : Descriptor Msg) (s : CompositeState Msg) (child : Child Msg) :
    CompositeState Msg :=
  if child.twoWay = false then s
  else
    let r := invokeRecv d child.received
    let s := storeMessage s r.message
    if r.ret = .ok then { s with i := s.i + 1 } else { s with overallResult := r.ret }

/-- `cmsg_composite_client_invoke`, on closure data without messages -/
def compositeClientInvoke (d : Descriptor Msg) (children : List (Child Msg)) :
    CompositeState Msg :=
  let overallResult := children.foldl sendChild .ok
  (children.filter fun child => child.sendRet = .ok).foldl (receiveChild d)
    { message := fun _ => none, written := [], i := 0, overallResult }

/-- What an API call returns, the entries of `recv_msg` that it sets, the messages that
it frees, and the entries of the closure data that it wrote and read. -/
structure ApiResult (Msg : Type) where
  ret : RetCode
  recvMsg : List (Nat × Msg)
  freed : List Msg
  written : List Nat
  read : List Nat

/-- The loop of `cmsg_api_process_closure_data` from entry `i`, with `left` entries left
in the array. What it finds outside of the array is not known. -/
def processClosureLoop (nFields : Msg → Nat) (message : Nat → Option Msg) :
    (left i : Nat) → List (Nat × Msg) × List Msg × List Nat
  | 0, i => ([], [], [i])
  | left + 1, i =>
    match message i with
    | none => ([], [], [i])
    | some msg =>
      let (recvMsg, freed, read) := processClosureLoop nFields message left (i + 1)
      if nFields msg > 0 then ((i, msg) :: recvMsg, freed, i :: read)
      else (recvMsg, msg :: freed, i :: read)

/-- What a method extension answers in place of the server: the response of a file that
is missing or there, or that of a service that is not supported. -/
inductive ExtensionResponse (Msg : Type)
  | noFile (response : Option Msg)
  | file (response : Option Msg)
  | unsupported (response : Option Msg)

/-- `cmsg_api_invoke` of a composite client -/
def apiInvoke (d : Descriptor Msg) (nFields : Msg → Nat)
    (extension : Option (ExtensionResponse Msg)) (children : List (Child Msg)) : ApiResult Msg :=
  let answer := fun ret response =>
    ({ ret, recvMsg := response.toList.map fun m => (0, m), freed := [], written := [],
       read := [] } : ApiResult Msg)
  match extension with
  | some (.noFile response) => answer .ok response
  | some (.file response) => answer (if response.isSome then .ok else .err) response
  | some (.unsupported response) => answer .ok response
  | none =>
    let s := compositeClientInvoke d children
    let (recvMsg, freed, read) := processClosureLoop nFields s.message cmsgRecvArraySize 0
    { ret := s.overallResult, recvMsg, freed, written := s.written, read }

/-! ## The replies -/

/-- The reply of a child that was sent to and did not fail, with its message if it
has one. -/
def Child.replies (d : Descriptor Msg) (child : Child Msg) : List (Option Msg) :=
  if child.sendRet = .ok ∧ child.twoWay = true ∧ (invokeRecv d child.received).ret = .ok then
    [(invokeRecv d child.received).message]
  else []

def okReplies (d : Descriptor Msg) (children : List (Child Msg)) : List (Option Msg) :=
  children.flatMap (Child.replies d)

/-- The messages that the children received. -/
def receivedMessages (d : Descriptor Msg) (children : List (Child Msg)) : List Msg :=
  (okReplies d children).filterMap id

/-- Every message that was received is placed in an entry of `recv_msg` of its own where
its type has fields, and freed where not, and only the array was accessed. -/
structure Delivers (nFields : Msg → Nat) (r : ApiResult Msg) (messages : List Msg) : Prop where
  placed : r.recvMsg.map Prod.snd = messages.filter fun m => 0 < nFields m
  distinct : (r.recvMsg.map Prod.fst).Pairwise (· < ·)
  freed : r.freed = messages.filter fun m => nFields m = 0
  written : ∀ i ∈ r.written, i < cmsgRecvArraySize
  read : ∀ i ∈ r.read, i < cmsgRecvArraySize

/-- The replies with messages come before those without, and there are at most
`CMSG_MAX_CLIENTS` of them. -/
def MessagesFirst (replies : List (Option Msg)) : Prop :=
  ∃ (messages : List Msg) (n : Nat), messages.length ≤ cmsgMaxClients ∧
    replies = messages.map some ++ List.replicate n none

/-- A child that fails has no message. -/
theorem invokeRecv_message_of_ne_ok {d : Descriptor Msg} {r : Received Msg}
    (h : (invokeRecv d r).ret ≠ .ok) : (invokeRecv d r).message = none := by
  rw [invokeRecv_message, Option.map_eq_none_iff]
  by_contra hmessage
  exact h ((invokeRecv_ok_iff d r).mpr (r.message_success hmessage))

/-! ## Receiving -/

/-- The closure data hold the replies so far. -/
structure Holds (s : CompositeState Msg) (replies : List (Option Msg)) : Prop where
  message : ∀ j, s.message j = (replies[j]?).join
  i : s.i = replies.length
  written : ∀ j, j ∈ s.written ↔ ∃ m, replies[j]? = some (some m)

theorem getElem?_snoc {α : Type} (l : List α) (x : α) (j : Nat) :
    (l ++ [x])[j]? = if j = l.length then some x else l[j]? := by
  rcases Nat.lt_trichotomy j l.length with hj | hj | hj
  · rw [List.getElem?_append_left hj, if_neg (Nat.ne_of_lt hj)]
  · subst hj
    simp
  · rw [if_neg (Nat.ne_of_gt hj), List.getElem?_eq_none (by simp; omega),
      List.getElem?_eq_none (Nat.le_of_lt hj)]

theorem Holds.snoc {s : CompositeState Msg} {replies : List (Option Msg)} (h : Holds s replies)
    (reply : Option Msg) :
    Holds { storeMessage s reply with i := (storeMessage s reply).i + 1 } (replies ++ [reply]) := by
  obtain ⟨hm, hi, hw⟩ := h
  cases reply with
  | none =>
    refine ⟨fun j => ?_, by simp [storeMessage, hi], fun j => ?_⟩
    · rw [getElem?_snoc]
      split
      · next hj => simp [storeMessage, hm, hj]
      · exact hm j
    · rw [getElem?_snoc]
      split
      · next hj => simp [storeMessage, hw, hj]
      · exact hw j
  | some message =>
    refine ⟨fun j => ?_, by simp [storeMessage, hi], fun j => ?_⟩
    · rw [getElem?_snoc]
      simp only [storeMessage, hi]
      split
      · rfl
      · exact hm j
    · rw [getElem?_snoc]
      simp only [storeMessage, hi, List.mem_cons]
      split
      · next hj => simp [hj]
      · next hj => simp [hj, hw]

theorem holds_receiveChild {d : Descriptor Msg} {s : CompositeState Msg}
    {replies : List (Option Msg)} (h : Holds s replies) {child : Child Msg}
    (hsent : child.sendRet = .ok) :
    Holds (receiveChild d s child) (replies ++ child.replies d) := by
  unfold receiveChild Child.replies
  cases htwo : child.twoWay with
  | false => simpa using h
  | true =>
    by_cases hret : (invokeRecv d child.received).ret = .ok
    · simp only [Bool.true_eq_false, if_false, hret, hsent, and_self, if_true]
      exact h.snoc _
    · simp only [Bool.true_eq_false, if_false, hret, invokeRecv_message_of_ne_ok hret, and_false,
        List.append_nil, storeMessage]
      exact ⟨h.message, h.i, h.written⟩

theorem holds_foldl {d : Descriptor Msg} (children : List (Child Msg)) :
    ∀ {s : CompositeState Msg} {replies : List (Option Msg)}, Holds s replies →
      Holds ((children.filter fun child => child.sendRet = .ok).foldl (receiveChild d) s)
        (replies ++ okReplies d children) := by
  induction children with
  | nil =>
    intro s replies h
    simpa [okReplies] using h
  | cons child children ih =>
    intro s replies h
    by_cases hsent : child.sendRet = .ok
    · have hone := ih (holds_receiveChild (d := d) h hsent)
      simpa [okReplies, hsent] using hone
    · have hnone : child.replies d = [] := by simp [Child.replies, hsent]
      have hone := ih h
      simpa [okReplies, hsent, hnone] using hone

theorem holds_compositeClientInvoke (d : Descriptor Msg) (children : List (Child Msg)) :
    Holds (compositeClientInvoke d children) (okReplies d children) := by
  have h₀ : Holds (⟨fun _ => none, [], 0, children.foldl sendChild .ok⟩ : CompositeState Msg) [] :=
    ⟨fun _ => rfl, rfl, fun j => by simp⟩
  have h := holds_foldl (d := d) children h₀
  rw [List.nil_append] at h
  exact h

/-! ## Handing the messages on -/

/-- The messages before the first reply without one. -/
def leading : List (Option Msg) → List Msg
  | some message :: replies => message :: leading replies
  | _ => []

/-- The loop hands on the messages before the first gap, as far as the array goes, and
looks at one entry more. -/
theorem processClosureLoop_eq (nFields : Msg → Nat) {message : Nat → Option Msg} (left : Nat) :
    ∀ (i : Nat) (replies : List (Option Msg)), (∀ j, message (i + j) = (replies[j]?).join) →
      let r := processClosureLoop nFields message left i
      let handed := leading (replies.take left)
      r.1.map Prod.snd = (handed.filter fun m => 0 < nFields m) ∧
      r.2.1 = (handed.filter fun m => nFields m = 0) ∧
      (∀ j ∈ r.1.map Prod.fst, i ≤ j) ∧ (r.1.map Prod.fst).Pairwise (· < ·) ∧
      r.2.2 = List.range' i (handed.length + 1) := by
  induction left with
  | zero =>
    intro i replies _
    simp [processClosureLoop, leading]
  | succ left ih =>
    intro i replies h
    have h0 := h 0
    rw [Nat.add_zero] at h0
    unfold processClosureLoop
    rcases replies with _ | ⟨_ | msg, replies⟩
    · simp [h0, leading]
    · simp [h0, leading]
    · have hrest : ∀ j, message (i + 1 + j) = (replies[j]?).join := by
        intro j
        have hj := h (j + 1)
        rwa [List.getElem?_cons_succ, ← Nat.add_assoc, Nat.add_right_comm] at hj
      obtain ⟨hplaced, hfreed, hfrom, hpair, hread⟩ := ih (i + 1) replies hrest
      simp only [List.getElem?_cons_zero, Option.join_some] at h0
      simp only [h0, List.take_succ_cons, leading]
      have hrange : i :: List.range' (i + 1) ((leading (replies.take left)).length + 1) =
          List.range' i ((leading (replies.take left)).length + 1 + 1) := rfl
      by_cases hn : 0 < nFields msg
      · have hz : nFields msg ≠ 0 := Nat.ne_of_gt hn
        refine ⟨?_, ?_, ?_, ?_, ?_⟩
        · simp [hn, hplaced]
        · simp [hn, hz, hfreed]
        · simp only [gt_iff_lt, hn, if_true, List.map_cons, List.mem_cons]
          intro j hj
          rcases hj with rfl | hj
          · exact Nat.le_refl _
          · exact Nat.le_of_succ_le (hfrom j hj)
        · simp only [gt_iff_lt, hn, if_true, List.map_cons, List.pairwise_cons]
          exact ⟨fun j hj => hfrom j hj, hpair⟩
        · simp only [gt_iff_lt, hn, if_true, hread]
          exact hrange
      · have hz : nFields msg = 0 := by omega
        refine ⟨?_, ?_, ?_, ?_, ?_⟩
        · simp [hz, hplaced]
        · simp [hz, hfreed]
        · simp only [gt_iff_lt, hn, if_false]
          exact fun j hj => Nat.le_of_succ_le (hfrom j hj)
        · simp only [gt_iff_lt, hn, if_false]
          exact hpair
        · simp only [gt_iff_lt, hn, if_false, hread]
          exact hrange

/-! ## Replies and gaps -/

/-- Handing on as many messages as there are means that no gap comes before one. -/
theorem eq_of_leading_length {replies : List (Option Msg)}
    (h : (leading replies).length = (replies.filterMap id).length) :
    ∃ n, replies = (replies.filterMap id).map some ++ List.replicate n none := by
  induction replies with
  | nil => exact ⟨0, rfl⟩
  | cons reply replies ih =>
    cases reply with
    | none =>
      have hnone : replies.filterMap id = [] :=
        List.length_eq_zero_iff.mp (by simpa [leading] using h.symm)
      refine ⟨replies.length + 1, ?_⟩
      have hall : ∀ r ∈ replies, r = none := by simpa [List.filterMap_eq_nil_iff] using hnone
      show none :: replies = (replies.filterMap id).map some ++ _
      rw [hnone, List.replicate_succ]
      exact congrArg (List.cons none) (List.eq_replicate_of_mem hall)
    | some msg =>
      obtain ⟨n, hn⟩ := ih (by simpa [leading] using h)
      exact ⟨n, congrArg (List.cons (some msg)) hn⟩

theorem leading_take (n : Nat) : ∀ replies : List (Option Msg),
    leading (replies.take n) = (leading replies).take n := by
  induction n with
  | zero => exact fun _ => rfl
  | succ n ih =>
    intro replies
    rcases replies with _ | ⟨_ | msg, replies⟩
    · rfl
    · rfl
    · simp [leading, ih]

theorem leading_messages (messages : List Msg) (n : Nat) :
    leading (messages.map some ++ List.replicate n none) = messages := by
  induction messages with
  | nil => cases n <;> rfl
  | cons m messages ih => simp [leading, ih]

theorem length_filter_add (nFields : Msg → Nat) (messages : List Msg) :
    (messages.filter fun m => 0 < nFields m).length +
      (messages.filter fun m => nFields m = 0).length = messages.length := by
  induction messages with
  | nil => rfl
  | cons m messages ih =>
    rcases Nat.eq_zero_or_pos (nFields m) with hn | hn
    · simp only [List.filter_cons, hn, Nat.lt_irrefl, decide_false, Bool.false_eq_true, if_false,
        decide_true, if_true, List.length_cons]
      omega
    · simp only [List.filter_cons, hn, decide_true, if_true, Nat.ne_of_gt hn, decide_false,
        Bool.false_eq_true, if_false, List.length_cons]
      omega

/-! ## Delivery -/

theorem apiInvoke_written (d : Descriptor Msg) (nFields : Msg → Nat)
    (children : List (Child Msg)) (j : Nat) :
    j ∈ (apiInvoke d nFields none children).written ↔ ∃ m, (okReplies d children)[j]? = some (some m) :=
  (holds_compositeClientInvoke d children).written j

/-- What the call hands on, in terms of the replies. -/
theorem apiInvoke_handed (d : Descriptor Msg) (nFields : Msg → Nat) (children : List (Child Msg)) :
    let r := apiInvoke d nFields none children
    let handed := leading ((okReplies d children).take cmsgRecvArraySize)
    r.recvMsg.map Prod.snd = (handed.filter fun m => 0 < nFields m) ∧
      r.freed = (handed.filter fun m => nFields m = 0) ∧
      (r.recvMsg.map Prod.fst).Pairwise (· < ·) ∧ r.read = List.range' 0 (handed.length + 1) := by
  have hm : ∀ j, (compositeClientInvoke d children).message (0 + j) =
      ((okReplies d children)[j]?).join := by
    intro j
    rw [Nat.zero_add]
    exact (holds_compositeClientInvoke d children).message j
  obtain ⟨hplaced, hfreed, _, hpair, hread⟩ :=
    processClosureLoop_eq nFields cmsgRecvArraySize 0 (okReplies d children) hm
  exact ⟨hplaced, hfreed, hpair, hread⟩

/-- **Every message that a child receives is delivered**, within the closure array,
exactly when the replies with messages come first and are no more than the clients that
the array is made for. -/
theorem delivers_iff (d : Descriptor Msg) (nFields : Msg → Nat) (children : List (Child Msg)) :
    Delivers nFields (apiInvoke d nFields none children) (receivedMessages d children) ↔
      MessagesFirst (okReplies d children) := by
  obtain ⟨hplaced, hfreed, hpair, hread⟩ := apiInvoke_handed d nFields children
  rw [leading_take] at hplaced hfreed hread
  constructor
  · intro h
    have hsize : cmsgRecvArraySize = cmsgMaxClients + 1 := rfl
    have hlast : ((leading (okReplies d children)).take cmsgRecvArraySize).length <
        cmsgRecvArraySize := by
      refine h.read _ ?_
      rw [hread]
      simp
    have hshort : (leading (okReplies d children)).length ≤ cmsgMaxClients := by
      rw [List.length_take] at hlast
      omega
    have htake : (leading (okReplies d children)).take cmsgRecvArraySize =
        leading (okReplies d children) := List.take_of_length_le (by omega)
    have hcount := length_filter_add nFields (receivedMessages d children)
    rw [← h.placed, ← h.freed, hplaced, hfreed, length_filter_add, htake] at hcount
    obtain ⟨n, hn⟩ := eq_of_leading_length hcount
    exact ⟨receivedMessages d children, n, hcount ▸ hshort, hn⟩
  · intro ⟨messages, n, hlen, hreplies⟩
    have hsize : cmsgRecvArraySize = cmsgMaxClients + 1 := rfl
    have hreceived : receivedMessages d children = messages := by
      unfold receivedMessages
      rw [hreplies]
      simp [List.filterMap_map]
    have htake : (leading (okReplies d children)).take cmsgRecvArraySize = messages := by
      rw [hreplies, leading_messages]
      exact List.take_of_length_le (by omega)
    rw [htake] at hplaced hfreed hread
    refine ⟨by rw [hplaced, hreceived], hpair, by rw [hfreed, hreceived], fun j hj => ?_,
      fun j hj => ?_⟩
    · obtain ⟨m, hm⟩ := (apiInvoke_written d nFields children j).mp hj
      by_contra hge
      rw [hreplies, List.getElem?_append_right (by rw [List.length_map]; omega)] at hm
      simp [List.getElem?_replicate] at hm
    · rw [hread, List.mem_range'_1] at hj
      omega

def sampleDescriptor : Descriptor (List UInt8) :=
  { getMethodIndexByName := fun _ => 0, unpackOutput := fun _ bytes => some bytes,
    freeUnknownFields := id }

/-- A child that replies with a message, or with a bare header. -/
def replyingChild (message : Option (List UInt8)) : Child (List UInt8) :=
  ⟨.ok, true, ⟨.success, message, false, fun _ => rfl⟩⟩

/-- A child that replies without a message hides the message of the next one. -/
theorem bare_reply_hides_message :
    receivedMessages sampleDescriptor [replyingChild none, replyingChild (some [1])] = [[1]] ∧
      (apiInvoke sampleDescriptor List.length none
        [replyingChild none, replyingChild (some [1])]).recvMsg = [] ∧
      ¬ Delivers List.length
        (apiInvoke sampleDescriptor List.length none
          [replyingChild none, replyingChild (some [1])])
        (receivedMessages sampleDescriptor [replyingChild none, replyingChild (some [1])]) := by
  refine ⟨rfl, rfl, fun h => ?_⟩
  have := h.placed
  revert this
  decide

end Cmsg.Client
