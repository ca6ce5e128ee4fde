import Cmsg.Client.Composite

/-! # The status of a composite call

The first loop of `cmsg_composite_client_invoke` keeps a `CMSG_RET_ERR` of a child, the
second one does not: the last receive that fails decides what is returned. -/
namespace Cmsg.Client
open Cmsg.Base Cmsg.Wire

variable {Msg : Type}

/-- What `invoke_recv` returns for a child that was sent to and has one. -/
def Child.recvRets (d : Descriptor Msg) (child : Child Msg) : List RetCode :=
  if child.sendRet = .ok ∧ child.twoWay = true then [(invokeRecv d child.received).ret] else []

/-- The results of all receives, in the order of the calls. -/
def recvRets (d : Descriptor Msg) (children : List (Child Msg)) : List RetCode :=
  children.flatMap (Child.recvRets d)

/-- The results of all calls to children. -/
def childRets (d : Descriptor Msg) (children : List (Child Msg)) : List RetCode :=
  children.map (·.sendRet) ++ recvRets d children

def failures (rets : List RetCode) : List RetCode := rets.filter (· ≠ .ok)

/-- An error of any child is reported, and success where all succeed. -/
structure StatusReported (d : Descriptor Msg) (children : List (Child Msg)) : Prop where
  error : RetCode.err ∈ childRets d children →
    (compositeClientInvoke d children).overallResult = .err
  success : (∀ ret ∈ childRets d children, ret = .ok) →
    (compositeClientInvoke d children).overallResult = .ok

/-! ## The loop that sends -/

/-- An error is not overwritten. -/
theorem foldl_sendChild_eq_err (children : List (Child Msg)) :
    ∀ overallResult : RetCode, children.foldl sendChild overallResult = .err ↔
      overallResult = .err ∨ RetCode.err ∈ children.map (·.sendRet) := by
  induction children with
  | nil => simp
  | cons child children ih =>
    intro overallResult
    rw [List.foldl_cons, ih, List.map_cons, List.mem_cons]
    have hchild : sendChild overallResult child = .err ↔
        overallResult = .err ∨ RetCode.err = child.sendRet := by
      unfold sendChild
      split
      · next hok => simp [hok]
      · split
        · next hne => simp [hne, eq_comm]
        · next herr => simp [not_not.mp herr]
    rw [hchild, or_assoc]

theorem foldl_sendChild_ok {children : List (Child Msg)} (h : ∀ child ∈ children, child.sendRet = .ok) :
    children.foldl sendChild .ok = .ok := by
  induction children with
  | nil => rfl
  | cons child children ih =>
    have hok : sendChild .ok child = .ok := if_pos (h child List.mem_cons_self)
    rw [List.foldl_cons, hok]
    exact ih fun c hc => h c (List.mem_cons_of_mem _ hc)

/-! ## The loop that receives -/

theorem getLastD_append {α : Type} (l l' : List α) (a : α) :
    (l ++ l').getLastD a = l'.getLastD (l.getLastD a) := by
  induction l generalizing a with
  | nil => rfl
  | cons b l ih => rw [List.cons_append, List.getLastD_cons, List.getLastD_cons, ih]

/-- A receive that fails overwrites what there is. -/
theorem receiveChild_overallResult {d : Descriptor Msg} {s : CompositeState Msg}
    {child : Child Msg} (hsent : child.sendRet = .ok) :
    (receiveChild d s child).overallResult =
      (failures (child.recvRets d)).getLastD s.overallResult := by
  have hstore : ∀ message, (storeMessage s message).overallResult = s.overallResult := by
    intro message
    cases message with
    | none => rfl
    | some message => rfl
  unfold receiveChild Child.recvRets failures
  cases htwo : child.twoWay with
  | false => simp
  | true =>
    by_cases hret : (invokeRecv d child.received).ret = .ok
    · simp [hsent, hret, hstore]
    · simp [hsent, hret]

theorem foldl_receiveChild_overallResult {d : Descriptor Msg} (children : List (Child Msg)) :
    ∀ s : CompositeState Msg,
      ((children.filter fun child => child.sendRet = .ok).foldl (receiveChild d) s).overallResult =
        (failures (recvRets d children)).getLastD s.overallResult := by
  induction children with
  | nil => exact fun s => rfl
  | cons child children ih =>
    intro s
    have hsplit : failures (recvRets d (child :: children)) =
        failures (child.recvRets d) ++ failures (recvRets d children) := by
      rw [recvRets, List.flatMap_cons, failures, List.filter_append]
      rfl
    rw [hsplit, getLastD_append]
    by_cases hsent : child.sendRet = .ok
    · rw [List.filter_cons_of_pos (by simpa using hsent), List.foldl_cons, ih,
        receiveChild_overallResult hsent]
    · have hnone : child.recvRets d = [] := if_neg fun h => hsent h.1
      rw [List.filter_cons_of_neg (by simpa using hsent), ih, hnone]
      rfl

/-- The last receive that fails decides; the sends do where none fails. -/
theorem compositeClientInvoke_overallResult (d : Descriptor Msg) (children : List (Child Msg)) :
    (compositeClientInvoke d children).overallResult =
      (failures (recvRets d children)).getLastD (children.foldl sendChild .ok) :=
  foldl_receiveChild_overallResult children _

/-! ## What is reported -/

/-- **The status is reported** exactly where no child returns an error, or no receive
fails after the last receive with an error. -/
theorem status_reported_iff (d : Descriptor Msg) (children : List (Child Msg)) :
    StatusReported d children ↔ (RetCode.err ∈ childRets d children →
      ∀ ret, (failures (recvRets d children)).getLast? = some ret → ret = .err) := by
  have hresult := compositeClientInvoke_overallResult d children
  constructor
  · intro h herr ret hlast
    have hreported := h.error herr
    rw [hresult, List.getLastD_eq_getLast?, hlast] at hreported
    exact hreported
  · intro h
    refine ⟨fun herr => ?_, fun hall => ?_⟩
    · rw [hresult, List.getLastD_eq_getLast?]
      cases hlast : (failures (recvRets d children)).getLast? with
      | some ret => exact h herr ret hlast
      | none =>
        -- no receive failed, so the error is that of a send
        rw [Option.getD_none, foldl_sendChild_eq_err]
        refine .inr ((List.mem_append.mp herr).resolve_right fun hrecv => ?_)
        have hmem : RetCode.err ∈ failures (recvRets d children) :=
          List.mem_filter.mpr ⟨hrecv, rfl⟩
        rw [List.getLast?_eq_none_iff.mp hlast] at hmem
        exact absurd hmem List.not_mem_nil
    · have hnone : failures (recvRets d children) = [] := by
        refine List.filter_eq_nil_iff.mpr fun ret hret => ?_
        simp [hall ret (List.mem_append_right _ hret)]
      rw [hresult, hnone]
      refine foldl_sendChild_ok fun child hchild => ?_
      exact hall _ (List.mem_append_left _ (List.mem_map_of_mem hchild))

/-- A child whose send fails, and one whose request is queued by its server. -/
def failingThenQueued : List (Child (List UInt8)) :=
  [⟨.err, true, .withoutMessage .serviceFailed⟩, ⟨.ok, true, .withoutMessage .serviceQueued⟩]

/-- That a request was queued hides that another one was never sent. -/
theorem queued_hides_error :
    RetCode.err ∈ childRets sampleDescriptor failingThenQueued ∧
      (compositeClientInvoke sampleDescriptor failingThenQueued).overallResult = .queued ∧
      ¬ StatusReported sampleDescriptor failingThenQueued := by
  have hmem : RetCode.err ∈ childRets sampleDescriptor failingThenQueued := List.mem_cons_self
  have hqueued : (compositeClientInvoke sampleDescriptor failingThenQueued).overallResult =
      .queued := rfl
  refine ⟨hmem, hqueued, fun h => ?_⟩
  have herr := h.error hmem
  rw [hqueued] at herr
  cases herr

end Cmsg.Client
