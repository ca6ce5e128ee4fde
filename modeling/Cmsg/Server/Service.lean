import Mathlib.Data.List.GetD
import Cmsg.Wire.Header

/-! # Services and their methods

A service is known to the server by its descriptor: the methods in the order
of their indices, and the table of indices in the order of the names that
`protobuf_c_service_descriptor_get_method_index_by_name` searches. Messages are
whatever a method's `unpack` makes of the bytes it is handed; of a response
only its packed form matters. -/
namespace Cmsg.Server
open Cmsg.Base Cmsg.Wire

/-- A response message: what `protobuf_c_message_get_packed_size` returns for it
and the bytes that `protobuf_c_message_pack` writes. -/
structure Response where
  packedSize : Nat
  packed : List UInt8
deriving DecidableEq, Repr

/-- What a validation function decides: a response is sent for invalid input. -/
inductive Validation
  | valid
  | invalid (response : Option Response)

/-- A method: how its input is unpacked, and what its `cmsg_impl_info` holds.
An implementation calls its closure exactly once, with the response it returns
here; a missing one (`impl_func == NULL`) is that of a file response method. -/
structure Method (Msg : Type) where
  name : CString
  unpack : List UInt8 → Option Msg
  validationFunc : Option (Msg → Validation)
  implFunc : Option (Msg → Option Response)

/-- A service descriptor as the generator writes it. -/
structure Service (Msg : Type) where
  methods : List (Method Msg)
  methodIndicesByName : List Nat
  indices_length : methodIndicesByName.length = methods.length
  indices_lt : ∀ i ∈ methodIndicesByName, i < methods.length
  methods_lt : methods.length < undefinedMethod
  name_ne_zero : ∀ m ∈ methods, ∀ c ∈ m.name, c ≠ 0

variable {Msg : Type}

def Service.nMethods (svc : Service Msg) : Nat := svc.methods.length

/-! ## Method indices by name -/

-- strcmp, on unsigned bytes
def strcmp : CString → CString → Ordering
  | [], [] => .eq
  | [], _ :: _ => .lt
  | _ :: _, [] => .gt
  | a :: as, b :: bs => if a < b then .lt else if b < a then .gt else strcmp as bs

/-- The name under the `pos`-th index of the name table. -/
def Service.nameAt (svc : Service Msg) (pos : Nat) : CString :=
  match svc.methods[svc.methodIndicesByName.getD pos 0]? with
  | some m => m.name
  | none => []

/-- The loop of the binary search: either the position of a hit, or the
`start` and `count` it ends with. Each round more than halves `count`. -/
def Service.searchLoop (svc : Service Msg) (name : CString) :
    Nat → Nat → Nat → Nat ⊕ (Nat × Nat)
  | 0, start, count => .inr (start, count)
  | fuel + 1, start, count =>
    if count > 1 then
      let mid := start + count / 2
      match strcmp (svc.nameAt mid) name with
      | .eq => .inl mid
      | .lt => svc.searchLoop name fuel (mid + 1) (start + count - (mid + 1))
      | .gt => svc.searchLoop name fuel start (mid - start)
    else .inr (start, count)

/-- `protobuf_c_service_descriptor_get_method_index_by_name` -/
def Service.getMethodIndexByName (svc : Service Msg) (name : CString) : Nat :=
  match svc.searchLoop name svc.nMethods 0 svc.nMethods with
  | .inl mid => svc.methodIndicesByName.getD mid 0
  | .inr (start, count) =>
    if count = 0 then undefinedMethod
    else if strcmp (svc.nameAt start) name = .eq then svc.methodIndicesByName.getD start 0
    else undefinedMethod

theorem Service.getD_indices_lt (svc : Service Msg) {pos : Nat} (h : pos < svc.nMethods) :
    svc.methodIndicesByName.getD pos 0 < svc.nMethods := by
  have hpos : pos < svc.methodIndicesByName.length := by
    rw [svc.indices_length]
    exact h
  rw [List.getD_eq_getElem _ _ hpos]
  exact svc.indices_lt _ (List.getElem_mem hpos)

/-- A search result inside the `count` positions from `start`: a hit, or at most
one position left. -/
def SearchEnd (start count : Nat) : Nat ⊕ (Nat × Nat) → Prop
  | .inl mid => start ≤ mid ∧ mid < start + count
  | .inr (s, c) => start ≤ s ∧ s + c ≤ start + count ∧ c ≤ 1

theorem SearchEnd.mono {start count start' count' : Nat} {r : Nat ⊕ (Nat × Nat)}
    (h : SearchEnd start' count' r) (hs : start ≤ start')
    (hc : start' + count' ≤ start + count) : SearchEnd start count r := by
  cases r with
  | inl mid =>
    simp only [SearchEnd] at h ⊢
    omega
  | inr r =>
    simp only [SearchEnd] at h ⊢
    omega

/-- With as much fuel as `count` the search ends in one of the two ways. -/
theorem Service.searchLoop_end (svc : Service Msg) (name : CString) (fuel : Nat) :
    ∀ start count, count ≤ fuel → SearchEnd start count (svc.searchLoop name fuel start count) := by
  induction fuel with
  | zero =>
    intro start count h
    simp only [searchLoop, SearchEnd]
    omega
  | succ fuel ih =>
    intro start count h
    unfold searchLoop
    by_cases hc : count > 1
    · have hmid := Nat.div_lt_self (show 0 < count by omega) (show 1 < 2 by omega)
      rw [if_pos hc]
      dsimp only
      cases strcmp (svc.nameAt (start + count / 2)) name with
      | eq => exact ⟨by omega, by omega⟩
      | lt => exact (ih _ _ (by omega)).mono (by omega) (by omega)
      | gt => exact (ih _ _ (by omega)).mono (by omega) (by omega)
    · rw [if_neg hc]
      simp only [SearchEnd]
      omega

/-- The index found for a name is the undefined one or that of a method. -/
theorem Service.getMethodIndexByName_lt (svc : Service Msg) (name : CString)
    (h : svc.getMethodIndexByName name ≠ undefinedMethod) :
    svc.getMethodIndexByName name < svc.nMethods := by
  have hs := svc.searchLoop_end name svc.nMethods 0 svc.nMethods (Nat.le_refl _)
  unfold getMethodIndexByName at h ⊢
  cases hr : svc.searchLoop name svc.nMethods 0 svc.nMethods with
  | inl mid =>
    simp only [hr, SearchEnd] at hs ⊢
    exact svc.getD_indices_lt (by omega)
  | inr r =>
    obtain ⟨start, count⟩ := r
    simp only [hr, SearchEnd] at hs h ⊢
    by_cases hc : count = 0
    · rw [if_pos hc] at h
      exact absurd rfl h
    · rw [if_neg hc] at h ⊢
      by_cases hn : strcmp (svc.nameAt start) name = .eq
      · rw [if_pos hn]
        exact svc.getD_indices_lt (by omega)
      · rw [if_neg hn] at h
        exact absurd rfl h

end Cmsg.Server
