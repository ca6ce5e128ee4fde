import Cmsg.Base.Bytes
import Cmsg.Base.GrowArray
import Cmsg.Base.Heap

/-! # Repeated fields

An append asks for a new block where the number of elements is a multiple of the block size, and
nothing but this number says how much was allocated. The number goes on only with the block, so
that it says it also after reallocations that failed. -/
namespace Cmsg.Message
open Cmsg.Base

def cmsgRepeatedBlockSize : Nat := 64

theorem cmsgRepeatedBlockSize_pos : 0 < cmsgRepeatedBlockSize := by decide

/-- A value of type `size_t`. -/
def wrapSizeT (n : Nat) : Nat := n % 2 ^ 64

theorem wrapSizeT_of_lt {n : Nat} (h : n < 2 ^ 64) : wrapSizeT n = n := Nat.mod_eq_of_lt h

/-- A repeated field of a message: the array and `n_`, the number of its elements. -/
structure RepeatedField where
  msgPtrArray : Option Nat
  numElems : Nat

/-- The field of a message that was initialised. -/
def RepeatedField.init : RepeatedField := ⟨none, 0⟩

/-- The elements of the field. -/
def RepeatedField.elems {α : Type} (field : RepeatedField) (heap : Heap α) : List α :=
  match heap.block field.msgPtrArray with
  | some block => block.take field.numElems
  | none => []

/-- A call: what is appended, what `realloc` answers if it is called, and what is recorded about
allocations. -/
structure Call (α : Type) where
  value : α
  answer : Option (Nat → α)
  cmsgMtype : Int
  file : CString
  line : Int

/-- What the functions do with memory and with the records about it. -/
inductive Access
  | recordFree (ptr : Option Nat) (mtype : Int) (file : CString) (line : Int)
  | realloc (ptr : Option Nat) (size : Nat) (result : Option Nat)
  | recordAlloc (ptr : Option Nat) (mtype : Int) (file : CString) (line : Int)
  | write (ptr pos size : Nat)

section
variable {α : Type}

/-- A reallocation, recorded where the caller has set a type for the records. -/
def reallocAccesses (call : Call α) (ptr : Option Nat) (size : Nat) (result : Option Nat) :
    List Access :=
  if 0 < call.cmsgMtype then
    [.recordFree ptr call.cmsgMtype call.file call.line, .realloc ptr size result,
      .recordAlloc result call.cmsgMtype call.file call.line]
  else [.realloc ptr size result]

/-- `cmsg_realloc`; `width` is the size of an element of the array. -/
def cmsgRealloc (width : Nat) (heap : Heap α) (ptr : Option Nat) (size : Nat) (call : Call α) :
    Reallocated α × List Access :=
  let reallocated := heap.realloc width ptr size call.answer
  (reallocated, reallocAccesses call ptr size reallocated.ptr)

/-- What an append leaves, and what it did. -/
structure AppendReturn (α : Type) where
  heap : Heap α
  field : RepeatedField
  accesses : List Access

/-- The `new_size` of the array. -/
def newSize (width numElems : Nat) : Nat :=
  wrapSizeT (wrapSizeT (numElems + cmsgRepeatedBlockSize) * width)

/-- The array to write to: a new one where the number of elements is a multiple of the block
size. -/
def newArray (width : Nat) (heap : Heap α) (field : RepeatedField) (call : Call α) :
    Reallocated α × List Access :=
  if field.numElems % cmsgRepeatedBlockSize = 0 then
    cmsgRealloc width heap field.msgPtrArray (newSize width field.numElems) call
  else (⟨heap, field.msgPtrArray⟩, [])

/-- The appending of an element of `width` bytes. -/
def appendElem (width : Nat) (heap : Heap α) (field : RepeatedField) (call : Call α) :
    AppendReturn α :=
  let array := newArray width heap field call
  match array.1.ptr with
  | some newArrayPtr =>
    ⟨array.1.heap.write newArrayPtr field.numElems call.value,
      ⟨some newArrayPtr, wrapSizeT (field.numElems + 1)⟩,
      array.2 ++ [.write newArrayPtr (field.numElems * width) width]⟩
  | none => ⟨array.1.heap, field, array.2⟩

end

/-- `cmsg_repeated_append`. -/
def cmsgRepeatedAppend (heap : Heap UInt64) (field : RepeatedField) (call : Call UInt64) :
    AppendReturn UInt64 :=
  if call.value = 0 then ⟨heap, field, []⟩ else appendElem 8 heap field call

/-- `cmsg_repeated_append_uint32`. -/
def cmsgRepeatedAppendUint32 (heap : Heap UInt32) (field : RepeatedField) (call : Call UInt32) :
    AppendReturn UInt32 :=
  appendElem 4 heap field call

/-- `cmsg_repeated_append_int32`. -/
def cmsgRepeatedAppendInt32 (heap : Heap Int32) (field : RepeatedField) (call : Call Int32) :
    AppendReturn Int32 :=
  appendElem 4 heap field call

/-! ## Runs -/

/-- What calls on one field leave, and what each of them did. -/
structure AppendRun (α : Type) where
  heap : Heap α
  field : RepeatedField
  calls : List (Call α × List Access)

section
variable {α : Type}

/-- Calls one after the other. -/
def appendCalls (append : Heap α → RepeatedField → Call α → AppendReturn α) :
    Heap α → RepeatedField → List (Call α) → AppendRun α
  | heap, field, [] => ⟨heap, field, []⟩
  | heap, field, call :: calls =>
    let returned := append heap field call
    let rest := appendCalls append returned.heap returned.field calls
    ⟨rest.heap, rest.field, (call, returned.accesses) :: rest.calls⟩

/-- Whether `realloc` gives one block more to an array of so many elements. -/
def Call.grows (width numElems : Nat) (call : Call α) : Bool :=
  Heap.grants call.answer ((numElems + cmsgRepeatedBlockSize) * width)

/-- Whether a call that appends to so many elements succeeds: only one that asks for a new
block can fail, where `realloc` does not give it. -/
def Call.succeeds (width numElems : Nat) (call : Call α) : Bool :=
  numElems % cmsgRepeatedBlockSize != 0 || call.grows width numElems

/-- The values of the successful appends among the calls, after so many of them. -/
def appendedFrom (width : Nat) (isNull : α → Bool) : Nat → List (Call α) → List α
  | _, [] => []
  | numElems, call :: calls =>
    if !isNull call.value && call.succeeds width numElems then
      call.value :: appendedFrom width isNull (numElems + 1) calls
    else appendedFrom width isNull numElems calls

/-- What is recorded of a reallocation is what `realloc` answered. -/
def Access.Answered (call : Call α) : Access → Prop
  | .realloc _ size result => result.isSome = Heap.grants call.answer size
  | _ => True

/-- The last successful reallocation: the block that it gave, and its size. -/
def Access.allocated (last : Option (Nat × Nat)) : Access → Option (Nat × Nat)
  | .realloc _ size (some p) => some (p, size)
  | _ => last

/-- A write is inside of the block that was allocated last, and this is the block that is
reallocated. -/
def Access.Inside (last : Option (Nat × Nat)) : Access → Prop
  | .write p pos n => ∃ size, last = some (p, size) ∧ pos + n ≤ size
  | .realloc ptr _ _ => ptr = last.map Prod.fst
  | .recordFree .. | .recordAlloc .. => True

/-- All accesses are inside of what was allocated when they were made. -/
def AllInside : Option (Nat × Nat) → List Access → Prop
  | _, [] => True
  | last, access :: accesses => access.Inside last ∧ AllInside (access.allocated last) accesses

/-- Where a write is in its block. -/
def Access.written : Access → Option (Nat × Nat)
  | .write _ pos size => some (pos, size)
  | _ => none

/-- The bytes of the first elements of an array. -/
def elemBytes (width numElems : Nat) : List (Nat × Nat) :=
  (List.range numElems).map fun i => (i * width, width)

/-- What holds after calls on an empty field. -/
structure KeepsAppends (width : Nat) (isNull : α → Bool) (heap : Heap α) (calls : List (Call α))
    (run : AppendRun α) : Prop where
  elems : run.field.elems run.heap = appendedFrom width isNull 0 calls
  count : run.field.numElems = (appendedFrom width isNull 0 calls).length
  inside : AllInside none (run.calls.flatMap Prod.snd)
  array : run.field.msgPtrArray =
    ((run.calls.flatMap Prod.snd).foldl Access.allocated none).map Prod.fst
  writes : (run.calls.flatMap Prod.snd).filterMap Access.written =
    elemBytes width (appendedFrom width isNull 0 calls).length
  answered : run.calls.map Prod.fst = calls ∧
    ∀ r ∈ run.calls, ∀ access ∈ r.2, access.Answered r.1
  others : ∀ p block, heap.blocks p = some block → run.heap.blocks p = some block

end

/-- The three functions, whatever the calls of `realloc` answer. -/
structure RepeatedAppends : Prop where
  pointers : ∀ (heap : Heap UInt64) (calls : List (Call UInt64)),
    KeepsAppends 8 (· = 0) heap calls (appendCalls cmsgRepeatedAppend heap .init calls)
  uint32 : ∀ (heap : Heap UInt32) (calls : List (Call UInt32)),
    KeepsAppends 4 (fun _ => false) heap calls
      (appendCalls cmsgRepeatedAppendUint32 heap .init calls)
  int32 : ∀ (heap : Heap Int32) (calls : List (Call Int32)),
    KeepsAppends 4 (fun _ => false) heap calls
      (appendCalls cmsgRepeatedAppendInt32 heap .init calls)

/-! ## What an append does -/

section
variable {α : Type}

theorem allInside_append {last : Option (Nat × Nat)} {accesses more : List Access} :
    AllInside last (accesses ++ more) ↔
      AllInside last accesses ∧ AllInside (accesses.foldl Access.allocated last) more := by
  induction accesses generalizing last with
  | nil => exact (and_iff_right trivial).symm
  | cons access accesses ih =>
    rw [List.cons_append, AllInside, AllInside, ih, List.foldl_cons, and_assoc]

section
variable (call : Call α) (ptr : Option Nat) (size : Nat) (result : Option Nat)

theorem allocated_reallocAccesses (last : Option (Nat × Nat)) :
    (reallocAccesses call ptr size result).foldl Access.allocated last =
      (Access.realloc ptr size result).allocated last := by
  unfold reallocAccesses
  split
  · rfl
  · rfl

theorem written_reallocAccesses :
    (reallocAccesses call ptr size result).filterMap Access.written = [] := by
  unfold reallocAccesses
  split
  · rfl
  · rfl

theorem answered_reallocAccesses (h : result.isSome = Heap.grants call.answer size) :
    ∀ access ∈ reallocAccesses call ptr size result, access.Answered call := by
  intro access ha
  unfold reallocAccesses at ha
  split at ha
  · rcases List.mem_cons.mp ha with rfl | ha
    · trivial
    · rcases List.mem_cons.mp ha with rfl | ha
      · exact h
      · obtain rfl := List.mem_singleton.mp ha
        trivial
  · obtain rfl := List.mem_singleton.mp ha
    exact h

theorem inside_reallocAccesses {last : Option (Nat × Nat)} (h : ptr = last.map Prod.fst) :
    AllInside last (reallocAccesses call ptr size result) := by
  unfold reallocAccesses
  split
  · exact ⟨trivial, h, trivial, trivial⟩
  · exact ⟨h, trivial⟩

end

/-- A block has the room of an array, and its values. -/
structure Stored (width : Nat) (heap : Heap α) (p : Nat) (array : GrowArray α) : Prop where
  block : ∃ block, heap.blocks p = some block ∧ block.size = array.capacity * width ∧
    block.take array.values.length = array.values
  fits : array.capacity * width < 2 ^ 63

/-- A value is written where there is room for it. -/
theorem Stored.write {width : Nat} {heap : Heap α} {p : Nat} {array : GrowArray α}
    (h : Stored width heap p array) (value : α) (hroom : array.values.length < array.capacity) :
    Stored width (heap.write p array.values.length value) p (array.push value hroom) := by
  obtain ⟨block, found, size, take⟩ := h.block
  refine ⟨⟨_, Heap.blocks_write_self found _ value, size, ?_⟩, h.fits⟩
  rw [GrowArray.length_push, Block.take_set, take, GrowArray.values_push]

/-- The field holds the values of an array that knows its room, in the block that was allocated
last. -/
inductive Represents (width : Nat) (heap : Heap α) :
    RepeatedField → Option (Nat × Nat) → GrowArray α → Prop
  | null : Represents width heap .init none .empty
  | array {p : Nat} {array : GrowArray α} (stored : Stored width heap p array)
      (whole : array.WholeBlocks cmsgRepeatedBlockSize) :
      Represents width heap ⟨some p, array.values.length⟩ (some (p, array.capacity * width)) array

namespace Represents
variable {width : Nat} {heap : Heap α} {field : RepeatedField} {last : Option (Nat × Nat)}
  {array : GrowArray α}

theorem count (h : Represents width heap field last array) :
    field.numElems = array.values.length := by
  cases h with
  | null => rfl
  | array => rfl

theorem elems (h : Represents width heap field last array) :
    field.elems heap = array.values := by
  cases h with
  | null => rfl
  | array stored =>
    obtain ⟨block, found, _, take⟩ := stored.block
    unfold RepeatedField.elems Heap.block
    rw [Option.bind_some, found]
    exact take

theorem ptr (h : Represents width heap field last array) :
    field.msgPtrArray = last.map Prod.fst := by
  cases h with
  | null => rfl
  | array => rfl

theorem whole (h : Represents width heap field last array) :
    array.WholeBlocks cmsgRepeatedBlockSize := by
  cases h with
  | null => exact GrowArray.wholeBlocks_empty cmsgRepeatedBlockSize_pos
  | array _ whole => exact whole

theorem fits (h : Represents width heap field last array) : array.capacity * width < 2 ^ 63 := by
  cases h with
  | null =>
    rw [GrowArray.empty, Nat.zero_mul]
    exact Nat.two_pow_pos 63
  | array stored => exact stored.fits

/-- The block that is asked for is one block of elements larger; nothing wraps round. -/
theorem newSize_eq (h : Represents width heap field last array) (hpos : 0 < width)
    (hwidth : width ≤ 8) (hfull : ¬ array.values.length < array.capacity) :
    newSize width field.numElems = (array.grow cmsgRepeatedBlockSize).capacity * width := by
  have hcap : field.numElems = array.capacity := by
    rw [h.count]
    exact Nat.le_antisymm array.fits (Nat.le_of_not_lt hfull)
  have hfits := h.fits
  have hle : array.capacity ≤ array.capacity * width := Nat.le_mul_of_pos_right _ hpos
  have hnum : wrapSizeT (array.capacity + cmsgRepeatedBlockSize) =
      array.capacity + cmsgRepeatedBlockSize := by
    unfold cmsgRepeatedBlockSize
    exact wrapSizeT_of_lt (by omega)
  have hbytes : (array.capacity + cmsgRepeatedBlockSize) * width < 2 ^ 64 := by
    unfold cmsgRepeatedBlockSize
    rw [Nat.add_mul]
    omega
  unfold newSize
  rw [hcap, hnum, wrapSizeT_of_lt hbytes]
  rfl

/-- The values are in the block that a reallocation makes. -/
theorem stored_moved (h : Represents width heap field last array) (fresh : Nat → α)
    (hfits : (array.grow cmsgRepeatedBlockSize).capacity * width < 2 ^ 63) :
    Stored width ((heap.free field.msgPtrArray).alloc (heap.moved width field.msgPtrArray
        ((array.grow cmsgRepeatedBlockSize).capacity * width) fresh)) heap.next
      (array.grow cmsgRepeatedBlockSize) := by
  refine ⟨⟨_, heap.blocks_moved_self _ _, heap.size_moved width _ _ fresh, ?_⟩, hfits⟩
  cases h with
  | null => rfl
  | array stored =>
    obtain ⟨block, found, size, take⟩ := stored.block
    have hold := Nat.mul_le_mul_right width array.fits
    have hnew : array.capacity * width ≤ (array.grow cmsgRepeatedBlockSize).capacity * width :=
      Nat.mul_le_mul_right width (Nat.le_add_right _ _)
    unfold Heap.moved Heap.block
    rw [Option.bind_some, found]
    dsimp only
    exact (Block.take_resize _ fresh (size ▸ hold) (Nat.le_trans hold hnew)).trans take

end Represents

/-- An append does what it does to an array that knows its room, and stays inside of it. -/
structure Refines (width : Nat) (last : Option (Nat × Nat)) (array : GrowArray α) (call : Call α)
    (returned : AppendReturn α) : Prop where
  represents : Represents width returned.heap returned.field
    (returned.accesses.foldl Access.allocated last)
    (array.append cmsgRepeatedBlockSize_pos call.value (call.grows width array.values.length))
  inside : AllInside last returned.accesses
  writes : elemBytes width array.values.length ++ returned.accesses.filterMap Access.written =
    elemBytes width (array.append cmsgRepeatedBlockSize_pos call.value
      (call.grows width array.values.length)).values.length
  answered : ∀ access ∈ returned.accesses, access.Answered call

section
variable {width : Nat} {heap : Heap α} {field : RepeatedField} {last : Option (Nat × Nat)}
  {array : GrowArray α}

theorem newArray_room (h : Represents width heap field last array) (call : Call α)
    (hroom : array.values.length < array.capacity) :
    newArray width heap field call = (⟨heap, field.msgPtrArray⟩, []) := by
  have hmod : ¬ field.numElems % cmsgRepeatedBlockSize = 0 := by
    rw [h.count, ← h.whole.full_iff, not_not]
    exact hroom
  exact if_neg hmod

theorem newArray_full (h : Represents width heap field last array) (call : Call α)
    (hpos : 0 < width) (hwidth : width ≤ 8) (hfull : ¬ array.values.length < array.capacity) :
    newArray width heap field call = cmsgRealloc width heap field.msgPtrArray
      ((array.grow cmsgRepeatedBlockSize).capacity * width) call := by
  have hmod : field.numElems % cmsgRepeatedBlockSize = 0 := by
    rw [h.count, ← h.whole.full_iff]
    exact hfull
  rw [newArray, if_pos hmod, h.newSize_eq hpos hwidth hfull]

theorem inside_write {p n capacity : Nat} (h : n < capacity) :
    AllInside (some (p, capacity * width)) [.write p (n * width) width] := by
  refine ⟨⟨capacity * width, rfl, ?_⟩, trivial⟩
  rw [← Nat.succ_mul]
  exact Nat.mul_le_mul_right width h

theorem elemBytes_succ (width n : Nat) :
    elemBytes width (n + 1) = elemBytes width n ++ [(n * width, width)] := by
  rw [elemBytes, List.range_succ, List.map_append]
  rfl

/-- The value is written, after a reallocation or without one. -/
theorem refines_write {heap' : Heap α} {call : Call α} {p : Nat}
    {accesses : List Access} {array' : GrowArray α} (hpos : 0 < width)
    (hroom : array'.values.length < array'.capacity)
    (hnew : newArray width heap field call = (⟨heap', some p⟩, accesses))
    (hnum : field.numElems = array'.values.length) (hvalues : array'.values = array.values)
    (happend : array.append cmsgRepeatedBlockSize_pos call.value
      (call.grows width array.values.length) = array'.push call.value hroom)
    (stored : Stored width heap' p array')
    (whole : (array'.push call.value hroom).WholeBlocks cmsgRepeatedBlockSize)
    (hlast : accesses.foldl Access.allocated last = some (p, array'.capacity * width))
    (hinside : AllInside last accesses) (hwrites : accesses.filterMap Access.written = [])
    (hanswered : ∀ access ∈ accesses, access.Answered call) :
    Refines width last array call (appendElem width heap field call) := by
  have hreturned : appendElem width heap field call =
      ⟨heap'.write p array'.values.length call.value,
        ⟨some p, (array'.push call.value hroom).values.length⟩,
        accesses ++ [.write p (array'.values.length * width) width]⟩ := by
    -- the number stays below the bytes of a block, so that it does not wrap round
    have hle : array'.capacity ≤ array'.capacity * width := Nat.le_mul_of_pos_right _ hpos
    have hfits := stored.fits
    rw [appendElem, hnew, hnum, GrowArray.length_push, wrapSizeT_of_lt (by omega)]
  rw [hreturned]
  constructor
  · dsimp only
    rw [happend, List.foldl_append, hlast]
    exact .array (stored.write call.value hroom) whole
  · rw [allInside_append, hlast]
    exact ⟨hinside, inside_write hroom⟩
  · rw [happend, GrowArray.length_push, hvalues, List.filterMap_append, hwrites, elemBytes_succ]
    rfl
  · intro access ha
    rcases List.mem_append.mp ha with ha | ha
    · exact hanswered access ha
    · obtain rfl := List.mem_singleton.mp ha
      trivial

theorem refines_room (h : Represents width heap field last array) (call : Call α)
    (hpos : 0 < width) (hroom : array.values.length < array.capacity) :
    Refines width last array call (appendElem width heap field call) := by
  have hwhole := h.whole.push call.value hroom
  have hnew := newArray_room h call hroom
  cases h with
  | null => exact absurd hroom (Nat.lt_irrefl 0)
  | array stored =>
    exact refines_write hpos hroom hnew rfl rfl
      (GrowArray.append_of_room cmsgRepeatedBlockSize_pos call.value _ hroom) stored
      hwhole rfl trivial rfl (List.forall_mem_nil _)

/-- Where there is no room, one block more is asked for. -/
theorem grows_of_full (call : Call α)
    (hfull : ¬ array.values.length < array.capacity) :
    call.grows width array.values.length =
      Heap.grants call.answer ((array.grow cmsgRepeatedBlockSize).capacity * width) := by
  have hcap : array.values.length = array.capacity :=
    Nat.le_antisymm array.fits (Nat.le_of_not_lt hfull)
  rw [Call.grows, hcap]
  rfl

theorem refines_failed (h : Represents width heap field last array) {call : Call α} {size : Nat}
    (hfull : ¬ array.values.length < array.capacity)
    (hnew : newArray width heap field call =
      (⟨heap, none⟩, reallocAccesses call field.msgPtrArray size none))
    (hgrants : Heap.grants call.answer size = false)
    (hgrows : call.grows width array.values.length = false) :
    Refines width last array call (appendElem width heap field call) := by
  have hreturned : appendElem width heap field call =
      ⟨heap, field, reallocAccesses call field.msgPtrArray size none⟩ := by
    rw [appendElem, hnew]
  rw [hreturned]
  constructor
  · dsimp only
    rw [allocated_reallocAccesses, hgrows,
      GrowArray.append_of_full cmsgRepeatedBlockSize_pos call.value hfull]
    exact h
  · exact inside_reallocAccesses call _ size none h.ptr
  · rw [hgrows, GrowArray.append_of_full cmsgRepeatedBlockSize_pos call.value hfull,
      written_reallocAccesses, List.append_nil]
  · exact answered_reallocAccesses call _ size none hgrants.symm

theorem refines_moved (h : Represents width heap field last array) {call : Call α}
    (hpos : 0 < width) (hwidth : width ≤ 8) (hfull : ¬ array.values.length < array.capacity)
    {fresh : Nat → α} (hfits : (array.grow cmsgRepeatedBlockSize).capacity * width < 2 ^ 63)
    (hgrants : Heap.grants call.answer
      ((array.grow cmsgRepeatedBlockSize).capacity * width) = true)
    (hrealloc : heap.realloc width field.msgPtrArray
        ((array.grow cmsgRepeatedBlockSize).capacity * width) call.answer =
      ⟨(heap.free field.msgPtrArray).alloc (heap.moved width field.msgPtrArray
        ((array.grow cmsgRepeatedBlockSize).capacity * width) fresh), some heap.next⟩) :
    Refines width last array call (appendElem width heap field call) := by
  have hnew := newArray_full h call hpos hwidth hfull
  rw [cmsgRealloc, hrealloc] at hnew
  have hgrows : call.grows width array.values.length = true :=
    (grows_of_full call hfull).trans hgrants
  have happend := GrowArray.append_of_grows cmsgRepeatedBlockSize_pos call.value hfull
  exact refines_write hpos (array.room_grow cmsgRepeatedBlockSize_pos) hnew h.count rfl
    (by rw [hgrows, happend]) (h.stored_moved fresh hfits)
    (h.whole.grow_push cmsgRepeatedBlockSize_pos call.value hfull)
    (allocated_reallocAccesses call _ _ _ last) (inside_reallocAccesses call _ _ _ h.ptr)
    (written_reallocAccesses call _ _ _) (answered_reallocAccesses call _ _ _ hgrants.symm)

/-- **One append.** -/
theorem refines_appendElem (h : Represents width heap field last array) (call : Call α)
    (hpos : 0 < width) (hwidth : width ≤ 8) :
    Refines width last array call (appendElem width heap field call) := by
  by_cases hroom : array.values.length < array.capacity
  · exact refines_room h call hpos hroom
  · have hcapacity := Nat.zero_lt_of_lt (array.room_grow cmsgRepeatedBlockSize_pos)
    rcases heap.realloc_cases width field.msgPtrArray call.answer (Nat.mul_pos hcapacity hpos) with
      ⟨hgrants, hfails⟩ | ⟨fresh, hgrants, hfits, hmoves⟩
    · refine refines_failed h hroom ?_ hgrants ((grows_of_full call hroom).trans hgrants)
      rw [newArray_full h call hpos hwidth hroom, cmsgRealloc, hfails]
    · exact refines_moved h hpos hwidth hroom hfits hgrants hmoves

theorem foreign_newArray {q : Nat} (h : heap.Foreign field.msgPtrArray q) (call : Call α) :
    (newArray width heap field call).1.heap.Foreign (newArray width heap field call).1.ptr q ∧
      (newArray width heap field call).1.heap.blocks q = heap.blocks q := by
  unfold newArray
  split
  · exact h.realloc width _ call.answer
  · exact ⟨h, rfl⟩

/-- An append leaves the other blocks alone. -/
theorem foreign_appendElem {q : Nat} (h : heap.Foreign field.msgPtrArray q) (call : Call α) :
    (appendElem width heap field call).heap.Foreign
        (appendElem width heap field call).field.msgPtrArray q ∧
      (appendElem width heap field call).heap.blocks q = heap.blocks q := by
  obtain ⟨hforeign, hblocks⟩ := foreign_newArray h call
  unfold appendElem
  dsimp only
  cases hptr : (newArray width heap field call).1.ptr with
  | none => exact ⟨⟨hforeign.lt, h.ne⟩, hblocks⟩
  | some p =>
    rw [hptr] at hforeign
    have hne : q ≠ p := fun he => hforeign.ne (congrArg some he.symm)
    exact ⟨⟨hforeign.lt, hforeign.ne⟩, (Heap.blocks_write_ne _ hne _ _).trans hblocks⟩

end

/-! ## What a run does -/

/-- A function that appends elements of `width` bytes, where they are not `NULL`. -/
structure AppendsElems (width : Nat) (isNull : α → Bool)
    (append : Heap α → RepeatedField → Call α → AppendReturn α) : Prop where
  pos : 0 < width
  le : width ≤ 8
  null : ∀ heap field call, isNull call.value = true → append heap field call = ⟨heap, field, []⟩
  elem : ∀ heap field call, isNull call.value = false →
    append heap field call = appendElem width heap field call

/-- A run does what it does to an array that knows its room. -/
structure RunRefines (width : Nat) (isNull : α → Bool) (last : Option (Nat × Nat))
    (array : GrowArray α) (calls : List (Call α)) (run : AppendRun α) : Prop where
  represents : ∃ array', Represents width run.heap run.field
      ((run.calls.flatMap Prod.snd).foldl Access.allocated last) array' ∧
    array'.values = array.values ++ appendedFrom width isNull array.values.length calls
  inside : AllInside last (run.calls.flatMap Prod.snd)
  writes : elemBytes width array.values.length ++
      (run.calls.flatMap Prod.snd).filterMap Access.written =
    elemBytes width
      (array.values ++ appendedFrom width isNull array.values.length calls).length
  answered : run.calls.map Prod.fst = calls ∧
    ∀ r ∈ run.calls, ∀ access ∈ r.2, access.Answered r.1

section
variable {width : Nat} {isNull : α → Bool}
  {append : Heap α → RepeatedField → Call α → AppendReturn α}

theorem RunRefines.null {last : Option (Nat × Nat)} {array : GrowArray α}
    {calls : List (Call α)} {run : AppendRun α} (h : RunRefines width isNull last array calls run)
    {call : Call α} (hnull : isNull call.value = true) :
    RunRefines width isNull last array (call :: calls)
      ⟨run.heap, run.field, (call, []) :: run.calls⟩ := by
  refine ⟨?_, h.inside, ?_, ?_, ?_⟩
  · rw [appendedFrom, hnull]
    exact h.represents
  · rw [appendedFrom, hnull]
    exact h.writes
  · rw [List.map_cons, h.answered.1]
  · exact List.forall_mem_cons.mpr ⟨List.forall_mem_nil _, h.answered.2⟩

theorem RunRefines.elem {heap : Heap α} {field : RepeatedField} {last : Option (Nat × Nat)}
    {array : GrowArray α} (harray : Represents width heap field last array) {call : Call α}
    {returned : AppendReturn α} (hreturned : Refines width last array call returned)
    {calls : List (Call α)} {run : AppendRun α}
    (h : RunRefines width isNull (returned.accesses.foldl Access.allocated last)
      (array.append cmsgRepeatedBlockSize_pos call.value
        (call.grows width array.values.length)) calls run)
    (hnull : isNull call.value = false) :
    RunRefines width isNull last array (call :: calls)
      ⟨run.heap, run.field, (call, returned.accesses) :: run.calls⟩ := by
  have hvalues := harray.whole.values_append cmsgRepeatedBlockSize_pos call.value
    (call.grows width array.values.length)
  have hsucceeds : call.succeeds width array.values.length = true ↔
      array.values.length % cmsgRepeatedBlockSize ≠ 0 ∨
        call.grows width array.values.length = true := by
    rw [Call.succeeds, Bool.or_eq_true, bne_iff_ne]
  obtain ⟨array', hrepresents, hrest⟩ := h.represents
  have hwrites := h.writes
  have hwritten := hreturned.writes
  generalize array.append cmsgRepeatedBlockSize_pos call.value
    (call.grows width array.values.length) = pushed at hvalues hrest hwrites hwritten
  -- the values of this call and of the calls behind it
  have happended : pushed.values ++ appendedFrom width isNull pushed.values.length calls =
      array.values ++ appendedFrom width isNull array.values.length (call :: calls) := by
    rw [hvalues, appendedFrom, hnull, Bool.not_false, Bool.true_and]
    by_cases hok : call.succeeds width array.values.length = true
    · rw [if_pos (hsucceeds.mp hok), if_pos hok, List.length_append, List.append_assoc]
      rfl
    · rw [if_neg (mt hsucceeds.mpr hok), if_neg hok, List.append_nil]
  refine ⟨⟨array', ?_, hrest.trans happended⟩, ?_, ?_, ?_, ?_⟩
  · rw [List.flatMap_cons, List.foldl_append]
    exact hrepresents
  · rw [List.flatMap_cons, allInside_append]
    exact ⟨hreturned.inside, h.inside⟩
  · rw [List.flatMap_cons, List.filterMap_append, ← List.append_assoc, hwritten, hwrites,
      happended]
  · rw [List.map_cons, h.answered.1]
  · exact List.forall_mem_cons.mpr ⟨hreturned.answered, h.answered.2⟩

/-- **A run.** -/
theorem runRefines (ha : AppendsElems width isNull append) (calls : List (Call α))
    {heap : Heap α} {field : RepeatedField} {last : Option (Nat × Nat)} {array : GrowArray α}
    (h : Represents width heap field last array) :
    RunRefines width isNull last array calls (appendCalls append heap field calls) := by
  induction calls generalizing heap field last array with
  | nil =>
    refine ⟨⟨array, h, (List.append_nil _).symm⟩, trivial, ?_, rfl, List.forall_mem_nil _⟩
    rw [appendedFrom, List.append_nil]
    exact List.append_nil _
  | cons call calls ih =>
    rw [appendCalls]
    cases hnull : isNull call.value with
    | true =>
      rw [ha.null heap field call hnull]
      exact (ih h).null hnull
    | false =>
      rw [ha.elem heap field call hnull]
      have hstep := refines_appendElem h call ha.pos ha.le
      exact .elem h hstep (ih hstep.represents) hnull

/-- A run leaves the other blocks alone. -/
theorem foreign_appendCalls (ha : AppendsElems width isNull append) (calls : List (Call α))
    {heap : Heap α} {field : RepeatedField} {q : Nat} (h : heap.Foreign field.msgPtrArray q) :
    (appendCalls append heap field calls).heap.blocks q = heap.blocks q := by
  induction calls generalizing heap field with
  | nil => rfl
  | cons call calls ih =>
    rw [appendCalls]
    cases hnull : isNull call.value with
    | true =>
      rw [ha.null heap field call hnull]
      exact ih h
    | false =>
      rw [ha.elem heap field call hnull]
      obtain ⟨hforeign, hblocks⟩ := foreign_appendElem h call
      exact (ih hforeign).trans hblocks

theorem keepsAppends (ha : AppendsElems width isNull append) (heap : Heap α)
    (calls : List (Call α)) :
    KeepsAppends width isNull heap calls (appendCalls append heap .init calls) := by
  have hempty : Represents width heap .init none .empty := .null
  have hrun := runRefines ha calls hempty
  obtain ⟨array', hrepresents, hvalues⟩ := hrun.represents
  have hall : array'.values = appendedFrom width isNull 0 calls := hvalues
  constructor
  · rw [hrepresents.elems, hall]
  · rw [hrepresents.count, hall]
  · exact hrun.inside
  · exact hrepresents.ptr
  · exact hrun.writes
  · exact hrun.answered
  · intro p block hp
    exact (foreign_appendCalls ha calls ⟨heap.lt_next hp, (Option.some_ne_none p).symm⟩).trans hp

end

end

theorem cmsgRepeatedAppend_elems : AppendsElems 8 (· = 0) cmsgRepeatedAppend where
  pos := by decide
  le := by decide
  null _ _ _ h := if_pos (of_decide_eq_true h)
  elem _ _ _ h := if_neg (of_decide_eq_false h)

theorem cmsgRepeatedAppendUint32_elems :
    AppendsElems 4 (fun _ => false) cmsgRepeatedAppendUint32 where
  pos := by decide
  le := by decide
  null _ _ _ h := by cases h
  elem _ _ _ _ := rfl

theorem cmsgRepeatedAppendInt32_elems :
    AppendsElems 4 (fun _ => false) cmsgRepeatedAppendInt32 where
  pos := by decide
  le := by decide
  null _ _ _ h := by cases h
  elem _ _ _ _ := rfl

/-- **Repeated fields** hold what was appended, in the room that was allocated for it. -/
theorem repeatedAppends : RepeatedAppends where
  pointers heap calls := keepsAppends cmsgRepeatedAppend_elems heap calls
  uint32 heap calls := keepsAppends cmsgRepeatedAppendUint32_elems heap calls
  int32 heap calls := keepsAppends cmsgRepeatedAppendInt32_elems heap calls

end Cmsg.Message
