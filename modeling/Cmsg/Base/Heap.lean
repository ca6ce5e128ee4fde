import Mathlib.Algebra.Group.Nat.Defs
import Mathlib.Data.List.Basic

/-! # Blocks of memory

A heap gives blocks of memory out under names, which are the pointers that are not `NULL`. A
name is not used again, so that what is read through a pointer says whether it is still one. -/
namespace Cmsg.Base

/-- A block of memory: its size in bytes and the values of the array in it. -/
structure Block (α : Type) where
  size : Nat
  values : Nat → α

namespace Block
variable {α : Type}

/-- The first values of the array. -/
def take (block : Block α) (n : Nat) : List α := (List.range n).map block.values

def set (block : Block α) (i : Nat) (value : α) : Block α :=
  ⟨block.size, fun j => if j = i then value else block.values j⟩

/-- A new block with what there is of an array in the old one; `fresh` is what lies behind it. -/
def resize (block : Block α) (width size : Nat) (fresh : Nat → α) : Block α :=
  ⟨size, fun i => if (i + 1) * width ≤ min block.size size then block.values i else fresh i⟩

theorem length_take (block : Block α) (n : Nat) : (block.take n).length = n := by
  rw [take, List.length_map, List.length_range]

theorem take_congr {block block' : Block α} {n : Nat}
    (h : ∀ i, i < n → block.values i = block'.values i) : block.take n = block'.take n :=
  List.map_congr_left fun i hi => h i (List.mem_range.mp hi)

theorem take_succ (block : Block α) (n : Nat) :
    block.take (n + 1) = block.take n ++ [block.values n] := by
  rw [take, List.range_succ, List.map_append]
  rfl

theorem take_set (block : Block α) (n : Nat) (value : α) :
    (block.set n value).take (n + 1) = block.take n ++ [value] := by
  have hfirst : (block.set n value).take n = block.take n :=
    take_congr fun i hi => if_neg (Nat.ne_of_lt hi)
  have hlast : (block.set n value).values n = value := if_pos rfl
  rw [take_succ, hfirst, hlast]

theorem take_resize (block : Block α) {width size n : Nat} (fresh : Nat → α)
    (hold : n * width ≤ block.size) (hnew : n * width ≤ size) :
    (block.resize width size fresh).take n = block.take n := by
  refine take_congr fun i hi => if_pos ?_
  exact Nat.le_trans (Nat.mul_le_mul_right width hi) (Nat.le_min.mpr ⟨hold, hnew⟩)

end Block

/-- The blocks in use, and the next name. -/
structure Heap (α : Type) where
  blocks : Nat → Option (Block α)
  next : Nat
  unused : ∀ p, next ≤ p → blocks p = none

/-- What a reallocation leaves, and the pointer that it gives. -/
structure Reallocated (α : Type) where
  heap : Heap α
  ptr : Option Nat

namespace Heap
variable {α : Type}

/-- The block that a pointer points to. -/
def block (heap : Heap α) (ptr : Option Nat) : Option (Block α) := ptr.bind heap.blocks

theorem lt_next {heap : Heap α} {p : Nat} {block : Block α} (h : heap.blocks p = some block) :
    p < heap.next := by
  by_contra hle
  rw [heap.unused p (Nat.le_of_not_lt hle)] at h
  cases h

theorem unused_set (heap : Heap α) (p i : Nat) (value : α) :
    ∀ q, heap.next ≤ q →
      (if q = p then (heap.blocks q).map (·.set i value) else heap.blocks q) = none := by
  intro q hq
  rw [heap.unused q hq, Option.map_none, ite_self]

/-- An element of an array is written. -/
def write (heap : Heap α) (p i : Nat) (value : α) : Heap α where
  blocks q := if q = p then (heap.blocks q).map (·.set i value) else heap.blocks q
  next := heap.next
  unused := heap.unused_set p i value

theorem unused_free (heap : Heap α) (ptr : Option Nat) :
    ∀ q, heap.next ≤ q → (if ptr = some q then none else heap.blocks q) = none := by
  intro q hq
  rw [heap.unused q hq, ite_self]

/-- `free`, which does nothing with `NULL`. -/
def free (heap : Heap α) (ptr : Option Nat) : Heap α where
  blocks q := if ptr = some q then none else heap.blocks q
  next := heap.next
  unused := heap.unused_free ptr

theorem unused_alloc (heap : Heap α) (block : Block α) :
    ∀ q, heap.next + 1 ≤ q → (if q = heap.next then some block else heap.blocks q) = none := by
  intro q hq
  rw [if_neg (by omega), heap.unused q (by omega)]

/-- A new block, under the next name. -/
def alloc (heap : Heap α) (block : Block α) : Heap α where
  blocks q := if q = heap.next then some block else heap.blocks q
  next := heap.next + 1
  unused := heap.unused_alloc block

/-- The block that `realloc` makes: all of it is fresh where there was none. -/
def moved (heap : Heap α) (width : Nat) (ptr : Option Nat) (size : Nat) (fresh : Nat → α) :
    Block α :=
  match heap.block ptr with
  | some block => block.resize width size fresh
  | none => ⟨size, fresh⟩

/-- `realloc`, given what it answers: `NULL`, or a block and what lies in the new part of it. No
object is larger than `PTRDIFF_MAX` bytes, and a size of 0 frees the block. -/
def realloc (heap : Heap α) (width : Nat) (ptr : Option Nat) (size : Nat)
    (answer : Option (Nat → α)) : Reallocated α :=
  if size = 0 ∧ ptr.isSome then ⟨heap.free ptr, none⟩
  else if size < 2 ^ 63 then
    match answer with
    | some fresh => ⟨(heap.free ptr).alloc (heap.moved width ptr size fresh), some heap.next⟩
    | none => ⟨heap, none⟩
  else ⟨heap, none⟩

theorem blocks_write_self {heap : Heap α} {p : Nat} {block : Block α}
    (h : heap.blocks p = some block) (i : Nat) (value : α) :
    (heap.write p i value).blocks p = some (block.set i value) := by
  unfold write
  dsimp only
  rw [if_pos rfl, h]
  rfl

theorem blocks_write_ne (heap : Heap α) {p q : Nat} (h : q ≠ p) (i : Nat) (value : α) :
    (heap.write p i value).blocks q = heap.blocks q := if_neg h

theorem blocks_free_ne (heap : Heap α) {ptr : Option Nat} {q : Nat} (h : ptr ≠ some q) :
    (heap.free ptr).blocks q = heap.blocks q := if_neg h

theorem blocks_alloc_self (heap : Heap α) (block : Block α) :
    (heap.alloc block).blocks heap.next = some block := if_pos rfl

theorem blocks_alloc_ne (heap : Heap α) (block : Block α) {q : Nat} (h : q ≠ heap.next) :
    (heap.alloc block).blocks q = heap.blocks q := if_neg h

/-- Whether `realloc` gives a block of that size. -/
def grants (answer : Option (Nat → α)) (size : Nat) : Bool :=
  answer.isSome && decide (size < 2 ^ 63)

/-- A reallocation to a size fails and changes nothing, or it moves the block. -/
theorem realloc_cases (heap : Heap α) (width : Nat) (ptr : Option Nat) {size : Nat}
    (answer : Option (Nat → α)) (hsize : 0 < size) :
    (grants answer size = false ∧ heap.realloc width ptr size answer = ⟨heap, none⟩) ∨
    ∃ fresh, grants answer size = true ∧ size < 2 ^ 63 ∧ heap.realloc width ptr size answer =
      ⟨(heap.free ptr).alloc (heap.moved width ptr size fresh), some heap.next⟩ := by
  unfold realloc grants
  rw [if_neg fun h => Nat.ne_of_gt hsize h.1]
  by_cases hfits : size < 2 ^ 63
  · rw [if_pos hfits, decide_eq_true hfits]
    cases answer with
    | none => exact .inl ⟨rfl, rfl⟩
    | some fresh => exact .inr ⟨fresh, rfl, hfits, rfl⟩
  · rw [if_neg hfits, decide_eq_false hfits]
    exact .inl ⟨Bool.and_false _, rfl⟩

/-- What a reallocation moves is found under its new name. -/
theorem blocks_moved_self (heap : Heap α) (ptr : Option Nat) (block : Block α) :
    ((heap.free ptr).alloc block).blocks heap.next = some block :=
  blocks_alloc_self (heap.free ptr) block

theorem size_moved (heap : Heap α) (width : Nat) (ptr : Option Nat) (size : Nat)
    (fresh : Nat → α) : (heap.moved width ptr size fresh).size = size := by
  unfold moved
  cases heap.block ptr with
  | none => rfl
  | some block => rfl

/-- `q` is a name in use, and not that of the block that is reallocated. -/
structure Foreign (heap : Heap α) (ptr : Option Nat) (q : Nat) : Prop where
  lt : q < heap.next
  ne : ptr ≠ some q

/-- A reallocation changes no other block and gives none of the other names. -/
theorem Foreign.realloc {heap : Heap α} {ptr : Option Nat} {q : Nat} (h : heap.Foreign ptr q)
    (width size : Nat) (answer : Option (Nat → α)) :
    (heap.realloc width ptr size answer).heap.Foreign (heap.realloc width ptr size answer).ptr q ∧
      (heap.realloc width ptr size answer).heap.blocks q = heap.blocks q := by
  have hnone : none ≠ some q := nofun
  unfold Heap.realloc
  split
  · exact ⟨⟨h.lt, hnone⟩, blocks_free_ne heap h.ne⟩
  · split
    · cases answer with
      | none => exact ⟨⟨h.lt, hnone⟩, rfl⟩
      | some fresh =>
        refine ⟨⟨Nat.lt_succ_of_lt h.lt, ?_⟩, ?_⟩
        · intro he
          exact Nat.ne_of_gt h.lt (Option.some.inj he)
        · dsimp only
          rw [blocks_alloc_ne (heap.free ptr) _ (Nat.ne_of_lt h.lt), blocks_free_ne heap h.ne]
    · exact ⟨⟨h.lt, hnone⟩, rfl⟩

end Heap

end Cmsg.Base
