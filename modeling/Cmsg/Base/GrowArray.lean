import Mathlib.Algebra.Order.Group.Nat
import Mathlib.Data.List.Basic

/-! # Arrays that grow by blocks

An array that says how much room it has, and takes a value while there is room or where it can
grow by a block. The room is as good as known from the number of values: it is that number,
rounded up to whole blocks. -/
namespace Cmsg.Base

/-- Values in order, and for how many of them there is room. -/
structure GrowArray (α : Type) where
  values : List α
  capacity : Nat
  fits : values.length ≤ capacity

namespace GrowArray
variable {α : Type} {block : Nat}

def empty : GrowArray α := ⟨[], 0, Nat.le_refl 0⟩

/-- Room for `more` values. -/
def grow (array : GrowArray α) (more : Nat) : GrowArray α :=
  ⟨array.values, array.capacity + more, Nat.le_trans array.fits (Nat.le_add_right _ _)⟩

theorem length_push_le {array : GrowArray α} (h : array.values.length < array.capacity) (value : α) :
    (array.values ++ [value]).length ≤ array.capacity := by
  rw [List.length_append, List.length_singleton]
  exact h

/-- A value where there is room for it. -/
def push (array : GrowArray α) (value : α) (h : array.values.length < array.capacity) :
    GrowArray α :=
  ⟨array.values ++ [value], array.capacity, length_push_le h value⟩

@[simp] theorem values_push {array : GrowArray α} (value : α)
    (h : array.values.length < array.capacity) :
    (array.push value h).values = array.values ++ [value] := rfl

theorem length_push {array : GrowArray α} (value : α) (h : array.values.length < array.capacity) :
    (array.push value h).values.length = array.values.length + 1 := by simp

theorem room_grow (array : GrowArray α) (hblock : 0 < block) :
    (array.grow block).values.length < (array.grow block).capacity :=
  Nat.lt_of_le_of_lt array.fits (Nat.lt_add_of_pos_right hblock)

/-- A value behind the others; `grows` is whether there can be one more block. -/
def append (hblock : 0 < block) (array : GrowArray α) (value : α) (grows : Bool) : GrowArray α :=
  if h : array.values.length < array.capacity then array.push value h
  else if grows then (array.grow block).push value (array.room_grow hblock)
  else array

theorem append_of_room {array : GrowArray α} (hblock : 0 < block) (value : α) (grows : Bool)
    (h : array.values.length < array.capacity) :
    array.append hblock value grows = array.push value h := dif_pos h

theorem append_of_grows {array : GrowArray α} (hblock : 0 < block) (value : α)
    (h : ¬ array.values.length < array.capacity) :
    array.append hblock value true = (array.grow block).push value (array.room_grow hblock) :=
  dif_neg h

theorem append_of_full {array : GrowArray α} (hblock : 0 < block) (value : α)
    (h : ¬ array.values.length < array.capacity) : array.append hblock value false = array :=
  dif_neg h

/-- Room in whole blocks, the last of them in use. -/
structure WholeBlocks (block : Nat) (array : GrowArray α) : Prop where
  whole : block ∣ array.capacity
  used : array.capacity < array.values.length + block

theorem wholeBlocks_empty (hblock : 0 < block) : (empty : GrowArray α).WholeBlocks block :=
  ⟨Nat.dvd_zero block, by rwa [empty, List.length_nil, Nat.zero_add]⟩

namespace WholeBlocks
variable {array : GrowArray α}

/-- Whether there is room is seen from the number of values. -/
theorem full_iff (h : array.WholeBlocks block) :
    ¬ array.values.length < array.capacity ↔ array.values.length % block = 0 := by
  obtain ⟨k, hk⟩ := h.whole
  have hfits := array.fits
  have hused := h.used
  constructor
  · intro hfull
    have : array.values.length = block * k := by omega
    rw [this, Nat.mul_mod_right]
  · intro hmod hroom
    -- the number and the room are whole blocks, and less than one block apart
    obtain ⟨j, hj⟩ := Nat.dvd_of_mod_eq_zero hmod
    rw [hj, hk] at hroom
    rw [hj, hk, ← Nat.mul_succ] at hused
    have hlt := Nat.lt_of_mul_lt_mul_left hroom
    have hle := Nat.lt_of_mul_lt_mul_left hused
    omega

theorem push (h : array.WholeBlocks block) (value : α)
    (hroom : array.values.length < array.capacity) : (array.push value hroom).WholeBlocks block where
  whole := h.whole
  used := by
    have hused := h.used
    rw [length_push]
    exact Nat.lt_of_lt_of_le hused (by omega)

theorem grow_push (h : array.WholeBlocks block) (hblock : 0 < block) (value : α)
    (hfull : ¬ array.values.length < array.capacity) :
    ((array.grow block).push value (array.room_grow hblock)).WholeBlocks block where
  whole := Nat.dvd_add h.whole (Nat.dvd_refl block)
  used := by
    rw [length_push]
    unfold GrowArray.push GrowArray.grow
    dsimp only
    omega

/-- A value is refused only where the number of values asks for a block that there is not. -/
theorem values_append (h : array.WholeBlocks block) (hblock : 0 < block) (value : α)
    (grows : Bool) :
    (array.append hblock value grows).values =
      array.values ++ if array.values.length % block ≠ 0 ∨ grows = true then [value] else [] := by
  by_cases hroom : array.values.length < array.capacity
  · have hmod : array.values.length % block ≠ 0 := fun he => h.full_iff.mpr he hroom
    rw [append_of_room hblock value grows hroom, if_pos (.inl hmod), values_push]
  · have hmod := h.full_iff.mp hroom
    cases grows with
    | true => rw [append_of_grows hblock value hroom, if_pos (.inr rfl), values_push]; rfl
    | false => rw [append_of_full hblock value hroom, if_neg (by simp [hmod]), List.append_nil]

end WholeBlocks

end GrowArray

end Cmsg.Base
