import Mathlib.Data.List.Basic

/-! # Files and their names

A directory gives names to files. A file that is open stays the same file when its name is
given to another, so a file written under a name of its own and then renamed replaces
another one in a single step. -/
namespace Cmsg.Base

structure Files (ν : Type) where
  named : ν → Option Nat
  content : Nat → List UInt8
  next : Nat

namespace Files

variable {ν : Type}

/-- The files with names exist, and no file has two. -/
structure WellFormed (fs : Files ν) : Prop where
  lt : ∀ {n i}, fs.named n = some i → i < fs.next
  inj : ∀ {n m i}, fs.named n = some i → fs.named m = some i → n = m

def setContent (fs : Files ν) (i : Nat) (bytes : List UInt8) : Files ν :=
  { fs with content := fun j => if j = i then bytes else fs.content j }

section
variable {fs : Files ν} {i j : Nat}

@[simp] theorem named_setContent (bytes : List UInt8) :
    (fs.setContent i bytes).named = fs.named := rfl

theorem WellFormed.setContent (h : fs.WellFormed) (i : Nat) (bytes : List UInt8) :
    (fs.setContent i bytes).WellFormed :=
  ⟨h.lt, h.inj⟩

theorem content_setContent_ne (h : j ≠ i) (bytes : List UInt8) :
    (fs.setContent i bytes).content j = fs.content j := if_neg h

end

variable [DecidableEq ν]

/-- Opens for writing: the file of the name without its content, or a new one. -/
def create (fs : Files ν) (n : ν) : Files ν × Nat :=
  match fs.named n with
  | some i => (fs.setContent i [], i)
  | none =>
    ({ named := fun m => if m = n then some fs.next else fs.named m
       content := fun j => if j = fs.next then [] else fs.content j
       next := fs.next + 1 }, fs.next)

/-- The file of one name takes another, whose file loses it. -/
def rename (fs : Files ν) (old new : ν) : Files ν :=
  match fs.named old with
  | none => fs
  | some i =>
    { fs with
      named := fun m => if m = new then some i else if m = old then none else fs.named m }

/-- What a reader who opens the file now would find. -/
def read (fs : Files ν) (n : ν) : Option (List UInt8) := (fs.named n).map fs.content

variable {fs : Files ν} {n m : ν} {i j : Nat}

/-! ## Names -/

theorem named_create (fs : Files ν) (n m : ν) :
    (fs.create n).1.named m = if m = n then some (fs.create n).2 else fs.named m := by
  unfold create
  cases hn : fs.named n with
  | none => rfl
  | some i =>
    by_cases hm : m = n
    · rw [if_pos hm, hm]
      exact hn
    · rw [if_neg hm]
      rfl

theorem named_rename_new (hold : fs.named n = some i) : (fs.rename n m).named m = some i := by
  simp [rename, hold]

theorem named_rename_other {k : ν} (hm : k ≠ m) (hn : k ≠ n) :
    (fs.rename n m).named k = fs.named k := by
  unfold rename
  cases fs.named n with
  | none => rfl
  | some i => simp [hm, hn]

/-- A name after a renaming was there before, or is the new name of the file. -/
theorem named_rename {k : ν} (h : (fs.rename n m).named k = some j) :
    (k = m ∧ fs.named n = some j) ∨ fs.named k = some j := by
  unfold rename at h
  cases hold : fs.named n with
  | none =>
    rw [hold] at h
    exact .inr h
  | some i =>
    rw [hold] at h
    dsimp only at h
    split at h
    · next hm => exact .inl ⟨hm, h⟩
    · split at h
      · cases h
      · exact .inr h

/-! ## Well-formed files -/

theorem WellFormed.create (h : fs.WellFormed) (n : ν) :
    (fs.create n).1.WellFormed ∧ (fs.create n).2 < (fs.create n).1.next := by
  unfold Files.create
  cases hn : fs.named n with
  | some i => exact ⟨h.setContent i [], h.lt hn⟩
  | none =>
    refine ⟨⟨?_, ?_⟩, Nat.lt_succ_self _⟩
    · intro m i hi
      dsimp only at hi ⊢
      split at hi
      · cases hi
        exact Nat.lt_succ_self _
      · exact Nat.lt_succ_of_lt (h.lt hi)
    · intro k m i hk hm
      dsimp only at hk hm
      split at hk
      · next hkn =>
        cases hk
        split at hm
        · next hmn => rw [hkn, hmn]
        · exact absurd (h.lt hm) (Nat.lt_irrefl _)
      · split at hm
        · cases hm
          exact absurd (h.lt hk) (Nat.lt_irrefl _)
        · exact h.inj hk hm

theorem WellFormed.rename (h : fs.WellFormed) (n m : ν) : (fs.rename n m).WellFormed := by
  unfold Files.rename
  cases hn : fs.named n with
  | none => exact h
  | some i =>
    refine ⟨?_, ?_⟩
    · intro k j hj
      dsimp only at hj ⊢
      split at hj
      · cases hj
        exact h.lt hn
      · split at hj
        · cases hj
        · exact h.lt hj
    · intro k l j hk hl
      dsimp only at hk hl
      split at hk
      · next hkm =>
        cases hk
        split at hl
        · next hlm => rw [hkm, hlm]
        · split at hl
          · cases hl
          · next hln => exact absurd (h.inj hl hn) hln
      · split at hk
        · cases hk
        · next hkn =>
          split at hl
          · cases hl
            exact absurd (h.inj hk hn) hkn
          · split at hl
            · cases hl
            · exact h.inj hk hl

theorem next_create (fs : Files ν) (n : ν) : fs.next ≤ (fs.create n).1.next := by
  unfold create
  cases fs.named n with
  | none => exact Nat.le_succ _
  | some i => exact Nat.le_refl _

@[simp] theorem next_rename (fs : Files ν) (n m : ν) : (fs.rename n m).next = fs.next := by
  unfold rename
  cases fs.named n <;> rfl

/-! ## Contents -/

theorem create_snd_ne (hlt : i < fs.next) (hother : fs.named n ≠ some i) :
    (fs.create n).2 ≠ i := by
  unfold create
  cases hn : fs.named n with
  | none => exact (Nat.ne_of_lt hlt).symm
  | some j =>
    rintro rfl
    exact hother hn

/-- Opening another file for writing leaves the content of a file. -/
theorem content_create_ne (hlt : i < fs.next) (hother : fs.named n ≠ some i) :
    (fs.create n).1.content i = fs.content i := by
  unfold create
  cases hn : fs.named n with
  | none => exact if_neg (Nat.ne_of_lt hlt)
  | some j =>
    refine content_setContent_ne ?_ []
    rintro rfl
    exact hother hn

@[simp] theorem content_rename (fs : Files ν) (n m : ν) :
    (fs.rename n m).content = fs.content := by
  unfold rename
  cases fs.named n <;> rfl

end Files

end Cmsg.Base
