import Mathlib.Algebra.Group.Int.Defs
import Mathlib.Algebra.Group.Nat.Defs
import Mathlib.Data.List.Basic

/-! # Bytes in memory

Memory is a function from positions to bytes. Words of 32 bits are naturals
below `2 ^ 32`, and arithmetic on them is arithmetic on naturals followed by
`wrap32`. -/
namespace Cmsg.Base

-- A C string, without its terminator.
abbrev CString := List UInt8

/-- The number of 32-bit words. -/
def word32 : Nat := 4294967296

/-- The 32-bit word that a natural number wraps round to. -/
def wrap32 (n : Nat) : Nat := n % word32

/-- An `int` that is not negative is a word. -/
theorem lt_word32 {n : Nat} (h : n < 2 ^ 31) : n < word32 := Nat.lt_trans h (by decide)

theorem wrap32_lt (n : Nat) : wrap32 n < word32 := Nat.mod_lt _ (by decide)

theorem wrap32_of_lt {n : Nat} (h : n < word32) : wrap32 n = n := Nat.mod_eq_of_lt h

theorem wrap32_le (n : Nat) : wrap32 n ≤ n := Nat.mod_le _ _

/-- Subtraction of 32-bit words. -/
def sub32 (a b : Nat) : Nat := wrap32 (word32 + a - b)

theorem sub32_of_le {a b : Nat} (h : b ≤ a) (ha : a < word32) : sub32 a b = a - b := by
  have : word32 + a - b = (a - b) + word32 := by omega
  rw [sub32, wrap32, this, Nat.add_mod_right, Nat.mod_eq_of_lt (by omega)]

theorem sub32_of_lt {a b : Nat} (h : a < b) (hb : b < word32) : sub32 a b = word32 + a - b := by
  rw [sub32, wrap32_of_lt (by omega)]

theorem sub32_eq_zero {a b : Nat} (ha : a < word32) (hb : b < word32) :
    sub32 a b = 0 ↔ a = b := by
  by_cases h : b ≤ a
  · rw [sub32_of_le h ha]
    omega
  · rw [sub32_of_lt (Nat.lt_of_not_le h) hb]
    omega

theorem sub32_lt (a b : Nat) : sub32 a b < word32 := wrap32_lt _

/-- The value of a 32-bit word read as a signed `int`. -/
def toInt32 (n : Nat) : Int := if n < 2 ^ 31 then n else (n : Int) - word32

theorem toInt32_of_lt {n : Nat} (h : n < 2 ^ 31) : toInt32 n = n := if_pos h

theorem toInt32_neg {n : Nat} (h : 2 ^ 31 ≤ n) (hn : n < word32) : toInt32 n < 0 := by
  have : ¬ n < 2 ^ 31 := by omega
  simp only [toInt32, if_neg this]
  omega

theorem toInt32_pos {n : Nat} (hn : n < word32) : 0 < toInt32 n ↔ 0 < n ∧ n < 2 ^ 31 := by
  by_cases h : n < 2 ^ 31
  · rw [toInt32_of_lt h]
    omega
  · have := toInt32_neg (Nat.le_of_not_lt h) hn
    omega

theorem toInt32_inj {m n : Nat} (hm : m < word32) (hn : n < word32) :
    toInt32 m = toInt32 n ↔ m = n := by
  constructor
  · intro h
    unfold toInt32 at h
    split at h
    · split at h
      · omega
      · omega
    · split at h
      · omega
      · omega
  · intro h
    rw [h]

/-- Memory: the byte at each position. -/
abbrev Memory := Nat → UInt8

/-- The big-endian word at position `pos`. -/
def be32 (m : Memory) (pos : Nat) : Nat :=
  2 ^ 24 * (m pos).toNat + 2 ^ 16 * (m (pos + 1)).toNat + 2 ^ 8 * (m (pos + 2)).toNat +
    (m (pos + 3)).toNat

theorem be32_lt (m : Memory) (pos : Nat) : be32 m pos < word32 := by
  have h := fun i => (m i).toNat_lt
  have h₀ := h pos
  have h₁ := h (pos + 1)
  have h₂ := h (pos + 2)
  have h₃ := h (pos + 3)
  simp only [be32, word32]
  omega

/-- Memory that starts with the bytes of a list; `rest` is what lies after them. -/
def ofBytes (bytes : List UInt8) (rest : Memory) : Memory := fun i =>
  (bytes[i]?).getD (rest i)

/-- The `n` bytes from position `pos` on. -/
def slice (m : Memory) (pos n : Nat) : List UInt8 := (List.range n).map fun i => m (pos + i)

/-- The positions `pos`, …, `pos + n - 1`. -/
def span (pos n : Nat) : List Nat := (List.range n).map (pos + ·)

@[simp] theorem mem_span {pos n i : Nat} : i ∈ span pos n ↔ pos ≤ i ∧ i < pos + n := by
  simp only [span, List.mem_map, List.mem_range]
  constructor
  · rintro ⟨a, ha, rfl⟩
    omega
  · rintro ⟨h₁, h₂⟩
    exact ⟨i - pos, by omega, by omega⟩

@[simp] theorem length_slice (m : Memory) (pos n : Nat) : (slice m pos n).length = n := by
  simp [slice]

/-- The big-endian bytes of a word. -/
def toBe32 (n : Nat) : List UInt8 :=
  [UInt8.ofNat (n / 2 ^ 24), UInt8.ofNat (n / 2 ^ 16), UInt8.ofNat (n / 2 ^ 8), UInt8.ofNat n]

theorem slice_congr {m m' : Memory} {pos pos' n : Nat}
    (h : ∀ i, i < n → m (pos + i) = m' (pos' + i)) : slice m pos n = slice m' pos' n :=
  List.map_congr_left fun i hi => h i (List.mem_range.mp hi)

theorem slice_add (m : Memory) (pos a b : Nat) :
    slice m pos (a + b) = slice m pos a ++ slice m (pos + a) b := by
  unfold slice
  rw [List.range_add, List.map_append, List.map_map]
  refine congrArg _ (List.map_congr_left fun i _ => ?_)
  rw [Function.comp_apply, Nat.add_assoc]

theorem be32_congr {m m' : Memory} {pos pos' : Nat}
    (h : ∀ i, i < 4 → m (pos + i) = m' (pos' + i)) : be32 m pos = be32 m' pos' := by
  have h₀ := h 0 (by omega)
  rw [Nat.add_zero, Nat.add_zero] at h₀
  rw [be32, be32, h₀, h 1 (by omega), h 2 (by omega), h 3 (by omega)]

end Cmsg.Base
