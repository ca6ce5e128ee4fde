import Cmsg.Base.Bytes

/-! # Bytes laid out in memory

Where memory holds a list of bytes, the words and strings of the list can be
read back. -/
namespace Cmsg.Base

/-- The bytes from position `pos` on start with the given ones. -/
def Holds (m : Memory) (pos : Nat) (bytes : List UInt8) : Prop :=
  ∀ i (h : i < bytes.length), m (pos + i) = bytes[i]

section
variable {m : Memory} {pos : Nat}

theorem Holds.append {a b : List UInt8} (h : Holds m pos (a ++ b)) :
    Holds m pos a ∧ Holds m (pos + a.length) b := by
  constructor
  · intro i hi
    have hlt : i < (a ++ b).length := by
      rw [List.length_append]
      omega
    rw [h i hlt, List.getElem_append_left hi]
  · intro i hi
    have hlt : a.length + i < (a ++ b).length := by
      rw [List.length_append]
      omega
    rw [Nat.add_assoc, h _ hlt, List.getElem_append_right (by omega)]
    simp

theorem Holds.front {m : Memory} {pos : Nat} {front bytes : List UInt8} (h : Holds m pos bytes)
    (hp : front <+: bytes) : Holds m pos front := by
  obtain ⟨rest, rfl⟩ := hp
  exact h.append.1

theorem holds_ofBytes (bytes : List UInt8) (rest : Memory) : Holds (ofBytes bytes rest) 0 bytes := by
  intro i hi
  simp [ofBytes, hi]

theorem Holds.slice {bytes : List UInt8} (h : Holds m pos bytes) :
    slice m pos bytes.length = bytes := by
  refine List.ext_getElem (by simp) fun i _ hi => ?_
  simp [Base.slice, h i hi]

theorem holds_slice (m : Memory) (pos n : Nat) : Holds m pos (Base.slice m pos n) := by
  intro i hi
  simp [Base.slice]

/-- The last bytes of a list. -/
theorem slice_ofBytes {bytes : List UInt8} (rest : Memory) {pos n : Nat}
    (h : pos + n = bytes.length) : Base.slice (ofBytes bytes rest) pos n = bytes.drop pos := by
  have hm := holds_ofBytes bytes rest
  rw [← List.take_append_drop pos bytes] at hm
  have hlast := hm.append.2.slice
  rw [List.take_append_drop, List.length_take, List.length_drop, Nat.zero_add,
    Nat.min_eq_left (by omega), show bytes.length - pos = n by omega] at hlast
  exact hlast

/-- The string that memory holds with its terminator. -/
theorem Holds.takeWhile_slice {bytes : List UInt8} {n : Nat} (h : Holds m pos (bytes ++ [0]))
    (hne : ∀ b ∈ bytes, b ≠ 0) (hn : bytes.length < n) :
    (Base.slice m pos n).takeWhile (· != 0) = bytes := by
  have hslice := h.slice
  rw [List.length_append, List.length_singleton] at hslice
  rw [show n = bytes.length + 1 + (n - (bytes.length + 1)) by omega, slice_add, hslice,
    List.append_assoc, List.takeWhile_append_of_pos (by simpa using hne)]
  simp

/-! ## Writes -/

/-- `memcpy` of some bytes to a position -/
def memcpy (m : Memory) (pos : Nat) (bytes : List UInt8) : Memory := fun p =>
  if pos ≤ p then (bytes[p - pos]?).getD (m p) else m p

theorem holds_memcpy (m : Memory) (pos : Nat) (bytes : List UInt8) :
    Holds (memcpy m pos bytes) pos bytes := by
  intro i hi
  simp [memcpy, hi]

theorem slice_memcpy {bytes : List UInt8} {n : Nat} (h : bytes.length = n) :
    Base.slice (memcpy m pos bytes) pos n = bytes := by
  rw [← h]
  exact (holds_memcpy m pos bytes).slice

/-- What is written elsewhere is not seen. -/
theorem slice_memcpy_of_disjoint {bytes : List UInt8} {q n : Nat}
    (h : q + n ≤ pos ∨ pos + bytes.length ≤ q) :
    Base.slice (memcpy m pos bytes) q n = Base.slice m q n := by
  refine slice_congr fun i hi => ?_
  unfold memcpy
  split
  · next hle =>
    rw [List.getElem?_eq_none (by omega), Option.getD_none]
  · rfl

/-! ## Words -/

theorem toNat_ofNat_add (a b c d : Nat) :
    2 ^ 24 * (UInt8.ofNat a).toNat + 2 ^ 16 * (UInt8.ofNat b).toNat +
      2 ^ 8 * (UInt8.ofNat c).toNat + (UInt8.ofNat d).toNat =
    2 ^ 24 * (a % 256) + 2 ^ 16 * (b % 256) + 2 ^ 8 * (c % 256) + d % 256 := by
  simp

@[simp] theorem length_toBe32 (n : Nat) : (toBe32 n).length = 4 := rfl

/-- A word that was written is read back. -/
theorem Holds.be32 {n : Nat} (h : Holds m pos (toBe32 n)) : be32 m pos = wrap32 n := by
  have h₀ := h 0 (by simp)
  have h₁ := h 1 (by simp)
  have h₂ := h 2 (by simp)
  have h₃ := h 3 (by simp)
  rw [Nat.add_zero] at h₀
  rw [Base.be32, h₀, h₁, h₂, h₃]
  show 2 ^ 24 * (UInt8.ofNat (n / 2 ^ 24)).toNat + 2 ^ 16 * (UInt8.ofNat (n / 2 ^ 16)).toNat +
    2 ^ 8 * (UInt8.ofNat (n / 2 ^ 8)).toNat + (UInt8.ofNat n).toNat = _
  rw [toNat_ofNat_add, wrap32, word32]
  omega

theorem Holds.be32_of_lt {n : Nat} (h : Holds m pos (toBe32 n)) (hn : n < word32) :
    Base.be32 m pos = n := by
  rw [h.be32, wrap32_of_lt hn]

theorem ofNat_eq_of_mod {n : Nat} {b : UInt8} (h : n % 256 = b.toNat) : UInt8.ofNat n = b := by
  refine UInt8.toNat.inj ?_
  rw [UInt8.toNat_ofNat']
  exact h

/-- A word that was read is written back. -/
theorem toBe32_be32 (m : Memory) (pos : Nat) :
    toBe32 (be32 m pos) = [m pos, m (pos + 1), m (pos + 2), m (pos + 3)] := by
  have h₀ := (m pos).toNat_lt
  have h₁ := (m (pos + 1)).toNat_lt
  have h₂ := (m (pos + 2)).toNat_lt
  have h₃ := (m (pos + 3)).toNat_lt
  rw [toBe32, be32, ofNat_eq_of_mod (show _ = (m pos).toNat by omega),
    ofNat_eq_of_mod (show _ = (m (pos + 1)).toNat by omega),
    ofNat_eq_of_mod (show _ = (m (pos + 2)).toNat by omega),
    ofNat_eq_of_mod (show _ = (m (pos + 3)).toNat by omega)]

/-- The word that bytes in memory start with. -/
theorem Holds.word_append {bytes : List UInt8} (h : Holds m pos bytes)
    (hlen : 4 ≤ bytes.length) : toBe32 (Base.be32 m pos) ++ bytes.drop 4 = bytes := by
  obtain ⟨a, b, c, d, rest, rfl⟩ : ∃ a b c d rest, bytes = a :: b :: c :: d :: rest := by
    match bytes, hlen with
    | a :: b :: c :: d :: rest, _ => exact ⟨a, b, c, d, rest, rfl⟩
  have h₀ := h 0 (by simp)
  have h₁ := h 1 (by simp)
  have h₂ := h 2 (by simp)
  have h₃ := h 3 (by simp)
  rw [Nat.add_zero] at h₀
  rw [toBe32_be32, h₀, h₁, h₂, h₃]
  rfl
/-! ## Strings -/

/-- `strncpy`, as the bytes it writes -/
def strncpy (src : CString) (n : Nat) : List UInt8 := (src ++ List.replicate n 0).take n

/-- With room for the terminator the string is copied together with it. -/
theorem strncpy_succ (src : CString) : strncpy src (src.length + 1) = src ++ [0] := by
  rw [strncpy, List.take_append, List.take_of_length_le (Nat.le_succ _)]
  simp

end
end Cmsg.Base
