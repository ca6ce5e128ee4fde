import Mathlib.Data.List.TakeWhile
import Cmsg.Proxy.Precedence

/-! # Numerals in parameters

A parameter of a 32-bit field is read with `strtoll`, which skips white space in front of
a numeral, and which reads nothing of an empty string, to its end. -/
namespace Cmsg.Proxy
open Cmsg.Base

/-- The types that `strtoll` is used for. -/
def FieldType.isWord : FieldType → Bool
  | .int32 | .sint32 | .sfixed32 | .uint32 | .fixed32 => true
  | _ => false

/-- Whether a minus sign comes first, and what follows the sign, if there is one. -/
def signOf : CString → Bool × CString
  | [] => (false, [])
  | c :: rest => if c = 0x2d then (true, rest) else if c = 0x2b then (false, rest) else (false, c :: rest)

/-- The value of a decimal numeral: an optional sign, then digits and nothing else. -/
def numeralValue (s : CString) : Option Int :=
  let (negative, digits) := signOf s
  if digits ≠ [] ∧ digits.all isDigit then
    some (if negative then -decimalValue digits else decimalValue digits)
  else none

def IsNumeral (s : CString) : Prop := (numeralValue s).isSome

instance (s : CString) : Decidable (IsNumeral s) :=
  inferInstanceAs (Decidable ((numeralValue s).isSome = true))

/-- White space, at least one character, and then a numeral. -/
def SpacedNumeral (s : CString) : Prop :=
  s.head?.any isSpace = true ∧ IsNumeral (s.dropWhile isSpace)

instance (s : CString) : Decidable (SpacedNumeral s) := inferInstanceAs (Decidable (_ ∧ _))

/-- The parameter becomes an integer if it is a numeral, the one that it denotes where that fits
64 bits, and a string otherwise. -/
structure ReadsNumeral (text : Text) (field : FieldDescriptor) (s : CString) : Prop where
  integer : (∃ n, jsonValueToObject text field (some s) = some (packField field (.int n))) ↔
    IsNumeral s
  value : ∀ n v, jsonValueToObject text field (some s) = some (packField field (.int n)) →
    numeralValue s = some v → -2 ^ 63 ≤ v → v < 2 ^ 63 → n = v
  other : ¬ IsNumeral s →
    jsonValueToObject text field (some s) = some (packField field (.string s))

/-! ## What `strtoll` reads -/

theorem strtoll_eq (s : CString) :
    strtoll s =
      let (negative, unsigned) := signOf (s.dropWhile isSpace)
      let digits := unsigned.takeWhile isDigit
      if digits.isEmpty then (0, s)
      else
        let value := if negative then -decimalValue digits else decimalValue digits
        (max (-2 ^ 63) (min (2 ^ 63 - 1) value), unsigned.dropWhile isDigit) := by
  unfold strtoll signOf
  cases s.dropWhile isSpace <;> rfl

/-- The number is the one that the numeral denotes, kept within 64 bits. -/
theorem strtoll_of_numeral {s : CString} {v : Int} (h : numeralValue (s.dropWhile isSpace) = some v) :
    strtoll s = (max (-2 ^ 63) (min (2 ^ 63 - 1) v), []) := by
  rw [strtoll_eq]
  unfold numeralValue at h
  dsimp only at h ⊢
  split at h
  · next hdigits =>
    have hall : ∀ c ∈ (signOf (s.dropWhile isSpace)).2, isDigit c = true :=
      List.all_eq_true.mp hdigits.2
    have htake := List.takeWhile_eq_self_iff.mpr hall
    have hdrop := List.dropWhile_eq_nil_iff.mpr hall
    rw [htake, hdrop, if_neg (by simpa using hdigits.1), Option.some.inj h]
  · cases h

theorem strtoll_end_iff (s : CString) :
    (strtoll s).2 = [] ↔ s = [] ∨ IsNumeral (s.dropWhile isSpace) := by
  constructor
  · intro h
    rw [strtoll_eq] at h
    dsimp only at h
    split at h
    · exact .inl h
    · next hne =>
      have hall := List.dropWhile_eq_nil_iff.mp h
      have hnil : (signOf (s.dropWhile isSpace)).2 ≠ [] := by
        intro hnil
        rw [hnil] at hne
        exact hne rfl
      rw [IsNumeral, numeralValue]
      dsimp only
      rw [if_pos ⟨hnil, List.all_eq_true.mpr hall⟩]
      exact .inr rfl
  · rintro (rfl | h)
    · rfl
    · obtain ⟨v, hv⟩ := Option.isSome_iff_exists.mp h
      rw [strtoll_of_numeral hv]

/-- A numeral starts with a sign or a digit. -/
theorem not_space_of_numeral {s : CString} (h : IsNumeral s) : s.head?.any isSpace = false := by
  cases s with
  | nil => rfl
  | cons c rest =>
    rw [List.head?_cons, Option.any_some]
    by_contra hspace
    rw [Bool.not_eq_false] at hspace
    have hminus : c ≠ 0x2d := by
      rintro rfl
      cases hspace
    have hplus : c ≠ 0x2b := by
      rintro rfl
      cases hspace
    have hdigit : isDigit c = true := by
      rw [IsNumeral, numeralValue, signOf, if_neg hminus, if_neg hplus] at h
      dsimp only at h
      split at h
      · next hdigits => exact List.all_eq_true.mp hdigits.2 c List.mem_cons_self
      · cases h
    simp only [isSpace, isDigit, Bool.or_eq_true, Bool.and_eq_true, beq_iff_eq, decide_eq_true_eq,
      UInt8.le_iff_toNat_le, ← UInt8.toNat_inj] at hspace hdigit
    simp at hspace hdigit
    omega

theorem dropWhile_of_not_space {s : CString} (h : s.head?.any isSpace = false) :
    s.dropWhile isSpace = s := by
  cases s with
  | nil => rfl
  | cons c rest =>
    rw [List.head?_cons, Option.any_some] at h
    exact List.dropWhile_cons_of_neg (by simp [h])

/-- What is read to its end: nothing, or a numeral with or without white space before it. -/
theorem strtoll_end_cases (s : CString) :
    (strtoll s).2 = [] ↔ s = [] ∨ SpacedNumeral s ∨ IsNumeral s := by
  rw [strtoll_end_iff]
  cases hspace : s.head?.any isSpace with
  | true =>
    have hnot : ¬ IsNumeral s := by
      intro h
      rw [not_space_of_numeral h] at hspace
      cases hspace
    simp [SpacedNumeral, hspace, hnot]
  | false =>
    rw [dropWhile_of_not_space hspace]
    simp [SpacedNumeral, hspace]

/-! ## What the field is set to -/

section
variable {text : Text} {field : FieldDescriptor}

theorem packField_injective {j j' : Json} (h : packField field j = packField field j') : j = j' := by
  unfold packField at h
  by_cases hrep : field.label = .repeated
  · simpa [hrep] using h
  · simpa [hrep] using h

theorem jsonValueToObject_word (hword : field.type.isWord = true) (s : CString) :
    jsonValueToObject text field (some s) =
      if (strtoll s).2 = [] then some (packField field (.int (strtoll s).1))
      else jsonValueHandleAsString text field s := by
  unfold jsonValueToObject
  cases hty : field.type <;> rw [hty] at hword
  case int32 | sint32 | sfixed32 | uint32 | fixed32 => simp [List.isEmpty_iff]
  all_goals cases hword

/-- An integer is made of what is read to its end. -/
theorem makes_int_iff (hword : field.type.isWord = true) {s : CString} {n : Int} :
    jsonValueToObject text field (some s) = some (packField field (.int n)) ↔
      (strtoll s).2 = [] ∧ (strtoll s).1 = n := by
  rw [jsonValueToObject_word hword]
  by_cases hend : (strtoll s).2 = []
  · rw [if_pos hend, Option.some.injEq]
    constructor
    · exact fun h => ⟨hend, Json.int.inj (packField_injective h)⟩
    · rintro ⟨_, rfl⟩
      rfl
  · rw [if_neg hend]
    constructor
    · intro h
      unfold jsonValueHandleAsString at h
      split at h
      · cases packField_injective (Option.some.inj h)
      · cases h
    · exact fun h => absurd h.1 hend

theorem makes_string_iff (hword : field.type.isWord = true) {s : CString} :
    jsonValueToObject text field (some s) = some (packField field (.string s)) ↔
      (strtoll s).2 ≠ [] ∧ text.utf8 s = true := by
  rw [jsonValueToObject_word hword]
  by_cases hend : (strtoll s).2 = []
  · rw [if_pos hend, Option.some.injEq]
    constructor
    · intro h
      cases packField_injective h
    · exact fun h => absurd hend h.1
  · rw [if_neg hend, jsonValueHandleAsString]
    by_cases hutf8 : text.utf8 s = true
    · simp [hend, hutf8]
    · simp [hutf8]

/-- **Numerals.** A parameter is read as it should exactly when it is a numeral, or text that is
neither empty nor a numeral with white space before it. -/
theorem readsNumeral_iff (hword : field.type.isWord = true) (s : CString) :
    ReadsNumeral text field s ↔
      s ≠ [] ∧ ¬ SpacedNumeral s ∧ (IsNumeral s ∨ text.utf8 s = true) := by
  have hint : (∃ n, jsonValueToObject text field (some s) = some (packField field (.int n))) ↔
      (strtoll s).2 = [] := by
    simp only [makes_int_iff hword]
    exact ⟨fun ⟨_, h, _⟩ => h, fun h => ⟨_, h, rfl⟩⟩
  constructor
  · intro h
    have hend := hint.symm.trans h.integer
    rw [strtoll_end_cases] at hend
    refine ⟨?_, ?_, ?_⟩
    · rintro rfl
      have hnumeral : IsNumeral [] := hend.mp (.inl rfl)
      cases hnumeral
    · intro hspaced
      have hspace := not_space_of_numeral (hend.mp (.inr (.inl hspaced)))
      rw [hspaced.1] at hspace
      cases hspace
    · by_cases hnumeral : IsNumeral s
      · exact .inl hnumeral
      · exact .inr ((makes_string_iff hword).mp (h.other hnumeral)).2
  · rintro ⟨hne, hspaced, hread⟩
    have hend : (strtoll s).2 = [] ↔ IsNumeral s := by
      rw [strtoll_end_cases]
      simp [hne, hspaced]
    refine ⟨hint.trans hend, ?_, ?_⟩
    · intro n v hn hv hlow hhigh
      have hnumeral : IsNumeral s := by rw [IsNumeral, hv]; rfl
      have hdrop := dropWhile_of_not_space (not_space_of_numeral hnumeral)
      rw [← hdrop] at hv
      rw [makes_int_iff hword, strtoll_of_numeral hv] at hn
      omega
    · intro hnumeral
      exact (makes_string_iff hword).mpr ⟨fun h => hnumeral (hend.mp h), hread.resolve_left hnumeral⟩

end

/-- `id=-12`. -/
theorem readsNumeral_sample :
    ReadsNumeral ⟨some, fun _ => true⟩ ⟨cstr "id", .optional, .uint32⟩ (cstr "-12") :=
  (readsNumeral_iff rfl _).mpr ⟨by decide, by decide, .inl (by decide)⟩

/-- The empty parameter is read as the integer 0. -/
theorem empty_parameter_is_zero :
    jsonValueToObject ⟨some, fun _ => true⟩ ⟨cstr "id", .optional, .uint32⟩ (some []) =
        some [(cstr "id", .int 0)] ∧
      ¬ ReadsNumeral ⟨some, fun _ => true⟩ ⟨cstr "id", .optional, .uint32⟩ [] := by
  refine ⟨rfl, fun h => ?_⟩
  have hnumeral : IsNumeral [] := h.integer.mp ⟨0, rfl⟩
  cases hnumeral

end Cmsg.Proxy
