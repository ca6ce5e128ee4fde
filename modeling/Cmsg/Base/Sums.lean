import Mathlib.Algebra.BigOperators.Finprod

/-! # Sums over the keys of a table

A table has entries under finitely many keys, and what its entries count is a
sum over all keys. A change of one entry changes the sum by the change of the
entry. -/
namespace Cmsg.Base

variable {κ : Type _} {f g : κ → Nat}

/-- The sums of two functions that agree everywhere but at one key. -/
theorem finsum_add_of_agree (hf : (Function.support f).Finite) {k : κ}
    (h : ∀ j, j ≠ k → g j = f j) : (∑ᶠ j, g j) + f k = (∑ᶠ j, f j) + g k := by
  classical
  have hsupport : ∀ u : κ → Nat, (∀ j, j ≠ k → u j = f j) →
      Function.support u ⊆ (insert k hf.toFinset : Finset κ) := by
    intro u hu j hj
    rw [Finset.mem_coe, Finset.mem_insert]
    by_cases hjk : j = k
    · exact .inl hjk
    · refine .inr (hf.mem_toFinset.mpr ?_)
      rw [Function.mem_support, ← hu j hjk]
      exact hj
  have hmem : k ∈ insert k hf.toFinset := Finset.mem_insert_self _ _
  have hrest : ∑ j ∈ (insert k hf.toFinset).erase k, g j =
      ∑ j ∈ (insert k hf.toFinset).erase k, f j :=
    Finset.sum_congr rfl fun j hj => h j (Finset.ne_of_mem_erase hj)
  have hsumf := Finset.sum_erase_add _ (fun j => f j) hmem
  have hsumg := Finset.sum_erase_add _ (fun j => g j) hmem
  rw [hrest] at hsumg
  rw [finsum_eq_sum_of_support_subset f (hsupport f fun _ _ => rfl),
    finsum_eq_sum_of_support_subset g (hsupport g h), ← hsumf, ← hsumg]
  omega

end Cmsg.Base
