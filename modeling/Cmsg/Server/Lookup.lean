import Cmsg.Server.Service

/-! # Finding a method by its name

The generator lists the indices of the methods in the order of their names, and
the search of that table finds every method under its own name. -/
namespace Cmsg.Server
open Cmsg.Base Cmsg.Wire

variable {Msg : Type}

/-! ## The order of names -/

theorem strcmp_self (s : CString) : strcmp s s = .eq := by
  induction s with
  | nil => rfl
  | cons c s ih => simp [strcmp, ih]

theorem strcmp_eq {s t : CString} (h : strcmp s t = .eq) : s = t := by
  induction s generalizing t with
  | nil =>
    cases t with
    | nil => rfl
    | cons c t => cases h
  | cons b s ih =>
    cases t with
    | nil => cases h
    | cons c t =>
      unfold strcmp at h
      split at h
      · cases h
      · next hlt =>
        split at h
        · cases h
        · next hgt =>
          rw [UInt8.le_antisymm (UInt8.not_lt.mp hgt) (UInt8.not_lt.mp hlt), ih h]

theorem strcmp_swap (s t : CString) : strcmp t s = (strcmp s t).swap := by
  induction s generalizing t with
  | nil =>
    cases t with
    | nil => rfl
    | cons c t => rfl
  | cons b s ih =>
    cases t with
    | nil => rfl
    | cons c t =>
      unfold strcmp
      by_cases hlt : b < c
      · rw [if_pos hlt, if_neg (UInt8.lt_asymm hlt), if_pos hlt]
        rfl
      · rw [if_neg hlt]
        split
        · rfl
        · exact ih t

/-! ## The table of the generator -/

/-- The names of the methods are distinct, and the table has the indices of the
methods in the order of the names. -/
structure Service.Sorted (svc : Service Msg) : Prop where
  distinct : (svc.methods.map (·.name)).Nodup
  perm : svc.methodIndicesByName.Perm (List.range svc.nMethods)
  ordered : ∀ p q, p < q → q < svc.nMethods → strcmp (svc.nameAt p) (svc.nameAt q) ≠ .gt

section
variable {svc : Service Msg}

theorem Service.nameAt_eq {p : Nat} {i : Fin svc.nMethods}
    (h : svc.methodIndicesByName.getD p 0 = i) : svc.nameAt p = (svc.methods.get i).name := by
  have hmethod : svc.methods[i.val]? = some (svc.methods.get i) := List.getElem?_eq_getElem i.isLt
  rw [Service.nameAt, h, hmethod]

theorem Service.Sorted.index_inj (h : svc.Sorted) {i j : Fin svc.nMethods}
    (hname : (svc.methods.get i).name = (svc.methods.get j).name) : i = j := by
  have hlen : (svc.methods.map (·.name)).length = svc.nMethods := List.length_map ..
  have hi : i.val < (svc.methods.map (·.name)).length := Nat.lt_of_lt_of_eq i.isLt hlen.symm
  have hj : j.val < (svc.methods.map (·.name)).length := Nat.lt_of_lt_of_eq j.isLt hlen.symm
  have heq : (svc.methods.map (·.name))[i.val] = (svc.methods.map (·.name))[j.val] := by
    rw [List.getElem_map, List.getElem_map]
    exact hname
  exact Fin.ext ((List.getElem_inj h.distinct).mp heq)

/-- The position of a method in the table. -/
theorem Service.Sorted.position (h : svc.Sorted) (i : Fin svc.nMethods) :
    ∃ p < svc.nMethods, svc.methodIndicesByName.getD p 0 = i := by
  have hmem : i.val ∈ svc.methodIndicesByName := h.perm.mem_iff.mpr (List.mem_range.mpr i.isLt)
  obtain ⟨p, hp, he⟩ := List.getElem_of_mem hmem
  refine ⟨p, ?_, ?_⟩
  · rw [svc.indices_length] at hp
    exact hp
  · rw [List.getD_eq_getElem _ _ hp, he]

/-- The names of the table ascend. -/
theorem Service.Sorted.ascends (h : svc.Sorted) {p q : Nat} (hpq : p < q) (hq : q < svc.nMethods) :
    strcmp (svc.nameAt p) (svc.nameAt q) = .lt := by
  cases hcmp : strcmp (svc.nameAt p) (svc.nameAt q) with
  | lt => rfl
  | gt => exact absurd hcmp (h.ordered p q hpq hq)
  | eq =>
    have hp' : p < svc.nMethods := Nat.lt_trans hpq hq
    have hname := strcmp_eq hcmp
    rw [nameAt_eq (i := ⟨_, svc.getD_indices_lt hp'⟩) rfl,
      nameAt_eq (i := ⟨_, svc.getD_indices_lt hq⟩) rfl] at hname
    have hindex : svc.methodIndicesByName.getD p 0 = svc.methodIndicesByName.getD q 0 :=
      Fin.val_eq_of_eq (h.index_inj hname)
    have hnodup : svc.methodIndicesByName.Nodup := h.perm.nodup_iff.mpr List.nodup_range
    have hlen := svc.indices_length
    have := (List.getD_inj (Nat.lt_of_lt_of_eq hp' hlen.symm) (Nat.lt_of_lt_of_eq hq hlen.symm)
      hnodup).mp hindex
    omega

/-- The search does not lose the position of a name that is in the table. -/
theorem Service.searchLoop_finds (h : svc.Sorted) {p : Nat}
    (hp : p < svc.nMethods) (fuel : Nat) :
    ∀ start count, count ≤ fuel → start + count ≤ svc.nMethods → start ≤ p → p < start + count →
      svc.searchLoop (svc.nameAt p) fuel start count = .inl p ∨
        svc.searchLoop (svc.nameAt p) fuel start count = .inr (p, 1) := by
  induction fuel with
  | zero =>
    intro start count hfuel _ hlow hhigh
    omega
  | succ fuel ih =>
    intro start count hfuel hbound hlow hhigh
    unfold searchLoop
    split
    · next hcount =>
      have hmid := Nat.div_lt_self (show 0 < count by omega) (show 1 < 2 by omega)
      have hhalf : 0 < count / 2 := Nat.div_pos (by omega) (by omega)
      dsimp only
      rcases Nat.lt_trichotomy (start + count / 2) p with hlt | heq | hgt
      · rw [h.ascends hlt hp]
        exact ih _ _ (by omega) (by omega) (by omega) (by omega)
      · rw [heq, strcmp_self]
        exact .inl rfl
      · rw [strcmp_swap, h.ascends hgt (by omega)]
        exact ih _ _ (by omega) (by omega) (by omega) (by omega)
    · obtain rfl : start = p := by omega
      obtain rfl : count = 1 := by omega
      exact .inr rfl

/-- A method is found under its name. -/
theorem Service.Sorted.getMethodIndexByName (h : svc.Sorted)
    (i : Fin svc.nMethods) : svc.getMethodIndexByName (svc.methods.get i).name = i := by
  obtain ⟨p, hp, hindex⟩ := h.position i
  rw [← nameAt_eq hindex]
  unfold Service.getMethodIndexByName
  rcases svc.searchLoop_finds h hp svc.nMethods 0 svc.nMethods (Nat.le_refl _) (by omega)
    (Nat.zero_le _) (by omega) with hs | hs
  · rw [hs]
    exact hindex
  · rw [hs]
    dsimp only
    rw [if_neg Nat.one_ne_zero, if_pos (strcmp_self _)]
    exact hindex

/-- A hit has the name that was searched for. -/
theorem Service.searchLoop_hit {name : CString} {mid : Nat} (fuel : Nat) :
    ∀ start count, svc.searchLoop name fuel start count = .inl mid → svc.nameAt mid = name := by
  induction fuel with
  | zero =>
    intro start count h
    cases h
  | succ fuel ih =>
    intro start count h
    unfold searchLoop at h
    split at h
    · dsimp only at h
      cases hcmp : strcmp (svc.nameAt (start + count / 2)) name with
      | eq =>
        rw [hcmp] at h
        obtain rfl := Sum.inl.inj h
        exact strcmp_eq hcmp
      | lt =>
        rw [hcmp] at h
        exact ih _ _ h
      | gt =>
        rw [hcmp] at h
        exact ih _ _ h
    · cases h

/-- Methods are found under their names only. -/
theorem Service.name_of_getMethodIndexByName {name : CString} {i : Fin svc.nMethods} (h : svc.getMethodIndexByName name = i) :
    (svc.methods.get i).name = name := by
  have hdefined : i.val ≠ undefinedMethod := Nat.ne_of_lt (Nat.lt_trans i.isLt svc.methods_lt)
  unfold getMethodIndexByName at h
  cases hs : svc.searchLoop name svc.nMethods 0 svc.nMethods with
  | inl mid =>
    rw [hs] at h
    exact (nameAt_eq h).symm.trans (searchLoop_hit _ _ _ hs)
  | inr r =>
    rw [hs] at h
    dsimp only at h
    split at h
    · exact absurd h.symm hdefined
    · split at h
      · next heq => exact (nameAt_eq h).symm.trans (strcmp_eq heq)
      · exact absurd h.symm hdefined

end
end Cmsg.Server
