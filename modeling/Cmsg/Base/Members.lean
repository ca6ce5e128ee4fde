import Mathlib.Data.List.Nodup
import Mathlib.Tactic.Tauto

/-! # Objects with members in the order of insertion

A member that is set again keeps its place. The update of an object with another
sets the members of the other one after another, and is associative. -/
namespace Cmsg.Base

variable {κ ν : Type _}

abbrev Members (κ ν : Type _) := List (κ × ν)

namespace Members

def keys (ms : Members κ ν) : List κ := ms.map Prod.fst

/-- No key has two members. -/
def Distinct (ms : Members κ ν) : Prop := ms.keys.Nodup

variable [DecidableEq κ]

def get (ms : Members κ ν) (k : κ) : Option ν := (ms.find? (·.1 = k)).map Prod.snd

def set (k : κ) (v : ν) : Members κ ν → Members κ ν
  | [] => [(k, v)]
  | m :: ms => if m.1 = k then (k, v) :: ms else m :: set k v ms

def update (ms other : Members κ ν) : Members κ ν :=
  other.foldl (fun ms m => set m.1 m.2 ms) ms

@[simp] theorem get_nil (k : κ) : get ([] : Members κ ν) k = none := rfl

theorem get_cons (m : κ × ν) (ms : Members κ ν) (k : κ) :
    get (m :: ms) k = if m.1 = k then some m.2 else get ms k := by
  unfold get
  rw [List.find?_cons]
  by_cases h : m.1 = k <;> simp [h]

@[simp] theorem update_nil (ms : Members κ ν) : update ms [] = ms := rfl

@[simp] theorem update_cons (ms : Members κ ν) (m : κ × ν) (other : Members κ ν) :
    update ms (m :: other) = update (set m.1 m.2 ms) other := rfl

theorem get_isSome {ms : Members κ ν} {k : κ} : (get ms k).isSome ↔ k ∈ ms.keys := by
  simp [get, keys]

theorem get_eq_none {ms : Members κ ν} {k : κ} : get ms k = none ↔ k ∉ ms.keys := by
  rw [← get_isSome, Option.not_isSome_iff_eq_none]

/-- The same keys in the same order, each with the same value. -/
structure Same (ms other : Members κ ν) : Prop where
  keys : ms.keys = other.keys
  values : ∀ k, get ms k = get other k

theorem Same.refl (ms : Members κ ν) : Same ms ms := ⟨rfl, fun _ => rfl⟩

/-- Where no key has two members, its value says which member it has. -/
theorem Same.eq {ms other : Members κ ν} (h : Same ms other) (hd : ms.Distinct) : ms = other := by
  induction ms generalizing other with
  | nil => exact (List.map_eq_nil_iff.mp h.keys.symm).symm
  | cons m ms ih =>
    cases other with
    | nil => cases h.keys
    | cons m' other =>
      obtain ⟨hkey, hkeys⟩ := List.cons.inj h.keys
      change Members.keys ms = Members.keys other at hkeys
      obtain ⟨hnew, hrest⟩ := List.nodup_cons.mp hd
      have hfirst := h.values m.1
      rw [get_cons, get_cons, if_pos rfl, if_pos hkey.symm, Option.some.injEq] at hfirst
      have hvalues : ∀ k, get ms k = get other k := by
        intro k
        by_cases hk : m.1 = k
        · rw [get_eq_none.mpr (hk ▸ hnew), get_eq_none.mpr (hk ▸ hkeys ▸ hnew)]
        · have hvalue := h.values k
          rwa [get_cons, get_cons, if_neg hk, if_neg (hkey ▸ hk)] at hvalue
      rw [ih ⟨hkeys, hvalues⟩ hrest, Prod.ext hkey hfirst]

/-! ## Setting a member -/

theorem get_set (k : κ) (v : ν) (ms : Members κ ν) (k' : κ) :
    get (set k v ms) k' = if k = k' then some v else get ms k' := by
  induction ms with
  | nil => rw [set, get_cons]
  | cons m ms ih =>
    rw [set]
    by_cases h : m.1 = k
    · rw [if_pos h, get_cons, get_cons, h]
      by_cases hk : k = k' <;> simp [hk]
    · rw [if_neg h, get_cons, get_cons, ih]
      by_cases hm : m.1 = k'
      · rw [if_pos hm, if_pos hm, if_neg (hm ▸ Ne.symm h)]
      · rw [if_neg hm, if_neg hm]

theorem mem_keys_set {k : κ} {v : ν} {ms : Members κ ν} {k' : κ} :
    k' ∈ (set k v ms).keys ↔ k' = k ∨ k' ∈ ms.keys := by
  rw [← get_isSome, get_set, ← get_isSome]
  by_cases h : k = k'
  · simp [h]
  · simp [h, Ne.symm h]

theorem Distinct.set {ms : Members κ ν} (h : ms.Distinct) (k : κ) (v : ν) :
    (set k v ms).Distinct := by
  induction ms with
  | nil => exact List.nodup_singleton k
  | cons m ms ih =>
    obtain ⟨hm, hms⟩ := List.nodup_cons.mp h
    rw [Members.set]
    split
    · next he =>
      subst he
      exact List.nodup_cons.mpr ⟨hm, hms⟩
    · next hne =>
      refine List.nodup_cons.mpr ⟨?_, ih hms⟩
      intro hmem
      rcases mem_keys_set.mp hmem with he | hmem
      · exact hne he
      · exact hm hmem

theorem set_set (k : κ) (v w : ν) (ms : Members κ ν) : set k v (set k w ms) = set k v ms := by
  induction ms with
  | nil => simp [set]
  | cons m ms ih =>
    by_cases h : m.1 = k
    · simp [set, h]
    · simp [set, h, ih]

/-- A member that is there can be set before or after another one. -/
theorem set_comm {k k' : κ} (hne : k ≠ k') (v v' : ν) {ms : Members κ ν} (h : k ∈ ms.keys) :
    set k v (set k' v' ms) = set k' v' (set k v ms) := by
  induction ms with
  | nil => cases h
  | cons m ms ih =>
    by_cases hm : m.1 = k
    · simp [set, hm, hne]
    · have hmem : k ∈ keys ms := by
        rcases List.mem_cons.mp h with he | hmem
        · exact absurd he.symm hm
        · exact hmem
      by_cases hm' : m.1 = k'
      · simp [set, hm', Ne.symm hne]
      · simp [set, hm, hm', ih hmem]

/-! ## Updating -/

theorem Distinct.update {ms : Members κ ν} (h : ms.Distinct) (other : Members κ ν) :
    (update ms other).Distinct := by
  induction other generalizing ms with
  | nil => exact h
  | cons m other ih => exact ih (h.set m.1 m.2)

theorem set_update {k : κ} (v : ν) {other : Members κ ν} (h : k ∉ other.keys) {ms : Members κ ν}
    (hmem : k ∈ ms.keys) : set k v (update ms other) = update (set k v ms) other := by
  induction other generalizing ms with
  | nil => rfl
  | cons m other ih =>
    simp only [keys, List.map_cons, List.mem_cons, not_or] at h
    rw [update_cons, ih h.2 (mem_keys_set.mpr (Or.inr hmem)), set_comm h.1 _ _ hmem, update_cons]

/-- Setting a member of the other object sets it in the update. -/
theorem update_set (k : κ) (v : ν) {other : Members κ ν} (h : other.Distinct)
    (ms : Members κ ν) : update ms (set k v other) = set k v (update ms other) := by
  induction other generalizing ms with
  | nil => rfl
  | cons m other ih =>
    obtain ⟨hm, hother⟩ := List.nodup_cons.mp h
    by_cases he : m.1 = k
    · subst he
      rw [set, if_pos rfl, update_cons, update_cons,
        set_update v hm (mem_keys_set.mpr (Or.inl rfl)), set_set]
    · rw [set, if_neg he, update_cons, update_cons, ih hother]

theorem update_assoc (a : Members κ ν) {b : Members κ ν} (h : b.Distinct) (c : Members κ ν) :
    update (update a b) c = update a (update b c) := by
  induction c generalizing b with
  | nil => rfl
  | cons m c ih => rw [update_cons, update_cons, ← ih (h.set m.1 m.2), update_set _ _ h]

/-- The member of the other object comes before that of the first. -/
theorem get_update (ms : Members κ ν) {other : Members κ ν} (h : other.Distinct) (k : κ) :
    get (update ms other) k = (get other k).or (get ms k) := by
  induction other generalizing ms with
  | nil => rfl
  | cons m other ih =>
    obtain ⟨hm, hother⟩ := List.nodup_cons.mp h
    rw [update_cons, ih _ hother, get_set, get_cons]
    by_cases he : m.1 = k
    · have hnone : get other k = none := get_eq_none.mpr (he ▸ hm)
      simp [he, hnone]
    · simp [he]

theorem mem_keys_update {ms other : Members κ ν} {k : κ} :
    k ∈ (update ms other).keys ↔ k ∈ ms.keys ∨ k ∈ other.keys := by
  induction other generalizing ms with
  | nil => simp [keys]
  | cons m other ih =>
    rw [update_cons, ih, mem_keys_set]
    simp only [keys, List.map_cons, List.mem_cons]
    tauto

/-- The first member is updated in place, apart from the others. -/
theorem update_cons_left (k : κ) (v : ν) (ms : Members κ ν) {other : Members κ ν}
    (h : other.Distinct) :
    update ((k, v) :: ms) other =
      (k, (get other k).getD v) :: update ms (other.filter fun m => decide (m.1 ≠ k)) := by
  induction other generalizing v ms with
  | nil => rfl
  | cons m other ih =>
    obtain ⟨hm, hother⟩ := List.nodup_cons.mp h
    rw [update_cons, set, get_cons]
    by_cases he : m.1 = k
    · have hnone : get other k = none := get_eq_none.mpr (he ▸ hm)
      simp [he, ih _ _ hother, hnone]
    · simp [he, Ne.symm he, ih _ _ hother]

/-- The value of a single member does not matter where the update sets it. -/
theorem update_single_eq_iff {k : κ} {v w : ν} {other : Members κ ν} (h : other.Distinct) :
    update [(k, v)] other = update [(k, w)] other ↔ (k ∉ other.keys → v = w) := by
  rw [update_cons_left _ _ _ h, update_cons_left _ _ _ h, ← get_eq_none]
  cases hget : get other k with
  | none => simp
  | some u => simp

/-- Two objects that update a member alike, and do not give it the value that it has,
update it alike whatever its value. -/
theorem update_single_congr {k : κ} {v : ν} {a b : Members κ ν} (ha : a.Distinct)
    (hb : b.Distinct) (hav : get a k ≠ some v) (hbv : get b k ≠ some v)
    (h : update [(k, v)] a = update [(k, v)] b) (w : ν) : update [(k, w)] a = update [(k, w)] b := by
  rw [update_cons_left _ _ _ ha, update_cons_left _ _ _ hb, List.cons.injEq, Prod.mk.injEq] at h
  obtain ⟨⟨_, hhead⟩, htail⟩ := h
  have hget : get a k = get b k := by
    cases hga : get a k with
    | none =>
      cases hgb : get b k with
      | none => rfl
      | some u =>
        rw [hga, hgb] at hhead
        exact absurd (hgb.trans (congrArg some hhead.symm)) hbv
    | some u =>
      cases hgb : get b k with
      | none =>
        rw [hga, hgb] at hhead
        exact absurd (hga.trans (congrArg some hhead)) hav
      | some u' =>
        rw [hga, hgb] at hhead
        exact congrArg some hhead
  rw [update_cons_left _ _ _ ha, update_cons_left _ _ _ hb, hget, htail]

theorem mem_set {k : κ} {v : ν} {ms : Members κ ν} {m : κ × ν} (h : m ∈ set k v ms) :
    m ∈ ms ∨ m = (k, v) := by
  induction ms with
  | nil => exact Or.inr (List.mem_singleton.mp h)
  | cons m' ms ih =>
    rw [set] at h
    split at h
    · rcases List.mem_cons.mp h with h | h
      · exact Or.inr h
      · exact Or.inl (List.mem_cons_of_mem _ h)
    · rcases List.mem_cons.mp h with h | h
      · exact Or.inl (h ▸ List.mem_cons_self)
      · exact (ih h).imp_left (List.mem_cons_of_mem _)

theorem mem_update {ms other : Members κ ν} {m : κ × ν} (h : m ∈ update ms other) :
    m ∈ ms ∨ m ∈ other := by
  induction other generalizing ms with
  | nil => exact Or.inl h
  | cons m' other ih =>
    rcases ih h with h | h
    · rcases mem_set h with h | rfl
      · exact Or.inl h
      · exact Or.inr List.mem_cons_self
    · exact Or.inr (List.mem_cons_of_mem _ h)

theorem mem_of_get {ms : Members κ ν} {k : κ} {v : ν} (h : get ms k = some v) : (k, v) ∈ ms := by
  obtain ⟨m, hm, rfl⟩ := Option.map_eq_some_iff.mp h
  have hk : m.1 = k := by simpa using List.find?_some hm
  rw [← hk]
  exact List.mem_of_find?_eq_some hm

/-! ## Updating with several objects -/

def updateAll (ms : Members κ ν) (others : List (Members κ ν)) : Members κ ν :=
  others.foldl update ms

theorem updateAll_update (ms : Members κ ν) {b : Members κ ν} (h : b.Distinct)
    (others : List (Members κ ν)) :
    updateAll (update ms b) others = update ms (updateAll b others) := by
  induction others generalizing b with
  | nil => rfl
  | cons o others ih =>
    have hstep := ih (h.update o)
    rw [← update_assoc ms h o] at hstep
    exact hstep

/-- Several updates in sequence are one update with what they make of nothing. -/
theorem updateAll_eq (ms : Members κ ν) (others : List (Members κ ν)) :
    updateAll ms others = update ms (updateAll [] others) :=
  updateAll_update ms (b := []) .nil others

theorem distinct_updateAll (others : List (Members κ ν)) :
    (updateAll ([] : Members κ ν) others).Distinct := by
  have hgen : ∀ ms : Members κ ν, ms.Distinct → (updateAll ms others).Distinct := by
    induction others with
    | nil => exact fun ms h => h
    | cons o others ih => exact fun ms h => ih _ (h.update o)
  exact hgen [] .nil

theorem mem_updateAll {ms : Members κ ν} {others : List (Members κ ν)} {m : κ × ν}
    (h : m ∈ updateAll ms others) : m ∈ ms ∨ ∃ o ∈ others, m ∈ o := by
  induction others generalizing ms with
  | nil => exact Or.inl h
  | cons o others ih =>
    rcases ih h with h | ⟨o', ho', h⟩
    · exact (mem_update h).imp_right fun h => ⟨o, List.mem_cons_self, h⟩
    · exact Or.inr ⟨o', List.mem_cons_of_mem _ ho', h⟩

theorem mem_keys_updateAll {ms : Members κ ν} {others : List (Members κ ν)} {k : κ} :
    k ∈ (updateAll ms others).keys ↔ k ∈ ms.keys ∨ ∃ o ∈ others, k ∈ o.keys := by
  induction others generalizing ms with
  | nil => simp [updateAll]
  | cons o others ih =>
    have hstep := @ih (update ms o)
    rw [mem_keys_update] at hstep
    rw [List.exists_mem_cons_iff, ← or_assoc]
    exact hstep

end Members

end Cmsg.Base
