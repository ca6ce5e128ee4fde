import Mathlib.Data.List.Basic
import Mathlib.Data.List.Nodup

/-! # Linked lists whose elements are changed in place -/
namespace List

variable {α β : Type _}

/-- Rewrites the first element that meets the test. -/
def modifyFirst (p : α → Bool) (f : α → α) : List α → List α
  | [] => []
  | a :: as => if p a then f a :: as else a :: modifyFirst p f as

variable {p : α → Bool} {f : α → α}

@[simp] theorem length_modifyFirst (l : List α) : (l.modifyFirst p f).length = l.length := by
  induction l with
  | nil => rfl
  | cons a l ih =>
    unfold modifyFirst
    split
    · rfl
    · simp [ih]

/-- What the change keeps of every element, it keeps of the list. -/
theorem map_modifyFirst (g : α → β) (hg : ∀ a, g (f a) = g a) (l : List α) :
    (l.modifyFirst p f).map g = l.map g := by
  induction l with
  | nil => rfl
  | cons a l ih =>
    unfold modifyFirst
    split
    · simp [hg]
    · simp [ih]

theorem find?_modifyFirst (hp : ∀ a, p (f a) = p a) (l : List α) :
    (l.modifyFirst p f).find? p = (l.find? p).map f := by
  induction l with
  | nil => rfl
  | cons a l ih =>
    unfold modifyFirst
    by_cases ha : p a = true
    · simp [ha, hp]
    · simp [ha, ih]

theorem find?_modifyFirst_of_disjoint {q : α → Bool} (hq : ∀ a, q (f a) = q a)
    (hpq : ∀ a, p a = true → q a = false) (l : List α) :
    (l.modifyFirst p f).find? q = l.find? q := by
  induction l with
  | nil => rfl
  | cons a l ih =>
    unfold modifyFirst
    by_cases ha : p a = true
    · simp [ha, hq, hpq a ha]
    · simp [ha, List.find?_cons, ih]

theorem mem_modifyFirst {l : List α} {b : α} (h : b ∈ l.modifyFirst p f) :
    b ∈ l ∨ ∃ a ∈ l, p a = true ∧ b = f a := by
  induction l with
  | nil => cases h
  | cons a l ih =>
    unfold modifyFirst at h
    split at h
    · next ha =>
      rcases mem_cons.mp h with rfl | hb
      · exact .inr ⟨a, by simp, ha, rfl⟩
      · exact .inl (by simp [hb])
    · rcases mem_cons.mp h with rfl | hb
      · exact .inl (by simp)
      · rcases ih hb with hb | ⟨c, hc, hpc, rfl⟩
        · exact .inl (by simp [hb])
        · exact .inr ⟨c, by simp [hc], hpc, rfl⟩

/-! ## Lists compared by a key -/

variable {κ : Type _}

/-- Erasing by a test that picks out one key erases that key. -/
theorem map_eraseP_eq_erase [BEq κ] [LawfulBEq κ] {key : α → κ} {k : κ} {l : List α}
    (h : ∀ a ∈ l, (p a = true ↔ key a = k)) : (l.eraseP p).map key = (l.map key).erase k := by
  induction l with
  | nil => rfl
  | cons a l ih =>
    have ha := h a (by simp)
    by_cases hp : p a = true
    · rw [eraseP_cons_of_pos hp, map_cons, ha.mp hp, erase_cons_head]
    · have hne : ¬ (key a == k) = true := fun he => hp (ha.mpr (beq_iff_eq.mp he))
      rw [eraseP_cons_of_neg hp, map_cons, map_cons, erase_cons_tail hne,
        ih fun b hb => h b (by simp [hb])]

/-- Where no element occurs twice, what is erased is the element found. -/
theorem Nodup.mem_eraseP {l : List α} (hl : l.Nodup) {x : α} (hx : l.find? p = some x) {b : α} :
    b ∈ l.eraseP p ↔ b ∈ l ∧ b ≠ x := by
  induction l with
  | nil => cases hx
  | cons a l ih =>
    obtain ⟨hnew, hl⟩ := nodup_cons.mp hl
    by_cases hp : p a = true
    · obtain rfl : a = x := by
        rw [find?_cons_of_pos hp] at hx
        exact Option.some.inj hx
      rw [eraseP_cons_of_pos hp, mem_cons]
      constructor
      · exact fun hb => ⟨.inr hb, fun he => hnew (he ▸ hb)⟩
      · intro ⟨hb, hne⟩
        exact hb.resolve_left hne
    · rw [find?_cons_of_neg hp] at hx
      have hax : a ≠ x := fun he => hp (he ▸ find?_some hx)
      rw [eraseP_cons_of_neg hp, mem_cons, mem_cons, ih hl hx]
      constructor
      · rintro (rfl | ⟨hb, hne⟩)
        · exact ⟨.inl rfl, hax⟩
        · exact ⟨.inr hb, hne⟩
      · rintro ⟨rfl | hb, hne⟩
        · exact .inl rfl
        · exact .inr ⟨hb, hne⟩

/-- A list without repetitions, all of whose elements are the same. -/
theorem Nodup.eq_singleton {l : List α} {a : α} (hl : l.Nodup) (ha : a ∈ l) (h : ∀ b ∈ l, b = a) :
    l = [a] := by
  cases l with
  | nil => cases ha
  | cons b l =>
    obtain rfl := h b mem_cons_self
    cases l with
    | nil => rfl
    | cons c l =>
      obtain rfl := h c (mem_cons_of_mem _ mem_cons_self)
      exact absurd mem_cons_self (nodup_cons.mp hl).1

/-- What is erased is the element found, however the elements are counted. -/
theorem countP_eraseP_add {l : List α} {x : α} (hx : l.find? p = some x) (q : α → Bool) :
    (l.eraseP p).countP q + (if q x then 1 else 0) = l.countP q := by
  induction l with
  | nil => cases hx
  | cons a l ih =>
    by_cases hp : p a = true
    · obtain rfl : a = x := by
        rw [find?_cons_of_pos hp] at hx
        exact Option.some.inj hx
      rw [eraseP_cons_of_pos hp, countP_cons]
    · rw [find?_cons_of_neg hp] at hx
      rw [eraseP_cons_of_neg hp, countP_cons, countP_cons, ← ih hx]
      omega

/-- Of a list made of parts, only the part of one element changes anything. -/
theorem foldl_flatMap_single {γ δ : Type _} [DecidableEq α] {g : α → List γ} {h : δ → γ → δ}
    {l : List α} (hl : l.Nodup) {a : α} (hother : ∀ b ∈ l, b ≠ a → ∀ c ∈ g b, ∀ d, h d c = d)
    (d : δ) : (l.flatMap g).foldl h d = if a ∈ l then (g a).foldl h d else d := by
  have hnone : ∀ cs : List γ, (∀ c ∈ cs, ∀ d, h d c = d) → ∀ d, cs.foldl h d = d := by
    intro cs hcs d
    induction cs with
    | nil => rfl
    | cons c cs ih =>
      rw [foldl_cons, hcs c mem_cons_self]
      exact ih fun c' hc' => hcs c' (mem_cons_of_mem _ hc')
  induction l generalizing d with
  | nil => rfl
  | cons b l ih =>
    obtain ⟨hb, hl⟩ := nodup_cons.mp hl
    have hrest := ih hl fun b' hb' => hother b' (mem_cons_of_mem _ hb')
    rw [flatMap_cons, foldl_append, hrest]
    by_cases hba : b = a
    · subst hba
      rw [if_neg hb, if_pos mem_cons_self]
    · rw [hnone (g b) (hother b mem_cons_self hba)]
      simp [Ne.symm hba]

/-- Erasing one match leaves another exactly when there are two. -/
theorem exists_mem_eraseP_iff {l : List α} : (∃ b ∈ l.eraseP p, p b = true) ↔ 2 ≤ l.countP p := by
  induction l with
  | nil => simp
  | cons a l ih =>
    by_cases hp : p a = true
    · rw [eraseP_cons_of_pos hp, countP_cons_of_pos hp, ← countP_pos_iff]
      omega
    · rw [eraseP_cons_of_neg hp, countP_cons_of_neg hp, ← ih]
      simp [hp]

/-- What is erased is not among the elements that another test selects. -/
theorem filter_eraseP_of_disjoint {q : α → Bool} (hpq : ∀ a, p a = true → q a = false) (l : List α) :
    (l.eraseP p).filter q = l.filter q := by
  induction l with
  | nil => rfl
  | cons a l ih =>
    by_cases hp : p a = true
    · rw [eraseP_cons_of_pos hp, filter_cons_of_neg (by simp [hpq a hp])]
    · rw [eraseP_cons_of_neg hp, filter_cons, filter_cons, ih]

/-- What is found is erased by its key, where no key occurs twice. -/
theorem eraseP_key_of_find? [BEq κ] [LawfulBEq κ] {key : α → κ} {l : List α}
    (hl : (l.map key).Nodup) {x : α} (hx : l.find? p = some x) :
    (l.eraseP fun a => key a == key x) = l.eraseP p := by
  induction l with
  | nil => cases hx
  | cons a l ih =>
    obtain ⟨hnew, hl⟩ := nodup_cons.mp hl
    by_cases hp : p a = true
    · obtain rfl : a = x := by
        rw [find?_cons_of_pos hp] at hx
        exact Option.some.inj hx
      rw [eraseP_cons_of_pos (p := fun b => key b == key a) (beq_self_eq_true _),
        eraseP_cons_of_pos hp]
    · rw [find?_cons_of_neg hp] at hx
      have hne : ¬ (key a == key x) = true := by
        intro he
        exact hnew (beq_iff_eq.mp he ▸ mem_map_of_mem (mem_of_find?_eq_some hx))
      rw [eraseP_cons_of_neg (p := fun b => key b == key x) hne, eraseP_cons_of_neg hp, ih hl hx]

/-- Erasing what a map of some elements is tested for. -/
theorem filterMap_eraseP {f : α → Option β} {q : β → Bool} {l : List α}
    (h : ∀ a ∈ l, (p a = true ↔ ∃ b, f a = some b ∧ q b = true)) :
    (l.eraseP p).filterMap f = (l.filterMap f).eraseP q := by
  induction l with
  | nil => rfl
  | cons a l ih =>
    have ha := h a mem_cons_self
    have hl := ih fun b hb => h b (mem_cons_of_mem _ hb)
    by_cases hp : p a = true
    · obtain ⟨b, hb, hq⟩ := ha.mp hp
      rw [eraseP_cons_of_pos hp, filterMap_cons_some hb, eraseP_cons_of_pos hq]
    · rw [eraseP_cons_of_neg hp]
      cases hf : f a with
      | none => rw [filterMap_cons_none hf, filterMap_cons_none hf, hl]
      | some b =>
        have hq : ¬ q b = true := fun hq => hp (ha.mpr ⟨b, hf, hq⟩)
        rw [filterMap_cons_some hf, filterMap_cons_some hf, eraseP_cons_of_neg hq, hl]

/-- Tests that agree on equal keys select the same keys from lists with the same
keys. -/
theorem Perm.filter_of_key {l₁ : List α} {l₂ : List β} {k₁ : α → κ} {k₂ : β → κ}
    {q₁ : α → Bool} {q₂ : β → Bool} (h : (l₁.map k₁).Perm (l₂.map k₂))
    (hq : ∀ a ∈ l₁, ∀ b ∈ l₂, k₁ a = k₂ b → q₁ a = q₂ b) :
    ((l₁.filter q₁).map k₁).Perm ((l₂.filter q₂).map k₂) := by
  classical
  let selected : κ → Bool := fun k => decide (∃ b ∈ l₂, k₂ b = k ∧ q₂ b = true)
  have h₁ : l₁.filter q₁ = l₁.filter (selected ∘ k₁) := by
    refine filter_congr fun a ha => ?_
    obtain ⟨b, hb, hk⟩ := mem_map.mp (h.mem_iff.mp (mem_map_of_mem (f := k₁) ha))
    rw [Bool.eq_iff_iff, hq a ha b hb hk.symm]
    simp only [selected, Function.comp_apply, decide_eq_true_eq]
    constructor
    · exact fun hb' => ⟨b, hb, hk, hb'⟩
    · rintro ⟨c, hc, hkc, hqc⟩
      rw [← hq a ha b hb hk.symm, hq a ha c hc hkc.symm]
      exact hqc
  have h₂ : l₂.filter q₂ = l₂.filter (selected ∘ k₂) := by
    refine filter_congr fun b hb => ?_
    obtain ⟨a, ha, hk⟩ := mem_map.mp (h.mem_iff.mpr (mem_map_of_mem (f := k₂) hb))
    rw [Bool.eq_iff_iff]
    simp only [selected, Function.comp_apply, decide_eq_true_eq]
    constructor
    · exact fun hb' => ⟨b, hb, rfl, hb'⟩
    · rintro ⟨c, hc, hkc, hqc⟩
      rw [← hq a ha b hb hk, hq a ha c hc (hk.trans hkc.symm)]
      exact hqc
  rw [h₁, h₂, ← filter_map, ← filter_map]
  exact h.filter selected

/-- The first element that meets the test, with what stands before and after it. -/
def splitFirst (p : α → Bool) : List α → Option (List α × α × List α)
  | [] => none
  | a :: as => if p a then some ([], a, as)
    else (splitFirst p as).map fun r => (a :: r.1, r.2)

theorem splitFirst_eq_some {p : α → Bool} {l before after : List α} {a : α}
    (h : l.splitFirst p = some (before, a, after)) : l = before ++ a :: after ∧ p a = true := by
  induction l generalizing before with
  | nil => cases h
  | cons b l ih =>
    unfold splitFirst at h
    split at h
    · next hb =>
      cases h
      exact ⟨rfl, hb⟩
    · obtain ⟨⟨before', r⟩, hr, he⟩ := Option.map_eq_some_iff.mp h
      cases he
      obtain ⟨rfl, ha⟩ := ih hr
      exact ⟨rfl, ha⟩

theorem splitFirst_eq_none {p : α → Bool} {l : List α} (h : l.splitFirst p = none) :
    ∀ a ∈ l, p a = false := by
  induction l with
  | nil =>
    intro a ha
    cases ha
  | cons b l ih =>
    unfold splitFirst at h
    split at h
    · cases h
    · next hb =>
      intro a ha
      rcases List.mem_cons.mp ha with rfl | ha
      · simpa using hb
      · exact ih (Option.map_eq_none_iff.mp h) a ha

theorem splitFirst_congr {p q : α → Bool} {l : List α} (h : ∀ a ∈ l, p a = q a) :
    l.splitFirst p = l.splitFirst q := by
  induction l with
  | nil => rfl
  | cons b l ih =>
    unfold splitFirst
    rw [h b (by simp), ih fun a ha => h a (by simp [ha])]

theorem splitFirst_map (g : β → α) (p : α → Bool) (l : List β) :
    (l.map g).splitFirst p =
      (l.splitFirst fun b => p (g b)).map fun r => (r.1.map g, g r.2.1, r.2.2.map g) := by
  induction l with
  | nil => rfl
  | cons b l ih =>
    rw [List.map_cons, splitFirst, splitFirst]
    split
    · rfl
    · rw [ih, Option.map_map, Option.map_map]
      rfl

theorem splitFirst_append_of_forall {p : α → Bool} {l : List α} (r : List α)
    (h : ∀ a ∈ l, p a = false) :
    (l ++ r).splitFirst p = (r.splitFirst p).map fun x => (l ++ x.1, x.2) := by
  induction l with
  | nil => simp
  | cons b l ih =>
    rw [List.cons_append, splitFirst, if_neg (by simp [h b (by simp)]),
      ih fun a ha => h a (by simp [ha]), Option.map_map]
    rfl

/-- Where the keys differ, the element found under a key is the one with it. -/
theorem find?_key_eq_some {κ : Type _} [BEq κ] [LawfulBEq κ] {key : α → κ} {l : List α}
    (h : (l.map key).Nodup) {k : κ} {a : α} :
    l.find? (key · == k) = some a ↔ a ∈ l ∧ key a = k := by
  constructor
  · intro hfind
    exact ⟨mem_of_find?_eq_some hfind, by simpa using find?_some hfind⟩
  · rintro ⟨hmem, rfl⟩
    cases hfind : l.find? (key · == key a) with
    | none =>
      have := find?_eq_none.mp hfind a hmem
      simp at this
    | some b =>
      have hkey : key b = key a := by simpa using find?_some hfind
      rw [inj_on_of_nodup_map h (mem_of_find?_eq_some hfind) hmem hkey]

theorem mapM_some_of_forall {f : α → Option β} {g : α → β} {l : List α}
    (h : ∀ a ∈ l, f a = some (g a)) : l.mapM f = some (l.map g) := by
  induction l with
  | nil => rfl
  | cons a l ih =>
    rw [mapM_cons, h a (by simp), ih fun b hb => h b (mem_cons_of_mem _ hb)]
    rfl

theorem mapM_cons_eq_some {f : α → Option β} {a : α} {l : List α} {r : List β} :
    (a :: l).mapM f = some r ↔ ∃ b bs, f a = some b ∧ l.mapM f = some bs ∧ r = b :: bs := by
  rw [mapM_cons]
  cases f a with
  | none => simp
  | some b =>
    cases l.mapM f with
    | none => simp
    | some bs =>
      simp only [Option.bind_eq_bind, Option.bind_some, Option.pure_def, Option.some.injEq]
      constructor
      · rintro rfl
        exact ⟨b, bs, rfl, rfl, rfl⟩
      · rintro ⟨_, _, rfl, rfl, rfl⟩
        rfl

theorem eq_map_of_mapM {f : α → Option β} {g : α → β} {l : List α} {r : List β}
    (h : l.mapM f = some r) (hg : ∀ a ∈ l, ∀ b, f a = some b → b = g a) : r = l.map g := by
  induction l generalizing r with
  | nil =>
    cases h
    rfl
  | cons a l ih =>
    obtain ⟨b, bs, hb, hbs, rfl⟩ := mapM_cons_eq_some.mp h
    rw [map_cons, hg a (by simp) b hb, ih hbs fun c hc => hg c (mem_cons_of_mem _ hc)]

theorem eq_filterMap_of_mapM {f : α → Option β} {l : List α} {r : List β}
    (h : l.mapM f = some r) : r = l.filterMap f := by
  induction l generalizing r with
  | nil =>
    cases h
    rfl
  | cons a l ih =>
    obtain ⟨b, bs, hb, hbs, rfl⟩ := mapM_cons_eq_some.mp h
    rw [filterMap_cons_some hb, ← ih hbs]

theorem mem_of_mapM {f : α → Option β} {l : List α} {r : List β} (h : l.mapM f = some r) {a : α}
    (ha : a ∈ l) : ∃ b ∈ r, f a = some b := by
  induction l generalizing r with
  | nil => cases ha
  | cons c l ih =>
    obtain ⟨b, bs, hb, hbs, rfl⟩ := mapM_cons_eq_some.mp h
    cases ha with
    | head => exact ⟨b, mem_cons_self, hb⟩
    | tail _ ha =>
      obtain ⟨b', hb', hf⟩ := ih hbs ha
      exact ⟨b', mem_cons_of_mem _ hb', hf⟩

end List
