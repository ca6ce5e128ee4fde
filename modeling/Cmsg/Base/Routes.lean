import Mathlib.Data.List.Forall2
import Mathlib.Data.List.Basic

/-! # Routing tables

A table lists templates in the order in which they were loaded, each with what
it leads to. A template is a list of tokens, and a wild token takes any segment
of a path. A path is routed one segment at a time, without going back: at each
segment the first template loaded that agrees with the tokens chosen so far,
and whose next token takes the segment, decides the next token. -/
namespace Cmsg.Base.Routes

variable {τ ι : Type _}

abbrev Table (τ ι : Type _) := List (List τ × ι)

/-- The first tokens of the templates. -/
def heads (es : Table τ ι) : List τ := es.filterMap fun e => e.1.head?

/-- What the empty template leads to. -/
def here (es : Table τ ι) : List ι := es.filterMap fun e => if e.1 = [] then some e.2 else none

section
variable {es : Table τ ι} {t : τ} {i : ι}

theorem mem_heads : t ∈ heads es ↔ ∃ ts i, (t :: ts, i) ∈ es := by
  rw [heads, List.mem_filterMap]
  constructor
  · rintro ⟨⟨us, i⟩, hmem, hhead⟩
    cases us with
    | nil => cases hhead
    | cons u us =>
      obtain rfl : u = t := Option.some.inj hhead
      exact ⟨us, i, hmem⟩
  · intro ⟨ts, i, hmem⟩
    exact ⟨(t :: ts, i), hmem, rfl⟩

theorem mem_here : i ∈ here es ↔ ([], i) ∈ es := by
  rw [here, List.mem_filterMap]
  constructor
  · rintro ⟨⟨us, j⟩, hmem, hi⟩
    by_cases hu : us = []
    · subst hu
      obtain rfl : j = i := by simpa using hi
      exact hmem
    · simp [hu] at hi
  · intro hmem
    exact ⟨([], i), hmem, by simp⟩

theorem heads_append (es es' : Table τ ι) : heads (es ++ es') = heads es ++ heads es' :=
  List.filterMap_append

theorem here_append (es es' : Table τ ι) : here (es ++ es') = here es ++ here es' :=
  List.filterMap_append

end

variable [DecidableEq τ]

/-- What follows the first token `t`. -/
def afterHead (t : τ) (es : Table τ ι) : Table τ ι :=
  es.filterMap fun e => match e.1 with
    | [] => none
    | t' :: ts => if t' = t then some (ts, e.2) else none

/-- What follows all the tokens of `ts`. -/
def after : List τ → Table τ ι → Table τ ι
  | [], es => es
  | t :: ts, es => after ts (afterHead t es)

/-- The token takes the segment. -/
def takes (wild : τ → Bool) (t s : τ) : Bool := t = s || wild t

/-- The tokens that the path is routed along. -/
def route (wild : τ → Bool) : Table τ ι → List τ → Option (List τ)
  | _, [] => some []
  | es, s :: ss =>
    match (heads es).find? (takes wild · s) with
    | none => none
    | some t => (route wild (afterHead t es) ss).map (t :: ·)

/-- The path instantiates the template, segment by segment. -/
def Instantiates (wild : τ → Bool) (ts ss : List τ) : Prop :=
  List.Forall₂ (fun t s => t = s ∨ wild t = true) ts ss

/-! ## Templates of a table -/

section
variable {es : Table τ ι} {t : τ} {ts : List τ} {i : ι}

theorem mem_afterHead : (ts, i) ∈ afterHead t es ↔ (t :: ts, i) ∈ es := by
  rw [afterHead, List.mem_filterMap]
  constructor
  · rintro ⟨⟨us, j⟩, hmem, hrest⟩
    cases us with
    | nil => cases hrest
    | cons u us =>
      by_cases hu : u = t
      · subst hu
        simp only [if_true, Option.some.injEq, Prod.mk.injEq] at hrest
        obtain ⟨rfl, rfl⟩ := hrest
        exact hmem
      · simp [hu] at hrest
  · intro hmem
    exact ⟨(t :: ts, i), hmem, by simp⟩

theorem mem_here_after : i ∈ here (after ts es) ↔ (ts, i) ∈ es := by
  induction ts generalizing es with
  | nil => exact mem_here
  | cons t ts ih => rw [after, ih, mem_afterHead]

/-- In the order of the table. -/
theorem here_after_eq (ts : List τ) (es : Table τ ι) :
    here (after ts es) = es.filterMap fun e => if e.1 = ts then some e.2 else none := by
  induction ts generalizing es with
  | nil => rfl
  | cons t ts ih =>
    rw [after, ih, afterHead, List.filterMap_filterMap]
    refine List.filterMap_congr fun e _ => ?_
    obtain ⟨us, i⟩ := e
    cases us with
    | nil => rfl
    | cons u us =>
      by_cases hu : u = t
      · simp [hu]
      · simp [hu]

theorem afterHead_append (t : τ) (es es' : Table τ ι) :
    afterHead t (es ++ es') = afterHead t es ++ afterHead t es' :=
  List.filterMap_append

theorem afterHead_eq_nil (h : t ∉ heads es) : afterHead t es = [] := by
  rw [List.eq_nil_iff_forall_not_mem]
  rintro ⟨ts, i⟩ hmem
  exact h (mem_heads.mpr ⟨ts, i, mem_afterHead.mp hmem⟩)

end

/-! ## Routes -/

section
variable {wild : τ → Bool} {es : Table τ ι}

theorem takes_iff {t s : τ} : takes wild t s = true ↔ t = s ∨ wild t = true := by
  simp [takes]

theorem route_cons {s : τ} {ss ts : List τ} (h : route wild es (s :: ss) = some ts) :
    ∃ t ts', ts = t :: ts' ∧ (heads es).find? (takes wild · s) = some t ∧
      route wild (afterHead t es) ss = some ts' := by
  rw [route] at h
  split at h
  · cases h
  · next t ht =>
    obtain ⟨ts', hr, rfl⟩ := Option.map_eq_some_iff.mp h
    exact ⟨t, ts', rfl, ht, hr⟩

theorem route_instantiates {ss ts : List τ} (h : route wild es ss = some ts) :
    Instantiates wild ts ss := by
  induction ss generalizing es ts with
  | nil =>
    obtain rfl : [] = ts := Option.some.inj h
    exact .nil
  | cons s ss ih =>
    obtain ⟨t, ts', rfl, ht, hr⟩ := route_cons h
    have htakes : takes wild t s = true := by simpa using List.find?_some ht
    exact .cons (takes_iff.mp htakes) (ih hr)

end

/-! ## Tables without ambiguity -/

section
variable (wild : τ → Bool)

/-- Where the templates first differ, one of them has a wild token. -/
def Clashes : List τ → List τ → Prop
  | t :: ts, t' :: ts' => if t = t' then Clashes ts ts' else wild t = true ∨ wild t' = true
  | _, _ => False

/-- No two templates of the table clash. -/
def Unambiguous (es : Table τ ι) : Prop := ∀ e ∈ es, ∀ e' ∈ es, ¬ Clashes wild e.1 e'.1

variable {wild} {es : Table τ ι}

theorem clashes_cons_self {t : τ} {ts ts' : List τ} :
    Clashes wild (t :: ts) (t :: ts') ↔ Clashes wild ts ts' := by
  simp [Clashes]

theorem clashes_cons_ne {t t' : τ} {ts ts' : List τ} (h : t ≠ t') :
    Clashes wild (t :: ts) (t' :: ts') ↔ wild t = true ∨ wild t' = true := by
  simp [Clashes, h]

theorem clashes_comm {ts ts' : List τ} : Clashes wild ts ts' ↔ Clashes wild ts' ts := by
  induction ts generalizing ts' with
  | nil => cases ts' <;> exact Iff.rfl
  | cons t ts ih =>
    cases ts' with
    | nil => exact Iff.rfl
    | cons t' ts' =>
      by_cases h : t = t'
      · subst h
        rw [clashes_cons_self, clashes_cons_self, ih]
      · rw [clashes_cons_ne h, clashes_cons_ne (Ne.symm h), or_comm]

theorem not_clashes_self (ts : List τ) : ¬ Clashes wild ts ts := by
  induction ts with
  | nil => exact id
  | cons t ts ih => rwa [clashes_cons_self]

theorem not_clashes_of_literal {ts ts' : List τ} (h : ∀ t ∈ ts, wild t = false)
    (h' : ∀ t ∈ ts', wild t = false) : ¬ Clashes wild ts ts' := by
  induction ts generalizing ts' with
  | nil => exact id
  | cons t ts ih =>
    cases ts' with
    | nil => exact id
    | cons t' ts' =>
      by_cases ht : t = t'
      · subst ht
        rw [clashes_cons_self]
        exact ih (fun u hu => h u (List.mem_cons_of_mem _ hu))
          fun u hu => h' u (List.mem_cons_of_mem _ hu)
      · rw [clashes_cons_ne ht, h t List.mem_cons_self, h' t' List.mem_cons_self]
        simp

/-- Templates of literals only are without ambiguity. -/
theorem unambiguous_of_literal (h : ∀ e ∈ es, ∀ t ∈ e.1, wild t = false) : Unambiguous wild es :=
  fun e he e' he' => not_clashes_of_literal (h e he) (h e' he')

theorem Unambiguous.afterHead (h : Unambiguous wild es) (t : τ) :
    Unambiguous wild (afterHead t es) := by
  rintro ⟨ts, i⟩ hmem ⟨ts', i'⟩ hmem' hclash
  exact h _ (mem_afterHead.mp hmem) _ (mem_afterHead.mp hmem') (clashes_cons_self.mpr hclash)

/-- A wild first token is the only one. -/
theorem Unambiguous.head_eq (h : Unambiguous wild es) {t t' : τ} (ht : t ∈ heads es)
    (ht' : t' ∈ heads es) (hw : wild t = true ∨ wild t' = true) : t = t' := by
  obtain ⟨ts, i, hmem⟩ := mem_heads.mp ht
  obtain ⟨ts', i', hmem'⟩ := mem_heads.mp ht'
  by_contra hne
  exact h _ hmem _ hmem' ((clashes_cons_ne hne).mpr hw)

/-- Adding a template that clashes with none keeps the table without ambiguity. -/
theorem Unambiguous.snoc (h : Unambiguous wild es) {ts : List τ} {i : ι}
    (hnew : ∀ e ∈ es, ¬ Clashes wild ts e.1) : Unambiguous wild (es ++ [(ts, i)]) := by
  intro e he e' he'
  rw [List.mem_append, List.mem_singleton] at he he'
  rcases he with he | rfl
  · rcases he' with he' | rfl
    · exact h e he e' he'
    · rw [clashes_comm]
      exact hnew e he
  · rcases he' with he' | rfl
    · exact hnew e' he'
    · exact not_clashes_self ts

/-- **Completeness.** Without ambiguity a path is routed along the template
that it instantiates. -/
theorem Unambiguous.route_eq (h : Unambiguous wild es) {ts ss : List τ} {i : ι}
    (hmem : (ts, i) ∈ es) (hinst : Instantiates wild ts ss) : route wild es ss = some ts := by
  induction hinst generalizing es with
  | nil => rfl
  | @cons t s ts ss hts _ ih =>
    have hhead : t ∈ heads es := mem_heads.mpr ⟨ts, i, hmem⟩
    cases hfind : (heads es).find? (takes wild · s) with
    | none =>
      have := List.find?_eq_none.mp hfind t hhead
      exact absurd (takes_iff.mpr hts) this
    | some t' =>
      have htakes : takes wild t' s = true := by simpa using List.find?_some hfind
      have ht' : t' = s ∨ wild t' = true := takes_iff.mp htakes
      have heq : t = t' := by
        rcases hts with rfl | hw
        · rcases ht' with rfl | hw'
          · rfl
          · exact h.head_eq hhead (List.mem_of_find?_eq_some hfind) (Or.inr hw')
        · exact h.head_eq hhead (List.mem_of_find?_eq_some hfind) (Or.inl hw)
      subst heq
      rw [route, hfind]
      simp [ih (h.afterHead t) (mem_afterHead.mpr hmem)]

end

end Cmsg.Base.Routes
