import Mathlib.Data.List.Basic

/-! # Runs of a partial machine with outputs

A machine reads one input at a time: `step s i` is the next state together
with the outputs of the step, or `none` where the step is undefined. `exec`
runs a list of inputs and collects the outputs in order. The rules below turn
what one step preserves into what a whole run preserves, for runs whose steps
are unrestricted (`exec_track`) and for runs whose every step meets a condition
on the state before it (`exec_track_guarded`). -/
namespace Cmsg.Base.Runs

variable {σ ι ω : Type _}

/-- One step of a partial machine: the next state and the outputs. -/
abbrev Machine (σ ι ω : Type _) := σ → ι → Option (σ × List ω)

/-- Runs a list of inputs, undefined as soon as one step is. -/
def exec (step : Machine σ ι ω) : σ → List ι → Option (σ × List ω)
  | s, [] => some (s, [])
  | s, i :: is =>
    (step s i).bind fun r => (exec step r.1 is).map fun q => (q.1, r.2 ++ q.2)

@[simp] theorem exec_nil (step : Machine σ ι ω) (s : σ) : exec step s [] = some (s, []) := rfl

/-- A run of `i :: is` is the step on `i` followed by a run of `is`. -/
theorem exec_cons {step : Machine σ ι ω} {s t : σ} {i : ι} {is : List ι} {os : List ω} :
    exec step s (i :: is) = some (t, os) ↔
      ∃ s₁ o₁ o₂, step s i = some (s₁, o₁) ∧ exec step s₁ is = some (t, o₂) ∧
        os = o₁ ++ o₂ := by
  simp only [exec, Option.bind_eq_some_iff, Option.map_eq_some_iff, Prod.mk.injEq, Prod.exists]
  constructor
  · rintro ⟨s₁, o₁, hs, t', o₂, he, rfl, rfl⟩
    exact ⟨s₁, o₁, o₂, hs, he, rfl⟩
  · rintro ⟨s₁, o₁, o₂, hs, he, rfl⟩
    exact ⟨s₁, o₁, hs, t, o₂, he, rfl, rfl⟩

/-- A run of a concatenation is the two runs one after the other. -/
theorem exec_append {step : Machine σ ι ω} {s t : σ} {is js : List ι} {os : List ω} :
    exec step s (is ++ js) = some (t, os) ↔
      ∃ s₁ o₁ o₂, exec step s is = some (s₁, o₁) ∧ exec step s₁ js = some (t, o₂) ∧
        os = o₁ ++ o₂ := by
  induction is generalizing s os with
  | nil => simp
  | cons i is ih =>
    simp only [List.cons_append, exec_cons, ih]
    constructor
    · rintro ⟨s₁, o₁, _, hs, ⟨s₂, o₂, o₃, hi, hj, rfl⟩, rfl⟩
      exact ⟨s₂, o₁ ++ o₂, o₃, ⟨s₁, o₁, o₂, hs, hi, rfl⟩, hj, by simp⟩
    · rintro ⟨s₂, _, o₃, ⟨s₁, o₁, o₂, hs, hi, rfl⟩, hj, rfl⟩
      exact ⟨s₁, o₁, o₂ ++ o₃, hs, ⟨s₂, o₂, o₃, hi, hj, rfl⟩, by simp⟩

/-! ## Conditions on every step -/

/-- Every step of the run from `s` meets `C` on the state before it. -/
def Guarded (step : Machine σ ι ω) (C : σ → ι → Prop) : σ → List ι → Prop
  | _, [] => True
  | s, i :: is => C s i ∧ match step s i with
    | none => True
    | some r => Guarded step C r.1 is

@[simp] theorem guarded_nil (step : Machine σ ι ω) (C : σ → ι → Prop) (s : σ) :
    Guarded step C s [] := trivial

theorem guarded_cons {step : Machine σ ι ω} {C : σ → ι → Prop} {s : σ} {i : ι} {is : List ι} :
    Guarded step C s (i :: is) ↔
      C s i ∧ ∀ s₁ o₁, step s i = some (s₁, o₁) → Guarded step C s₁ is := by
  cases h : step s i with
  | none => simp [Guarded, h]
  | some r =>
    obtain ⟨s₁, o₁⟩ := r
    simp only [Guarded, h, Option.some.injEq, Prod.mk.injEq, and_congr_right_iff]
    intro _
    exact ⟨fun hg _ _ he => he.1 ▸ hg, fun hg => hg s₁ o₁ ⟨rfl, rfl⟩⟩

/-- The steps that meet a weaker condition include those that meet a stronger one. -/
theorem Guarded.mono {step : Machine σ ι ω} {C D : σ → ι → Prop} (hCD : ∀ s i, C s i → D s i) :
    ∀ {is : List ι} {s : σ}, Guarded step C s is → Guarded step D s is
  | [], _, _ => trivial
  | _ :: _, _, h => by
    obtain ⟨hc, hr⟩ := guarded_cons.mp h
    exact guarded_cons.mpr ⟨hCD _ _ hc, fun s₁ o₁ hs => Guarded.mono hCD (hr s₁ o₁ hs)⟩

/-- A condition on inputs alone is a condition on the list of inputs. -/
theorem guarded_of_forall {step : Machine σ ι ω} {C : σ → ι → Prop} :
    ∀ {is : List ι} {s : σ}, (∀ i ∈ is, ∀ s, C s i) → Guarded step C s is
  | [], _, _ => trivial
  | i :: _, s, h => guarded_cons.mpr
      ⟨h i (by simp) s, fun _ _ _ => guarded_of_forall fun j hj => h j (by simp [hj])⟩

theorem guarded_append {step : Machine σ ι ω} {C : σ → ι → Prop} {s : σ} {is js : List ι} :
    Guarded step C s (is ++ js) ↔
      Guarded step C s is ∧ ∀ t os, exec step s is = some (t, os) → Guarded step C t js := by
  induction is generalizing s with
  | nil =>
    simp only [List.nil_append, guarded_nil, true_and, exec_nil, Option.some.injEq, Prod.mk.injEq]
    exact ⟨fun h t _ he => he.1 ▸ h, fun h => h s [] ⟨rfl, rfl⟩⟩
  | cons i is ih =>
    simp only [List.cons_append, guarded_cons, ih, exec_cons]
    constructor
    · intro ⟨hc, h⟩
      refine ⟨⟨hc, fun s₁ o₁ hs => (h s₁ o₁ hs).1⟩, ?_⟩
      rintro t os ⟨s₁, o₁, o₂, hs, he, _⟩
      exact (h s₁ o₁ hs).2 t o₂ he
    · intro ⟨⟨hc, h⟩, hj⟩
      exact ⟨hc, fun s₁ o₁ hs => ⟨h s₁ o₁ hs, fun t o₂ he => hj t _ ⟨s₁, o₁, o₂, hs, he, rfl⟩⟩⟩

/-- The condition on every step, said of every point of the run. -/
theorem guarded_iff_forall_point {step : Machine σ ι ω} {C : σ → ι → Prop} {s : σ} {is : List ι} :
    Guarded step C s is ↔
      ∀ pre i post, is = pre ++ i :: post → ∀ t os, exec step s pre = some (t, os) → C t i := by
  constructor
  · rintro h pre i post rfl t os he
    exact (guarded_cons.mp ((guarded_append.mp h).2 t os he)).1
  · intro h
    induction is generalizing s with
    | nil => trivial
    | cons i is ih =>
      refine guarded_cons.mpr ⟨h [] i is rfl s [] rfl, fun s₁ o₁ hs => ih ?_⟩
      intro pre j post hsplit t os he
      refine h (i :: pre) j post (by rw [hsplit]; rfl) t (o₁ ++ os) ?_
      exact exec_cons.mpr ⟨s₁, o₁, os, hs, he, rfl⟩

theorem Guarded.and {step : Machine σ ι ω} {C D : σ → ι → Prop} {s : σ} {is : List ι}
    (hC : Guarded step C s is) (hD : Guarded step D s is) :
    Guarded step (fun s i => C s i ∧ D s i) s is :=
  guarded_iff_forall_point.mpr fun pre i post hsplit t os he =>
    ⟨guarded_iff_forall_point.mp hC pre i post hsplit t os he,
      guarded_iff_forall_point.mp hD pre i post hsplit t os he⟩

/-! ## Invariants -/

/-- The run rule from the middle of a run: `js` and `ps` are the inputs and
outputs before it. -/
theorem exec_track_from {step : Machine σ ι ω} {C : σ → ι → Prop} {R : σ → List ι → List ω → Prop}
    (hstep : ∀ s is os i s' o, R s is os → C s i → step s i = some (s', o) →
      R s' (is ++ [i]) (os ++ o)) :
    ∀ (is : List ι) (s t : σ) (js : List ι) (ps os : List ω), R s js ps →
      Guarded step C s is → exec step s is = some (t, os) → R t (js ++ is) (ps ++ os)
  | [], s, t, js, ps, os, hR, _, he => by
    simp only [exec_nil, Option.some.injEq, Prod.mk.injEq] at he
    obtain ⟨rfl, rfl⟩ := he
    simpa using hR
  | i :: is, s, t, js, ps, os, hR, hg, he => by
    obtain ⟨s₁, o₁, o₂, hs, he', rfl⟩ := exec_cons.mp he
    obtain ⟨hc, hg'⟩ := guarded_cons.mp hg
    have h₁ := hstep s js ps i s₁ o₁ hR hc hs
    simpa using exec_track_from hstep is s₁ t (js ++ [i]) (ps ++ o₁) o₂ h₁ (hg' s₁ o₁ hs) he'

/-- **The run rule.** A relation between the state, the inputs read so far and
the outputs made so far that every allowed step preserves holds at the end of
every run of allowed steps. -/
theorem exec_track_guarded {step : Machine σ ι ω} {C : σ → ι → Prop}
    {R : σ → List ι → List ω → Prop}
    (hstep : ∀ s is os i s' o, R s is os → C s i → step s i = some (s', o) →
      R s' (is ++ [i]) (os ++ o))
    {is : List ι} {s t : σ} {os : List ω} (h₀ : R s [] []) (hg : Guarded step C s is)
    (he : exec step s is = some (t, os)) : R t is os :=
  exec_track_from hstep is s t [] [] os h₀ hg he

/-- The run rule for runs of arbitrary steps. -/
theorem exec_track {step : Machine σ ι ω} {R : σ → List ι → List ω → Prop}
    (hstep : ∀ s is os i s' o, R s is os → step s i = some (s', o) → R s' (is ++ [i]) (os ++ o))
    {is : List ι} {s t : σ} {os : List ω} (h₀ : R s [] [])
    (he : exec step s is = some (t, os)) : R t is os :=
  exec_track_guarded (C := fun _ _ => True)
    (fun s is os i s' o hR _ => hstep s is os i s' o hR) h₀
    (guarded_of_forall fun _ _ _ => trivial) he

/-- A state invariant kept by every allowed step holds after every allowed run. -/
theorem exec_invariant_guarded {step : Machine σ ι ω} {C : σ → ι → Prop} {I : σ → Prop}
    (hstep : ∀ s i s' o, I s → C s i → step s i = some (s', o) → I s')
    {is : List ι} {s t : σ} {os : List ω} (h₀ : I s) (hg : Guarded step C s is)
    (he : exec step s is = some (t, os)) : I t :=
  exec_track_guarded (R := fun s _ _ => I s)
    (fun s _ _ i s' o hR hC hs => hstep s i s' o hR hC hs) h₀ hg he

/-- A state invariant kept by every step holds after every run. -/
theorem exec_invariant {step : Machine σ ι ω} {I : σ → Prop}
    (hstep : ∀ s i s' o, I s → step s i = some (s', o) → I s')
    {is : List ι} {s t : σ} {os : List ω} (h₀ : I s)
    (he : exec step s is = some (t, os)) : I t :=
  exec_track (R := fun s _ _ => I s) (fun s _ _ i s' o hR hs => hstep s i s' o hR hs) h₀ he

/-- Every state reached along the run from `s` has `P`. -/
def Always (step : Machine σ ι ω) (P : σ → Prop) (s : σ) (is : List ι) : Prop :=
  ∀ pre post, is = pre ++ post → ∀ t os, exec step s pre = some (t, os) → P t

/-- A state invariant kept by every allowed step holds all along an allowed run. -/
theorem always_of_guarded {step : Machine σ ι ω} {C : σ → ι → Prop} {I P : σ → Prop}
    (hIP : ∀ s, I s → P s)
    (hstep : ∀ s i s' o, I s → C s i → step s i = some (s', o) → I s')
    {is : List ι} {s : σ} (h₀ : I s) (hg : Guarded step C s is) : Always step P s is := by
  rintro pre post rfl t os he
  exact hIP t (exec_invariant_guarded hstep h₀ (guarded_append.mp hg).1 he)

/-- **Exact conditions.** Where the allowed steps keep an invariant that implies
`P`, and every other step that starts from the invariant ends without `P`, a
run has `P` throughout exactly when all its steps are allowed. -/
theorem always_iff_guarded {step : Machine σ ι ω} {A : ι → Prop} {C : σ → ι → Prop}
    {I P : σ → Prop} (hIP : ∀ s, I s → P s)
    (hkeep : ∀ s i s' o, I s → A i → C s i → step s i = some (s', o) → I s')
    (hbreak : ∀ s i, I s → A i → ¬ C s i → ∃ s' o, step s i = some (s', o) ∧ ¬ P s')
    {s : σ} (h₀ : I s) (is : List ι) (hA : ∀ i ∈ is, A i) :
    Always step P s is ↔ Guarded step C s is := by
  constructor
  · intro h
    induction is generalizing s with
    | nil => trivial
    | cons i is ih =>
      have hAi := hA i (by simp)
      have hC : C s i := by
        by_contra hC
        obtain ⟨s', o, hs, hP⟩ := hbreak s i h₀ hAi hC
        exact hP (h [i] is rfl s' o (exec_cons.mpr ⟨s', o, [], hs, rfl, by simp⟩))
      refine guarded_cons.mpr ⟨hC, fun s₁ o₁ hs => ?_⟩
      refine ih (hkeep s i s₁ o₁ h₀ hAi hC hs) (fun j hj => hA j (by simp [hj])) ?_
      intro pre post hsplit t os he
      exact h (i :: pre) post (by rw [hsplit]; rfl) t (o₁ ++ os)
        (exec_cons.mpr ⟨s₁, o₁, os, hs, he, rfl⟩)
  · intro hg
    have hg' : Guarded step (fun s i => A i ∧ C s i) s is :=
      guarded_iff_forall_point.mpr fun pre i post hsplit t os he =>
        ⟨hA i (by simp [hsplit]), guarded_iff_forall_point.mp hg pre i post hsplit t os he⟩
    exact always_of_guarded hIP (fun s i s' o hI hC hs => hkeep s i s' o hI hC.1 hC.2 hs) h₀ hg'

/-! ## Countdowns -/

/-- **The countdown rule.** A measure that no step raises, and that the steps marked by
`p` lower, is gone after as many marked steps as it counts. -/
theorem exec_countdown {step : Machine σ ι ω} {R : σ → List ω → Prop} {μ : σ → List ω → Nat}
    {p : ι → Bool} (hkeep : ∀ s os i s' o, R s os → step s i = some (s', o) → R s' (os ++ o))
    (hstep : ∀ s os i s' o, R s os → step s i = some (s', o) →
      μ s' (os ++ o) ≤ μ s os - if p i then 1 else 0) :
    ∀ (is : List ι) (s t : σ) (ps os : List ω), R s ps → exec step s is = some (t, os) →
      μ t (ps ++ os) ≤ μ s ps - is.countP p
  | [], s, t, ps, os, _, he => by
    simp only [exec_nil, Option.some.injEq, Prod.mk.injEq] at he
    obtain ⟨rfl, rfl⟩ := he
    simp
  | i :: is, s, t, ps, os, hR, he => by
    obtain ⟨s₁, o₁, o₂, hs, he', rfl⟩ := exec_cons.mp he
    have hone := hstep s ps i s₁ o₁ hR hs
    have hrest := exec_countdown hkeep hstep is s₁ t (ps ++ o₁) o₂ (hkeep s ps i s₁ o₁ hR hs) he'
    rw [List.append_assoc] at hrest
    rw [List.countP_cons]
    omega

end Cmsg.Base.Runs
