import Cmsg.Base.Lists
import Mathlib.Data.List.Induction
import Mathlib.Data.List.Nodup
import Mathlib.Data.List.Perm.Basic

/-! # Following a set through its changes

Someone who is told of every element added to and removed from a set knows the
set. Elements are told apart by a key. `Followed log current` says that the log
of what was told, element by element, alternates between added and removed, and
that replaying it gives `current`. -/
namespace Cmsg.Base

inductive Change (α : Type _)
  | added (a : α)
  | removed (a : α)
deriving DecidableEq, Repr

namespace Change

variable {α κ : Type _}

def subject : Change α → α
  | added a => a
  | removed a => a

def isAdded : Change α → Bool
  | added _ => true
  | removed _ => false

/-- The same change of what the element is seen as. -/
def map {β : Type _} (f : α → β) : Change α → Change β
  | added a => added (f a)
  | removed a => removed (f a)

variable [DecidableEq κ] (key : α → κ)

/-- Replays one change on a list of elements. -/
def applyTo (current : List α) : Change α → List α
  | added a => a :: current
  | removed a => current.eraseP fun b => key b == key a

/-- Replays a log from the start. -/
def replay (log : List (Change α)) : List α := log.foldl (applyTo key) []

/-- What the log says about one element, in order. -/
def about (k : κ) (log : List (Change α)) : List Bool :=
  (log.filter fun c => key c.subject == k).map isAdded

/-- What the next change about an element has to be, after a list of changes
that alternates from `added` on. -/
def expected : Bool → List Bool → Option Bool
  | next, [] => some next
  | next, flag :: flags => if flag = next then expected (!next) flags else none

/-- The changes of the elements that a test of the keys selects. -/
def selected (p : κ → Bool) (log : List (Change α)) : List (Change α) :=
  log.filter fun c => p (key c.subject)

/-- The changes about every element alternate: added, removed, added, … -/
def Alternates (log : List (Change α)) : Prop :=
  ∀ k, (expected true (about key k log)).isSome

/-- A log that alternates and whose replay is `current`. -/
structure Followed (log : List (Change α)) (current : List α) : Prop where
  next : ∀ k, expected true (about key k log) = some (!decide (k ∈ current.map key))
  replay : (replay key log).Perm current

variable {key}

theorem expected_append {next : Bool} {xs ys : List Bool} :
    expected next (xs ++ ys) = (expected next xs).bind (expected · ys) := by
  induction xs generalizing next with
  | nil => rfl
  | cons flag xs ih =>
    rw [List.cons_append, expected, expected]
    split
    · exact ih
    · rfl

theorem about_append {k : κ} {log log' : List (Change α)} :
    about key k (log ++ log') = about key k log ++ about key k log' := by
  rw [about, List.filter_append, List.map_append, about, about]

theorem replay_snoc {log : List (Change α)} {c : Change α} :
    replay key (log ++ [c]) = applyTo key (replay key log) c := by
  rw [replay, List.foldl_append, replay]
  rfl

theorem alternates_nil : Alternates key [] := fun _ => rfl

/-- It is enough to look at the elements that the log is about. -/
theorem alternates_of_subjects {log : List (Change α)}
    (h : ∀ c ∈ log, (expected true (about key (key c.subject) log)).isSome = true) :
    Alternates key log := by
  intro k
  by_cases hk : ∃ c ∈ log, key c.subject = k
  · obtain ⟨c, hc, rfl⟩ := hk
    exact h c hc
  · have hnone : about key k log = [] := by
      rw [about, List.map_eq_nil_iff, List.filter_eq_nil_iff]
      exact fun c hc he => hk ⟨c, hc, beq_iff_eq.mp he⟩
    rw [hnone]
    rfl

/-- What alternates does so up to any point. -/
theorem Alternates.of_append {log log' : List (Change α)} (h : Alternates key (log ++ log')) :
    Alternates key log := by
  intro k
  have hk := h k
  rw [about_append, expected_append] at hk
  cases he : expected true (about key k log) with
  | none => simp [he] at hk
  | some next => rfl

theorem Followed.alternates {log : List (Change α)} {current : List α}
    (h : Followed key log current) : Alternates key log := fun k => by
  rw [h.next k]
  rfl

theorem followed_nil : Followed key ([] : List (Change α)) [] where
  next _ := rfl
  replay := .nil

theorem Followed.congr {log : List (Change α)} {current current' : List α}
    (h : Followed key log current) (hp : current.Perm current') : Followed key log current' where
  next k := by
    rw [h.next k]
    simp only [(hp.map key).mem_iff]
  replay := h.replay.trans hp

/-- Being told of a new element. -/
theorem Followed.add {log : List (Change α)} {current : List α} (h : Followed key log current)
    {a : α} (ha : key a ∉ current.map key) : Followed key (log ++ [added a]) (a :: current) where
  next k := by
    rw [about_append, expected_append, h.next k]
    by_cases hk : key a = k
    · subst hk
      have hnot : decide (key a ∈ current.map key) = false := decide_eq_false ha
      rw [hnot]
      simp [about, subject, isAdded, expected]
    · have hk' : ¬ k = key a := fun he => hk he.symm
      simp [about, subject, expected, hk, hk']
  replay := by
    rw [replay_snoc]
    exact h.replay.cons a

/-- Being told that an element is gone. -/
theorem Followed.remove {log : List (Change α)} {current : List α} (h : Followed key log current)
    (hu : (current.map key).Nodup) {a : α} (ha : key a ∈ current.map key) :
    Followed key (log ++ [removed a]) (current.eraseP fun b => key b == key a) where
  next k := by
    have hmap : (current.eraseP fun b => key b == key a).map key =
        (current.map key).erase (key a) := List.map_eraseP_eq_erase fun _ _ => beq_iff_eq
    rw [about_append, expected_append, h.next k, hmap]
    simp only [hu.mem_erase_iff]
    by_cases hk : key a = k
    · subst hk
      have hmem : decide (key a ∈ current.map key) = true := decide_eq_true ha
      rw [hmem]
      simp [about, subject, isAdded, expected]
    · have hk' : k ≠ key a := fun he => hk he.symm
      simp [about, subject, expected, hk, hk']
  replay := by
    rw [replay_snoc]
    refine h.replay.eraseP _ ?_
    have hnodup := (h.replay.map key).nodup_iff.mpr hu
    refine (List.pairwise_map.mp hnodup).imp fun hne hb hc => hne ?_
    rw [beq_iff_eq.mp hb, beq_iff_eq.mp hc]

/-- Being told of several new elements. -/
theorem Followed.addAll {log : List (Change α)} {current : List α} (h : Followed key log current) :
    ∀ {as : List α}, ((as ++ current).map key).Nodup →
      Followed key (log ++ as.map added) (as ++ current) := by
  intro as hu
  induction as generalizing log current with
  | nil => simpa using h
  | cons a as ih =>
    have hperm : (as ++ a :: current).Perm (a :: as ++ current) := List.perm_middle
    have hu' : ((as ++ a :: current).map key).Nodup := (hperm.map key).nodup_iff.mpr hu
    have ha : key a ∉ current.map key := by
      rw [List.cons_append, List.map_cons, List.nodup_cons, List.map_append] at hu
      exact fun hmem => hu.1 (List.mem_append_right _ hmem)
    have h' := (ih (h.add ha) hu').congr hperm
    simpa using h'

/-! ## Elements seen as others -/

section
variable {β : Type _} {f : β → α} {log : List (Change β)}

theorem about_map (k : κ) : about key k (log.map (map f)) = about (key ∘ f) k log := by
  induction log with
  | nil => rfl
  | cons c log ih =>
    have hsubject : (map f c).subject = f c.subject := by cases c <;> rfl
    have hadded : (map f c).isAdded = c.isAdded := by cases c <;> rfl
    unfold about at ih ⊢
    rw [List.map_cons, List.filter_cons, List.filter_cons, hsubject, Function.comp_apply]
    by_cases hk : (key (f c.subject) == k) = true
    · rw [if_pos hk, if_pos hk, List.map_cons, List.map_cons, hadded, ih]
    · rw [if_neg hk, if_neg hk, ih]

theorem alternates_map : Alternates key (log.map (map f)) ↔ Alternates (key ∘ f) log := by
  unfold Alternates
  exact forall_congr' fun k => by rw [about_map]

theorem map_replay : (replay (key ∘ f) log).map f = replay key (log.map (map f)) := by
  induction log using List.reverseRecOn with
  | nil => rfl
  | append_singleton log c ih =>
    rw [List.map_append, List.map_singleton, replay_snoc, replay_snoc, ← ih]
    cases c with
    | added a => rfl
    | removed a =>
      rw [applyTo, map, applyTo, List.eraseP_map]
      rfl

end

/-! ## Logs that alternate -/

/-- What is added next is not there. -/
theorem Followed.notMem {log : List (Change α)} {current : List α} (h : Followed key log current)
    {a : α} (halt : Alternates key (log ++ [added a])) : key a ∉ current.map key := by
  intro hmem
  have hk := halt (key a)
  rw [about_append, expected_append, h.next, decide_eq_true hmem] at hk
  simp [about, subject, isAdded, expected] at hk

/-- What is removed next is there. -/
theorem Followed.mem {log : List (Change α)} {current : List α} (h : Followed key log current)
    {a : α} (halt : Alternates key (log ++ [removed a])) : key a ∈ current.map key := by
  by_contra hnot
  have hk := halt (key a)
  rw [about_append, expected_append, h.next, decide_eq_false hnot] at hk
  simp [about, subject, isAdded, expected] at hk

/-- What alternates is followed by its own replay. -/
theorem Alternates.followed {log : List (Change α)} (h : Alternates key log) :
    Followed key log (replay key log) ∧ ((replay key log).map key).Nodup := by
  induction log using List.reverseRecOn with
  | nil => exact ⟨followed_nil, .nil⟩
  | append_singleton log c ih =>
    obtain ⟨hfollowed, hnodup⟩ := ih h.of_append
    rw [replay_snoc]
    cases c with
    | added a =>
      have hnot := hfollowed.notMem h
      exact ⟨hfollowed.add hnot, List.nodup_cons.mpr ⟨hnot, hnodup⟩⟩
    | removed a =>
      exact ⟨hfollowed.remove hnodup (hfollowed.mem h), (List.eraseP_sublist.map _).nodup hnodup⟩

omit [DecidableEq κ] in
theorem selected_snoc (p : κ → Bool) (log : List (Change α)) (c : Change α) :
    selected key p (log ++ [c]) =
      selected key p log ++ if p (key c.subject) then [c] else [] := by
  rw [selected, List.filter_append, selected, List.filter_cons, List.filter_nil]

theorem Alternates.selected {log : List (Change α)} (h : Alternates key log) (p : κ → Bool) :
    Alternates key (selected key p log) := by
  intro k
  have habout : about key k (Change.selected key p log) =
      if p k then about key k log else [] := by
    unfold about Change.selected
    rw [List.filter_filter]
    split
    · next hp =>
      refine congrArg _ (List.filter_congr fun c _ => ?_)
      by_cases hc : key c.subject = k
      · simp [hc, hp]
      · simp [hc]
    · next hp =>
      rw [List.map_eq_nil_iff, List.filter_eq_nil_iff]
      intro c _
      by_cases hc : key c.subject = k
      · simp [hc, hp]
      · simp [hc]
  rw [habout]
  split
  · exact h k
  · rfl

/-- Replaying the changes that were selected gives the elements that are selected. -/
theorem replay_selected (p : κ → Bool) (log : List (Change α)) :
    replay key (selected key p log) = (replay key log).filter fun a => p (key a) := by
  have hpos : ∀ a l, p (key a) = true →
      (a :: l).filter (fun a => p (key a)) = a :: l.filter fun a => p (key a) :=
    fun a l hp => List.filter_cons_of_pos hp
  have hneg : ∀ a l, ¬ p (key a) = true →
      (a :: l).filter (fun a => p (key a)) = l.filter fun a => p (key a) :=
    fun a l hp => List.filter_cons_of_neg hp
  have herase : ∀ (k : κ) (l : List α),
      (l.eraseP fun b => key b == k).filter (fun a => p (key a)) =
        if p k then (l.filter fun a => p (key a)).eraseP fun b => key b == k
        else l.filter fun a => p (key a) := by
    intro k l
    induction l with
    | nil => simp
    | cons a l ih =>
      by_cases ha : key a = k
      · subst ha
        by_cases hp : p (key a) = true
        · simp [hp]
        · simp [hp]
      · by_cases hp : p (key a) = true
        · rw [List.eraseP_cons_of_neg (by simpa using ha), hpos _ _ hp, ih,
            hpos _ _ hp, List.eraseP_cons_of_neg (by simpa using ha)]
          split <;> rfl
        · rw [List.eraseP_cons_of_neg (by simpa using ha), hneg _ _ hp, ih, hneg _ _ hp]
  induction log using List.reverseRecOn with
  | nil => rfl
  | append_singleton log c ih =>
    rw [selected_snoc, replay_snoc]
    cases c with
    | added a =>
      by_cases hp : p (key a) = true
      · rw [subject, if_pos hp, replay_snoc, ih, applyTo, applyTo, hpos _ _ hp]
      · rw [subject, if_neg hp, List.append_nil, ih, applyTo, hneg _ _ hp]
    | removed a =>
      rw [applyTo, herase]
      by_cases hp : p (key a) = true
      · rw [subject, if_pos hp, if_pos hp, replay_snoc, ih, applyTo]
      · rw [subject, if_neg hp, if_neg hp, List.append_nil, ih]

end Change
end Cmsg.Base
