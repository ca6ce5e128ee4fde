import Mathlib.Data.List.Basic
import Mathlib.Logic.Relation

/-! # Depth-first search with a set of visited nodes

A node is entered at most once. Its edges are looked at in order, and the search
stops at the first goal. The nodes visited under one edge stay visited under the
next, so a search that found nothing says of all visited nodes that they have no
goal and lead to visited nodes only. -/
namespace Cmsg.Base.Search

variable {α : Type _}

/-- What a node shows: the goal, another node, or nothing of interest. -/
inductive Edge (α : Type _)
  | goal
  | node (a : α)
  | none
deriving DecidableEq, Repr

/-- Looks at edges in order; `enter` enters a node with the nodes visited so far
and says whether a goal was found and what is visited then. -/
def scan (enter : α → List α → Option (Bool × List α)) :
    List (Edge α) → List α → Option (Bool × List α)
  | [], seen => some (false, seen)
  | .goal :: _, seen => some (true, seen)
  | .none :: es, seen => scan enter es seen
  | .node b :: es, seen =>
    match enter b seen with
    | .none => .none
    | some (true, seen') => some (true, seen')
    | some (false, seen') => scan enter es seen'

/-- The search from a node, undefined when it is nested deeper than `fuel`. -/
def search [DecidableEq α] (edges : α → List (Edge α)) :
    Nat → α → List α → Option (Bool × List α)
  | 0, _, _ => none
  | fuel + 1, a, seen =>
    if a ∈ seen then some (false, seen)
    else scan (search edges fuel) (edges a) (a :: seen)

/-- From one node to another along an edge. -/
def Leads (edges : α → List (Edge α)) (a b : α) : Prop := Edge.node b ∈ edges a

/-- Along edges to a node that shows the goal. -/
def Finds (edges : α → List (Edge α)) (a : α) : Prop :=
  ∃ b, Relation.ReflTransGen (Leads edges) a b ∧ Edge.goal ∈ edges b

variable {edges : α → List (Edge α)}

theorem Finds.head {a b : α} (hl : Leads edges a b) (hf : Finds edges b) : Finds edges a := by
  obtain ⟨c, hr, hg⟩ := hf
  exact ⟨c, hr.head hl, hg⟩

/-! ## Enough fuel -/

/-- How many of the nodes are not visited yet. -/
def unseen [DecidableEq α] (nodes seen : List α) : Nat := nodes.countP fun a => decide (a ∉ seen)

theorem unseen_mono [DecidableEq α] {nodes seen seen' : List α} (h : seen ⊆ seen') :
    unseen nodes seen' ≤ unseen nodes seen := by
  apply List.countP_mono_left
  intro a _ ha
  have hn : a ∉ seen' := by simpa using ha
  simpa using fun hm => hn (h hm)

theorem unseen_cons_lt [DecidableEq α] {nodes seen : List α} {a : α} (hu : a ∈ nodes)
    (hn : a ∉ seen) :
    unseen nodes (a :: seen) < unseen nodes seen := by
  induction nodes with
  | nil => cases hu
  | cons b bs ih =>
    have hmono : unseen bs (a :: seen) ≤ unseen bs seen :=
      unseen_mono (List.subset_cons_self a seen)
    simp only [unseen, List.countP_cons] at ih hmono ⊢
    by_cases hb : b = a
    · subst hb
      have hnew : decide (b ∉ b :: seen) = false := by simp
      have hold : decide (b ∉ seen) = true := by simp [hn]
      rw [hnew, hold]
      simp only [Bool.false_eq_true, ite_false, ite_true]
      omega
    · have hlt := ih ((List.mem_cons.mp hu).resolve_left fun e => hb e.symm)
      have hsame : decide (b ∉ a :: seen) = decide (b ∉ seen) := by simp [hb]
      rw [hsame]
      omega

/-! ## What a search finds -/

/-- What a node that was searched without success leads to. -/
def Closed (edges : α → List (Edge α)) (seen : List α) (b : α) : Prop :=
  Edge.goal ∉ edges b ∧ ∀ c, Leads edges b c → c ∈ seen

theorem Closed.mono {seen seen' : List α} {b : α} (h : seen ⊆ seen') (hc : Closed edges seen b) :
    Closed edges seen' b :=
  ⟨hc.1, fun c hl => h (hc.2 c hl)⟩

/-- What the entering of a node does to the visited nodes, and what it says. -/
structure Entered (edges : α → List (Edge α)) (a : α) (seen : List α) (found : Bool)
    (seen' : List α) : Prop where
  grows : seen ⊆ seen'
  sound : found = true → Finds edges a
  mem : found = false → a ∈ seen'
  closed : found = false → ∀ b ∈ seen', b ∉ seen → Closed edges seen' b

/-- The same of the edges that are looked at in order. -/
structure Scanned (edges : α → List (Edge α)) (es : List (Edge α)) (seen : List α) (found : Bool)
    (seen' : List α) : Prop where
  grows : seen ⊆ seen'
  sound : found = true → Edge.goal ∈ es ∨ ∃ b, Edge.node b ∈ es ∧ Finds edges b
  no_goal : found = false → Edge.goal ∉ es
  mem : found = false → ∀ b, Edge.node b ∈ es → b ∈ seen'
  closed : found = false → ∀ b ∈ seen', b ∉ seen → Closed edges seen' b

/-- Edges are scanned as their nodes are entered. `P` is what entering needs of
the visited nodes. -/
theorem scan_scanned {enter : α → List α → Option (Bool × List α)} {P : List α → Prop}
    (hP : ∀ seen seen', seen ⊆ seen' → P seen → P seen')
    (henter : ∀ b seen, P seen → ∃ found seen', enter b seen = some (found, seen') ∧
      Entered edges b seen found seen') (es : List (Edge α)) (seen : List α) (hs : P seen) :
    ∃ found seen', scan enter es seen = some (found, seen') ∧
      Scanned edges es seen found seen' := by
  induction es generalizing seen with
  | nil =>
    exact ⟨false, seen, rfl, List.Subset.refl _, by simp, by simp, by simp,
      fun _ b hb hn => absurd hb hn⟩
  | cons e es ih =>
    cases e with
    | goal => exact ⟨true, seen, rfl, List.Subset.refl _, by simp, by simp, by simp, by simp⟩
    | none =>
      obtain ⟨found, seen', heq, h⟩ := ih seen hs
      refine ⟨found, seen', heq, h.grows, ?_, ?_, ?_, h.closed⟩
      · intro hf
        simpa using h.sound hf
      · intro hf
        simpa using h.no_goal hf
      · intro hf
        simpa using h.mem hf
    | node b =>
      obtain ⟨found, seen₁, he, h₁⟩ := henter b seen hs
      cases found with
      | true =>
        refine ⟨true, seen₁, by rw [scan, he], h₁.grows, ?_, by simp, by simp, by simp⟩
        intro _
        exact .inr ⟨b, by simp, h₁.sound rfl⟩
      | false =>
        obtain ⟨found, seen₂, heq, h₂⟩ := ih seen₁ (hP seen seen₁ h₁.grows hs)
        refine ⟨found, seen₂, by simp only [scan, he, heq],
          List.Subset.trans h₁.grows h₂.grows, ?_, ?_, ?_, ?_⟩
        · intro hf
          cases h₂.sound hf with
          | inl hg => exact .inl (by simp [hg])
          | inr hn =>
            obtain ⟨c, hc, hfinds⟩ := hn
            exact .inr ⟨c, by simp [hc], hfinds⟩
        · intro hf
          simpa using h₂.no_goal hf
        · intro hf c hc
          cases List.mem_cons.mp hc with
          | inl heq =>
            cases heq
            exact h₂.grows (h₁.mem rfl)
          | inr hc => exact h₂.mem hf c hc
        · intro hf c hc hn
          by_cases hc₁ : c ∈ seen₁
          · exact (h₁.closed rfl c hc₁ hn).mono h₂.grows
          · exact h₂.closed hf c hc hc₁

/-- With more fuel than unvisited nodes a search comes to an end. -/
theorem search_entered [DecidableEq α] {nodes : List α} (hu : ∀ a, a ∈ nodes) (fuel : Nat) (a : α)
    (seen : List α) (hfuel : unseen nodes seen < fuel) :
    ∃ found seen', search edges fuel a seen = some (found, seen') ∧
      Entered edges a seen found seen' := by
  induction fuel generalizing a seen with
  | zero => omega
  | succ fuel ih =>
    by_cases ha : a ∈ seen
    · exact ⟨false, seen, by rw [search, if_pos ha], List.Subset.refl _, by simp, fun _ => ha,
        fun _ b hb hn => absurd hb hn⟩
    · have hlt := unseen_cons_lt (hu a) ha
      -- what is visited only grows, so the fuel for the nodes below stays enough
      obtain ⟨found, seen', heq, h⟩ := scan_scanned (P := fun seen => unseen nodes seen < fuel)
        (fun _ _ hsub hp => Nat.lt_of_le_of_lt (unseen_mono hsub) hp)
        (fun b seen hp => ih b seen hp) (edges a) (a :: seen) (by omega)
      have hin : a ∈ seen' := h.grows (by simp)
      refine ⟨found, seen', by rw [search, if_neg ha, heq],
        fun b hb => h.grows (by simp [hb]), ?_, fun _ => hin, ?_⟩
      · intro hf
        cases h.sound hf with
        | inl hg => exact ⟨a, .refl, hg⟩
        | inr hn =>
          obtain ⟨b, hb, hfinds⟩ := hn
          exact Finds.head hb hfinds
      · intro hf b hb hn
        by_cases hba : b = a
        · subst hba
          exact ⟨h.no_goal hf, h.mem hf⟩
        · exact h.closed hf b hb (by simp [hba, hn])

/-- The search with nothing visited yet. -/
def finds [DecidableEq α] (edges : α → List (Edge α)) (nodes : List α) (a : α) : Bool :=
  match search edges (nodes.length + 1) a [] with
  | some (found, _) => found
  | .none => false

/-- A search of a finite graph always ends, and finds a goal exactly if there is
one to be reached. -/
theorem finds_iff [DecidableEq α] {nodes : List α} (hu : ∀ a, a ∈ nodes) (a : α) :
    finds edges nodes a = true ↔ Finds edges a := by
  have hfuel : unseen nodes ([] : List α) < nodes.length + 1 :=
    Nat.lt_succ_of_le List.countP_le_length
  obtain ⟨found, seen, heq, h⟩ := @search_entered α edges _ nodes hu _ a [] hfuel
  simp only [finds, heq]
  refine ⟨h.sound, fun hf => ?_⟩
  cases found with
  | true => rfl
  | false =>
    obtain ⟨b, hr, hg⟩ := hf
    have hb : b ∈ seen := by
      clear hg
      induction hr with
      | refl => exact h.mem rfl
      | tail _ hl ih => exact (h.closed rfl _ ih (by simp)).2 _ hl
    exact absurd hg (h.closed rfl b hb (by simp)).1

end Cmsg.Base.Search
