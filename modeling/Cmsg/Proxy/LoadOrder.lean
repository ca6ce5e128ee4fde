import Cmsg.Proxy.Lookup

/-! # The order in which services are loaded

The body string of a service is checked where the walk along its URL comes to a token
that is not in the tree yet. A service whose URL runs along the URLs of others gets
into the tree without the check, so the order of loading decides about it. -/
namespace Cmsg.Proxy
open Cmsg.Base Cmsg.Base.Routes

/-- Why `cmsg_proxy_service_info_add` refuses a service. -/
inductive Refusal
  | conflict | bodyString
  deriving DecidableEq

/-- The `return false` that the walk of `cmsg_proxy_service_info_add` comes to, if any. -/
def refusalFrom (info : ServiceInfo) : List CString → GNode → Option Refusal
  | [], _ => none
  | token :: rest, parent =>
    match parent.children.splitFirst fun n => !n.isLeaf && n.named token with
    | some (_, node, _) => refusalFrom info rest node
    | none =>
      if serviceInfoConflicts parent token && !allowedConflicts info.urlString then some .conflict
      else if !bodyStringCheck info then some .bodyString
      else refusalFrom info rest (.node (.token token) [])

def ServiceInfo.template (info : ServiceInfo) : List CString := strtok slash info.urlString

def refusal (tree : GNode) (info : ServiceInfo) : Option Refusal :=
  refusalFrom info info.template tree

/-- The services of the array that the check of the body string refuses, in order. -/
def rejectedByCheck : GNode → List ServiceInfo → List ServiceInfo
  | _, [] => []
  | tree, info :: array =>
    let rest := rejectedByCheck (serviceInfoAdd tree info).2 array
    if refusal tree info = some .bodyString then info :: rest else rest

/-- Whether the path is in the tree up to its last token. -/
def pathInTree : List CString → GNode → Bool
  | [], _ => true
  | token :: rest, parent =>
    match parent.children.splitFirst fun n => !n.isLeaf && n.named token with
    | some (_, node, _) => pathInTree rest node
    | none => false

/-- Each load order of the services rejects the same ones, and a service whose path is
in the tree is checked like any other. -/
structure BodyCheckIndependent (infos : List ServiceInfo) : Prop where
  order : ∀ a b, a.Perm infos → b.Perm infos →
    (rejectedByCheck treeInit a).Perm (rejectedByCheck treeInit b)
  alike : ∀ pre info post, (pre ++ info :: post).Perm infos →
    pathInTree info.template (loadedTree pre) = true →
    (refusal (loadedTree pre) info = some .bodyString ↔ bodyStringCheck info = false)

/-- No service that fails the check has a path that lies along the URL of one that
passes it. -/
def NoFailingPrefix (infos : List ServiceInfo) : Prop :=
  ∀ info ∈ infos, bodyStringCheck info = false → info.template ≠ [] →
    ∀ other ∈ infos, bodyStringCheck other = true → ¬ info.template <+: other.template

/-- The check does not stop the service; it is not made for a URL without tokens. -/
def ServiceInfo.passes (info : ServiceInfo) : Bool :=
  bodyStringCheck info || info.template.isEmpty

/-! ## One service -/

section
variable {n tree : GNode} {es : UrlTable} {info : ServiceInfo} {ts : List CString}

theorem added_eq (info : ServiceInfo) (ts : List CString) (n : GNode) :
    (serviceInfoAddFrom info ts n).1 = (refusalFrom info ts n).isNone := by
  induction ts generalizing n with
  | nil => rfl
  | cons t ts ih =>
    rw [serviceInfoAddFrom, refusalFrom]
    cases n.children.splitFirst fun c => !c.isLeaf && c.named t with
    | some r => exact ih r.2.1
    | none =>
      dsimp only
      split
      · rfl
      · split
        · rfl
        · exact ih _

/-- On a path that is in the tree nothing is checked. -/
theorem refusalFrom_of_path (info : ServiceInfo) (h : pathInTree ts n = true) : refusalFrom info ts n = none := by
  induction ts generalizing n with
  | nil => rfl
  | cons t ts ih =>
    rw [pathInTree] at h
    rw [refusalFrom]
    cases hs : n.children.splitFirst fun c => !c.isLeaf && c.named t with
    | some r =>
      rw [hs] at h
      exact ih h
    | none =>
      rw [hs] at h
      cases h

/-- The paths in the tree are those that some URL runs along. -/
theorem Represents.pathInTree_iff (h : Represents n es) :
    pathInTree ts n = true ↔ ts = [] ∨ ∃ e ∈ es, ts <+: e.1 := by
  induction ts generalizing n es with
  | nil => exact ⟨fun _ => .inl rfl, fun _ => rfl⟩
  | cons t ts ih =>
    rw [pathInTree]
    rcases h.step t with ⟨before, q, after, rfl, hp, hn, hsplit⟩ | ⟨paths, ht, hp, hn, hsplit⟩
    · rw [hsplit]
      dsimp only
      rw [ih (hp.below q (by simp))]
      constructor
      · rintro (rfl | ⟨⟨us, other⟩, hmem, hpre⟩)
        · obtain ⟨us, other, hmem⟩ := mem_heads.mp (hp.mem_iff.mp (show q.1 ∈ _ by simp))
          exact .inr ⟨_, hmem, List.cons_prefix_cons.mpr ⟨rfl, List.nil_prefix⟩⟩
        · exact .inr ⟨_, mem_afterHead.mp hmem, List.cons_prefix_cons.mpr ⟨rfl, hpre⟩⟩
      · rintro (hnil | ⟨⟨us, other⟩, hmem, hpre⟩)
        · cases hnil
        · obtain ⟨rest, rfl⟩ := hpre
          exact .inr ⟨_, mem_afterHead.mpr hmem, List.prefix_append _ _⟩
    · rw [hsplit]
      dsimp only
      constructor
      · intro hfalse
        cases hfalse
      · rintro (hnil | ⟨⟨us, other⟩, hmem, hpre⟩)
        · cases hnil
        · obtain ⟨rest, rfl⟩ := hpre
          exact absurd (mem_heads.mpr ⟨_, _, hmem⟩) ht

/-- A URL that clashes with none is refused for its body string only, and only where
its path is new. -/
theorem Represents.refusalFrom_eq (h : Represents n es) (info : ServiceInfo) (ts : List CString)
    (hclash : ∀ e ∈ es, ¬ Clashes tokenIsUrlParam ts e.1) :
    refusalFrom info ts n =
      if pathInTree ts n || bodyStringCheck info then none else some .bodyString := by
  induction ts generalizing n es with
  | nil => rfl
  | cons t ts ih =>
    rw [refusalFrom, pathInTree]
    rcases h.step t with ⟨before, q, after, rfl, hp, hn, hsplit⟩ | ⟨paths, ht, hp, hn, hsplit⟩
    · rw [hsplit]
      refine ih (hp.below q (by simp)) ?_
      rintro ⟨us, other⟩ hmem hc
      exact hclash _ (mem_afterHead.mp hmem) (clashes_cons_self.mpr hc)
    · have hnone : serviceInfoConflicts n t = false := by
        rw [hp.conflicts hn]
        cases paths with
        | nil => rfl
        | cons q qs =>
          obtain ⟨us, other, hmem⟩ := mem_heads.mp (hp.mem_iff.mp (show q.1 ∈ _ by simp))
          have hne : t ≠ q.1 := by
            rintro rfl
            exact ht (mem_heads.mpr ⟨us, other, hmem⟩)
          have hq := hclash _ hmem
          rw [clashes_cons_ne hne] at hq
          simpa using hq
      rw [hsplit, hnone]
      cases hb : bodyStringCheck info with
      | true =>
        have hleaf := serviceInfoAddFrom_leaf hb ts (.token t)
        rw [added_eq, Option.isNone_iff_eq_none] at hleaf
        exact hleaf
      | false => rfl

/-- A URL along the URLs that are in the tree stays in the tree. -/
theorem not_rejected_of_path (h : Represents tree es) (hpath : ∃ e ∈ es, info.template <+: e.1)
    (array : List ServiceInfo) : info ∉ rejectedByCheck tree array := by
  induction array generalizing tree es with
  | nil => exact List.not_mem_nil
  | cons first array ih =>
    have hrest : info ∉ rejectedByCheck (serviceInfoAdd tree first).2 array := by
      cases hok : (serviceInfoAdd tree first).1 with
      | true =>
        obtain ⟨e, hmem, hpre⟩ := hpath
        exact ih (h.addInfo hok) ⟨e, List.mem_append_left _ hmem, hpre⟩
      | false =>
        have hsame : (serviceInfoAdd tree first).2 = tree := h.refused hok
        rw [hsame]
        exact ih h hpath
    rw [rejectedByCheck]
    split
    · next hrefused =>
      rintro (_ | _)
      · have hnone := refusalFrom_of_path info (h.pathInTree_iff.mpr (.inr hpath))
        rw [refusal, hnone] at hrefused
        cases hrefused
      · contradiction
    · exact hrest

end

/-! ## Any order -/

section
variable {infos : List ServiceInfo} {tree : GNode} {es : UrlTable}

theorem not_clashes_of_mem (h : Unambiguous tokenIsUrlParam (urlTable infos)) {info : ServiceInfo}
    (hinfo : info ∈ infos) (hes : ∀ e ∈ es, e ∈ urlTable infos) :
    ∀ e ∈ es, ¬ Clashes tokenIsUrlParam info.template e.1 :=
  fun e he => h _ (mem_urlTable.mpr ⟨hinfo, rfl⟩) e (hes e he)

/-- Without a failing prefix the service itself decides, wherever it stands. -/
theorem refusal_eq_of_noFailingPrefix (h : Unambiguous tokenIsUrlParam (urlTable infos))
    (hfail : NoFailingPrefix infos) (ht : Represents tree es)
    (hes : ∀ e ∈ es, e ∈ urlTable infos ∧ e.2.passes = true) {info : ServiceInfo}
    (hinfo : info ∈ infos) :
    refusal tree info = if info.passes then none else some .bodyString := by
  have hclash := not_clashes_of_mem h hinfo fun e he => (hes e he).1
  rw [refusal, ht.refusalFrom_eq _ _ hclash]
  cases hp : info.passes with
  | true =>
    rw [ServiceInfo.passes, Bool.or_eq_true, List.isEmpty_iff] at hp
    rcases hp with hb | hnil
    · rw [hb, Bool.or_true]
    · rw [hnil]
      rfl
  | false =>
    rw [ServiceInfo.passes, Bool.or_eq_false_iff, List.isEmpty_eq_false_iff] at hp
    obtain ⟨hb, hne⟩ := hp
    have hpath : pathInTree info.template tree = false := by
      by_contra hin
      rw [Bool.not_eq_false, ht.pathInTree_iff] at hin
      rcases hin with hnil | ⟨⟨ts, other⟩, hmem, hpre⟩
      · exact hne hnil
      · obtain ⟨htable, hpasses⟩ := hes _ hmem
        obtain ⟨hother, rfl⟩ := mem_urlTable.mp htable
        rw [ServiceInfo.passes, Bool.or_eq_true, List.isEmpty_iff] at hpasses
        rcases hpasses with hgood | hnil
        · exact hfail info hinfo hb hne other hother hgood hpre
        · rw [← ServiceInfo.template, hnil] at hpre
          exact hne (List.prefix_nil.mp hpre)
    rw [hpath, hb]
    rfl

/-- What is rejected, and what gets into the tree, when the services themselves decide. -/
theorem loaded_of_noFailingPrefix (h : Unambiguous tokenIsUrlParam (urlTable infos))
    (hfail : NoFailingPrefix infos) (array : List ServiceInfo) (harray : ∀ i ∈ array, i ∈ infos)
    (ht : Represents tree es) (hes : ∀ e ∈ es, e ∈ urlTable infos ∧ e.2.passes = true) :
    rejectedByCheck tree array = array.filter (fun info => !info.passes) ∧
      serviceInfosLoaded tree array = array.filter ServiceInfo.passes := by
  induction array generalizing tree es with
  | nil => exact ⟨rfl, rfl⟩
  | cons info array ih =>
    have hinfo := harray info (by simp)
    have hrest : ∀ i ∈ array, i ∈ infos := fun i hi => harray i (List.mem_cons_of_mem _ hi)
    have hrefusal := refusal_eq_of_noFailingPrefix h hfail ht hes hinfo
    have hadded : (serviceInfoAdd tree info).1 = (refusal tree info).isNone := added_eq _ _ _
    rw [rejectedByCheck, serviceInfosLoaded]
    dsimp only
    cases hp : info.passes with
    | true =>
      rw [hrefusal, hp] at hadded
      have hnew : ∀ e ∈ es ++ [(info.template, info)], e ∈ urlTable infos ∧ e.2.passes = true := by
        intro e he
        rcases List.mem_append.mp he with he | he
        · exact hes e he
        · obtain rfl := List.mem_singleton.mp he
          exact ⟨mem_urlTable.mpr ⟨hinfo, rfl⟩, hp⟩
      obtain ⟨hrej, hload⟩ := ih hrest (ht.addInfo hadded) hnew
      rw [hrefusal, hadded, hrej, hload]
      simp [hp]
    | false =>
      rw [hrefusal, hp] at hadded
      have hsame : (serviceInfoAdd tree info).2 = tree := ht.refused hadded
      obtain ⟨hrej, hload⟩ := ih hrest ht hes
      rw [hrefusal, hadded, hsame, hrej, hload]
      simp [hp]

/-- A service that passes the check gets into the empty tree. -/
theorem added_first {other : ServiceInfo} (hb : bodyStringCheck other = true) :
    Represents (loadedTree [other]) [(other.template, other)] := by
  have hadded : (serviceInfoAdd treeInit other).1 = true := serviceInfoAddFrom_leaf hb _ _
  exact represents_treeInit.addInfo hadded

/-- Two different services of a list can be loaded first, in this order. -/
theorem exists_perm_pair {first second : ServiceInfo} (h₁ : first ∈ infos) (h₂ : second ∈ infos)
    (hne : second ≠ first) : ∃ rest, ([first] ++ second :: rest).Perm infos := by
  have hp₁ := List.perm_cons_erase h₁
  have hp₂ := List.perm_cons_erase ((List.mem_erase_of_ne hne).mpr h₂)
  exact ⟨_, (hp₂.cons first).symm.trans hp₁.symm⟩

theorem ne_of_bodyStringCheck {info other : ServiceInfo} (hb : bodyStringCheck info = false)
    (hgood : bodyStringCheck other = true) : info ≠ other := by
  rintro rfl
  rw [hb] at hgood
  cases hgood

/-- The rejected services are the same in each order exactly when no service that fails
the check has a path along the URL of one that passes it. -/
theorem rejected_order_iff (h : Unambiguous tokenIsUrlParam (urlTable infos)) :
    (∀ a b, a.Perm infos → b.Perm infos →
      (rejectedByCheck treeInit a).Perm (rejectedByCheck treeInit b)) ↔ NoFailingPrefix infos := by
  constructor
  · intro hperm info hinfo hb hne other hother hgood hpre
    have hio := ne_of_bodyStringCheck hb hgood
    -- the service is rejected where it is loaded first, but not after the other one
    obtain ⟨rest, hlast⟩ := exists_perm_pair hother hinfo hio
    obtain ⟨rest', hfirst⟩ := exists_perm_pair hinfo hother hio.symm
    have hrefused : refusal treeInit info = some .bodyString := by
      have heq := represents_treeInit.refusalFrom_eq info info.template
        fun e he => absurd he List.not_mem_nil
      have hpath : pathInTree info.template treeInit = false := by
        by_contra hin
        rw [Bool.not_eq_false, represents_treeInit.pathInTree_iff] at hin
        simp [hne] at hin
      rw [refusal, heq, hpath, hb]
      rfl
    have hmem : info ∈ rejectedByCheck treeInit ([info] ++ other :: rest') := by
      rw [List.singleton_append, rejectedByCheck, if_pos hrefused]
      exact List.mem_cons_self
    have hnot : info ∉ rejectedByCheck treeInit ([other] ++ info :: rest) := by
      rw [List.singleton_append, rejectedByCheck, if_neg]
      · exact not_rejected_of_path (added_first hgood) ⟨_, List.mem_singleton_self _, hpre⟩ _
      · have hadded : (serviceInfoAdd treeInit other).1 = true := serviceInfoAddFrom_leaf hgood _ _
        rw [serviceInfoAdd, added_eq, Option.isNone_iff_eq_none] at hadded
        rw [refusal, ServiceInfo.template, hadded]
        simp
    exact hnot ((hperm _ _ hfirst hlast).subset hmem)
  · intro hfail a b ha hb
    have hloaded := fun a (ha : ∀ i ∈ a, i ∈ infos) =>
      loaded_of_noFailingPrefix h hfail a ha represents_treeInit (by simp)
    rw [(hloaded a fun i hi => ha.subset hi).1, (hloaded b fun i hi => hb.subset hi).1]
    exact (ha.trans hb.symm).filter _

/-- **The check does not depend on the order of loading** exactly when each service that
fails it has a path of its own. -/
theorem bodyCheckIndependent_iff (h : Unambiguous tokenIsUrlParam (urlTable infos)) :
    BodyCheckIndependent infos ↔
      ∀ info ∈ infos, bodyStringCheck info = false → info.template ≠ [] ∧
        ∀ other ∈ infos, bodyStringCheck other = true → ¬ info.template <+: other.template := by
  constructor
  · intro hind info hinfo hb
    have hne : info.template ≠ [] := by
      intro hnil
      obtain ⟨pre, post, hsplit⟩ := List.append_of_mem hinfo
      have halike := hind.alike pre info post (by rw [hsplit]) (by rw [hnil]; rfl)
      have hrefused := halike.mpr hb
      rw [refusal, hnil] at hrefused
      cases hrefused
    exact ⟨hne, (rejected_order_iff h).mp hind.order info hinfo hb hne⟩
  · intro hcond
    have hfail : NoFailingPrefix infos := fun info hinfo hb _ => (hcond info hinfo hb).2
    refine ⟨(rejected_order_iff h).mpr hfail, fun pre info post hperm _ => ?_⟩
    have hpre := loaded_of_noFailingPrefix h hfail pre
      (fun i hi => hperm.subset (List.mem_append_left _ hi)) represents_treeInit (by simp)
    have hes : ∀ e ∈ urlTable (loadedInfos pre), e ∈ urlTable infos ∧ e.2.passes = true := by
      rintro ⟨ts, other⟩ hmem
      obtain ⟨hother, rfl⟩ := mem_urlTable.mp hmem
      rw [loadedInfos, hpre.2, List.mem_filter] at hother
      have hin := hperm.subset (List.mem_append_left (info :: post) hother.1)
      exact ⟨mem_urlTable.mpr ⟨hin, rfl⟩, hother.2⟩
    have hinfo : info ∈ infos := hperm.subset (by simp)
    rw [refusal_eq_of_noFailingPrefix h hfail (represents_loadedTree pre) hes hinfo,
      ServiceInfo.passes]
    cases hb : bodyStringCheck info with
    | true => simp
    | false => simp [(hcond info hinfo hb).1]

end

/-- An API without input, and one at the same URL that declares a body all the same. -/
def readState : ServiceInfo :=
  { serviceName := cstr "system"
    inputDesc := ⟨cstr "dummy", [], noFields_distinct⟩
    outputDesc := ⟨cstr "ant_result", [], noFields_distinct⟩
    urlString := cstr "/system/state"
    httpVerb := .get
    bodyString := [] }

def resetState : ServiceInfo := { readState with httpVerb := .put, bodyString := cstr "*" }

/-- At a URL of its own the service without input is refused in each order. -/
theorem bodyCheckIndependent_sample :
    BodyCheckIndependent [readState, { resetState with urlString := cstr "/system/reset" }] := by
  exact (bodyCheckIndependent_iff (unambiguous_of_literal (by decide))).mpr (by decide)

/-- Loaded after the API at its URL, the service gets into the tree. -/
theorem resetState_not_checked :
    Unambiguous tokenIsUrlParam (urlTable [readState, resetState]) ∧
      ¬ BodyCheckIndependent [readState, resetState] := by
  refine ⟨unambiguous_of_literal (by decide), fun hind => ?_⟩
  have halike := hind.alike [readState] resetState [] (List.Perm.refl _) (by decide)
  revert halike
  decide

end Cmsg.Proxy
