import Mathlib.Data.List.Induction
import Cmsg.Base.Routes
import Cmsg.Proxy.Tree

/-! # Routing

The tree represents the table of the URLs that were loaded: the walk of the
lookup goes along the route of the table. A segment binds a parameter except
where it is spelled like the parameter's own token, which the comparison of the
strings takes first. -/
namespace Cmsg.Proxy
open Cmsg.Base Cmsg.Base.Routes

abbrev UrlTable := Table CString ServiceInfo

/-- The URLs of the services, in the order in which they were loaded. -/
def urlTable (loaded : List ServiceInfo) : UrlTable :=
  loaded.map fun info => (strtok slash info.urlString, info)

theorem mem_urlTable {loaded : List ServiceInfo} {ts : List CString} {info : ServiceInfo} :
    (ts, info) ∈ urlTable loaded ↔ info ∈ loaded ∧ strtok slash info.urlString = ts := by
  rw [urlTable, List.mem_map]
  constructor
  · rintro ⟨other, hmem, he⟩
    cases he
    exact ⟨hmem, rfl⟩
  · rintro ⟨hmem, rfl⟩
    exact ⟨info, hmem, rfl⟩

/-! ## The services of one URL -/

theorem get_set (api : ApiInfo) (info : ServiceInfo) (verb : HttpVerb) :
    (api.set info).get verb = if info.httpVerb = verb then some info else api.get verb := by
  unfold ApiInfo.set ApiInfo.get
  cases hv : info.httpVerb <;> cases verb <;> simp

def apiInfoOf (infos : List ServiceInfo) : ApiInfo := infos.foldl ApiInfo.set {}

theorem apiInfoOf_snoc (infos : List ServiceInfo) (info : ServiceInfo) :
    apiInfoOf (infos ++ [info]) = (apiInfoOf infos).set info :=
  List.foldl_append

/-- The service loaded last decides. -/
theorem get_apiInfoOf (infos : List ServiceInfo) (verb : HttpVerb) :
    (apiInfoOf infos).get verb = infos.reverse.find? (·.httpVerb = verb) := by
  induction infos using List.reverseRecOn with
  | nil => cases verb <;> rfl
  | append_singleton infos info ih =>
    rw [apiInfoOf_snoc, get_set, List.reverse_append, ih]
    by_cases hv : info.httpVerb = verb
    · simp [hv]
    · simp [hv]

/-! ## What a node represents -/

/-- The leaf with the services of the URL that ends at the node. -/
def apiInfoPart (es : UrlTable) : List GNode :=
  match here es with
  | [] => []
  | info :: infos => [.node (.apiInfo (apiInfoOf (info :: infos))) []]

def pathNode (q : CString × List GNode) : GNode := .node (.token q.1) q.2

@[simp] theorem urlParam?_pathNode (q : CString × List GNode) :
    (pathNode q).urlParam? = if tokenIsUrlParam q.1 then some q.1 else none := rfl

/-- The node holds the rest of the table: its leaf for the URLs that end here, and
a child for each token that goes on, the tokens loaded first before the others. -/
inductive Represents : GNode → UrlTable → Prop
  | node {data : NodeData} {paths : List (CString × List GNode)} {es : UrlTable}
      (distinct : (paths.map Prod.fst).Nodup)
      (first : ∀ p, (paths.map Prod.fst).find? p = (heads es).find? p)
      (below : ∀ q ∈ paths, Represents (pathNode q) (afterHead q.1 es)) :
      Represents (.node data (apiInfoPart es ++ paths.map pathNode)) es

/-- The children of a node that represents the table. -/
structure Paths (es : UrlTable) (paths : List (CString × List GNode)) : Prop where
  distinct : (paths.map Prod.fst).Nodup
  first : ∀ p, (paths.map Prod.fst).find? p = (heads es).find? p
  below : ∀ q ∈ paths, Represents (pathNode q) (afterHead q.1 es)

section
variable {n : GNode} {es : UrlTable} {paths : List (CString × List GNode)}

theorem Represents.children_eq (h : Represents n es) :
    ∃ paths, n.children = apiInfoPart es ++ paths.map pathNode ∧ Paths es paths := by
  cases h with
  | @node data paths _ distinct first below => exact ⟨paths, rfl, distinct, first, below⟩

theorem Paths.represents (h : Paths es paths)
    (hn : n.children = apiInfoPart es ++ paths.map pathNode) : Represents n es := by
  cases n with
  | node data children =>
    rw [GNode.children] at hn
    subst hn
    exact .node h.distinct h.first h.below

theorem Paths.mem_iff (h : Paths es paths) {t : CString} :
    t ∈ paths.map Prod.fst ↔ t ∈ heads es := by
  have hiff : ∀ l : List CString, t ∈ l ↔ (l.find? (· == t)).isSome := by
    intro l
    rw [List.find?_isSome]
    constructor
    · exact fun hmem => ⟨t, hmem, by simp⟩
    · rintro ⟨t', hmem, ht⟩
      obtain rfl : t' = t := by simpa using ht
      exact hmem
  rw [hiff, hiff, h.first]

theorem represents_leaf (data : NodeData) : Represents (.node data []) [] :=
  @Paths.represents _ _ [] ⟨.nil, fun _ => rfl, fun q hq => absurd hq (by simp)⟩ rfl

theorem apiInfoPart_leaf (es : UrlTable) :
    ∀ c ∈ apiInfoPart es, c.isLeaf = true ∧ c.urlParam? = none := by
  intro c hc
  unfold apiInfoPart at hc
  split at hc
  · cases hc
  · obtain rfl := List.mem_singleton.mp hc
    exact ⟨rfl, rfl⟩

theorem apiInfoPart_ne_nil {info : ServiceInfo} (h : info ∈ here es) : apiInfoPart es ≠ [] := by
  unfold apiInfoPart
  split
  · next hnil =>
    rw [hnil] at h
    cases h
  · simp

/-- Only the node of an empty table is a leaf. -/
theorem Represents.not_isLeaf (h : Represents n es) (hne : es ≠ []) : n.isLeaf = false := by
  obtain ⟨paths, hch, hp⟩ := h.children_eq
  obtain ⟨⟨ts, info⟩, hmem⟩ := List.exists_mem_of_ne_nil es hne
  have : n.children ≠ [] := by
    intro hnil
    rw [hch, List.append_eq_nil_iff] at hnil
    cases ts with
    | nil => exact apiInfoPart_ne_nil (mem_here.mpr hmem) hnil.1
    | cons t ts =>
      have ht := hp.mem_iff.mpr (mem_heads.mpr ⟨ts, info, hmem⟩)
      rw [List.map_eq_nil_iff.mp hnil.2] at ht
      cases ht
  simpa [GNode.isLeaf] using this

theorem Paths.not_isLeaf (h : Paths es paths) {q : CString × List GNode} (hq : q ∈ paths) :
    (pathNode q).isLeaf = false := by
  refine (h.below q hq).not_isLeaf ?_
  obtain ⟨ts, info, hmem⟩ := mem_heads.mp (h.mem_iff.mp (List.mem_map_of_mem hq))
  exact List.ne_nil_of_mem (mem_afterHead.mpr hmem)

/-- The search of the children for a token. -/
theorem Paths.splitFirst (h : Paths es paths) (token : CString) :
    ((apiInfoPart es ++ paths.map pathNode).splitFirst fun n => !n.isLeaf && n.named token) =
      (paths.splitFirst (·.1 == token)).map fun r =>
        (apiInfoPart es ++ r.1.map pathNode, pathNode r.2.1, r.2.2.map pathNode) := by
  have hleaf : ∀ c ∈ apiInfoPart es, (!c.isLeaf && c.named token) = false := by
    intro c hc
    simp [(apiInfoPart_leaf es c hc).1]
  have hpath : ∀ q ∈ paths, (!(pathNode q).isLeaf && (pathNode q).named token) = (q.1 == token) := by
    intro q hq
    rw [h.not_isLeaf hq]
    rfl
  rw [List.splitFirst_append_of_forall _ hleaf, List.splitFirst_map, List.splitFirst_congr hpath,
    Option.map_map]
  rfl

/-- The first child that is no leaf is the node of the token loaded first. -/
theorem Paths.conflicts (h : Paths es paths) (hn : n.children = apiInfoPart es ++ paths.map pathNode)
    (token : CString) :
    serviceInfoConflicts n token =
      paths.head?.any fun q => tokenIsUrlParam token || tokenIsUrlParam q.1 := by
  have hleaf : (apiInfoPart es).find? (fun c => !c.isLeaf) = none := by
    rw [List.find?_eq_none]
    intro c hc
    simp [(apiInfoPart_leaf es c hc).1]
  rw [serviceInfoConflicts, hn, List.find?_append, hleaf, Option.none_or]
  cases paths with
  | nil => rfl
  | cons q qs =>
    rw [List.map_cons, List.find?_cons_of_pos (by simp [h.not_isLeaf])]
    have hq : (pathNode q).urlParam?.isSome = tokenIsUrlParam q.1 := by
      rw [urlParam?_pathNode]
      split <;> simp_all
    show (tokenIsUrlParam token || (pathNode q).urlParam?.isSome) = _
    rw [hq]
    rfl

end

/-! ## Adding a URL -/

section
variable {n : GNode} {es : UrlTable} {paths : List (CString × List GNode)} {info : ServiceInfo}

theorem apiInfoPart_snoc (es : UrlTable) (info : ServiceInfo) :
    apiInfoPart (es ++ [([], info)]) = [.node (.apiInfo (apiInfoOf (here es ++ [info]))) []] := by
  have hhere : here (es ++ [([], info)]) = here es ++ [info] := by
    rw [here_append]
    rfl
  unfold apiInfoPart
  rw [hhere]
  cases here es <;> rfl

theorem apiInfoPart_snoc_cons (es : UrlTable) (t : CString) (ts : List CString) (info : ServiceInfo) :
    apiInfoPart (es ++ [(t :: ts, info)]) = apiInfoPart es := by
  have hhere : here (es ++ [(t :: ts, info)]) = here es := by
    rw [here_append]
    exact List.append_nil _
  unfold apiInfoPart
  rw [hhere]

theorem children_apiInfoNodeNew (hp : Paths es paths)
    (hn : n.children = apiInfoPart es ++ paths.map pathNode) :
    (apiInfoNodeNew n info).children =
      apiInfoPart (es ++ [([], info)]) ++ paths.map pathNode := by
  rw [apiInfoPart_snoc, apiInfoOf_snoc]
  unfold apiInfoNodeNew
  cases hhere : here es with
  | nil =>
    have hpart : apiInfoPart es = [] := by rw [apiInfoPart, hhere]
    rw [hn, hpart]
    cases paths with
    | nil => simp [apiInfoOf]
    | cons q qs => simp [hp.not_isLeaf, apiInfoOf]
  | cons first infos =>
    have hpart : apiInfoPart es = [.node (.apiInfo (apiInfoOf (first :: infos))) []] := by
      rw [apiInfoPart, hhere]
    rw [hn, hpart]
    exact GNode.children_withChildren _ _

/-- A URL that ends at the node. -/
theorem Represents.endHere (h : Represents n es) (info : ServiceInfo) :
    Represents (apiInfoNodeNew n info) (es ++ [([], info)]) := by
  obtain ⟨paths, hn, hp⟩ := h.children_eq
  refine @Paths.represents _ _ paths ⟨hp.distinct, ?_, ?_⟩ (children_apiInfoNodeNew hp hn)
  · intro p
    rw [hp.first, heads_append]
    simp [heads]
  · intro q hq
    rw [afterHead_append]
    simpa [afterHead] using hp.below q hq

theorem afterHead_snoc (es : UrlTable) (t : CString) (ts : List CString) (info : ServiceInfo) :
    afterHead t (es ++ [(t :: ts, info)]) = afterHead t es ++ [(ts, info)] := by
  rw [afterHead_append]
  simp [afterHead]

theorem afterHead_snoc_ne (es : UrlTable) {t t' : CString} (ht : t ≠ t') (ts : List CString)
    (info : ServiceInfo) : afterHead t (es ++ [(t' :: ts, info)]) = afterHead t es := by
  rw [afterHead_append]
  simp [afterHead, Ne.symm ht]

/-- A URL that goes on along a token that is there. -/
theorem Paths.update {before after : List (CString × List GNode)} {q : CString × List GNode}
    (h : Paths es (before ++ q :: after)) {ts : List CString} {cs : List GNode}
    (hnew : Represents (pathNode (q.1, cs)) (afterHead q.1 es ++ [(ts, info)])) :
    Paths (es ++ [(q.1 :: ts, info)]) (before ++ (q.1, cs) :: after) := by
  have hfst : (before ++ (q.1, cs) :: after).map Prod.fst = (before ++ q :: after).map Prod.fst := by
    simp
  have hold : q.1 ∈ heads es := h.mem_iff.mp (by simp)
  refine ⟨hfst ▸ h.distinct, ?_, ?_⟩
  · intro p
    rw [hfst, h.first, heads_append, List.find?_append]
    cases hfind : (heads es).find? p with
    | some t => rfl
    | none =>
      have hq : ¬ p q.1 = true := List.find?_eq_none.mp hfind q.1 hold
      simp [heads, hq]
  · intro r hr
    have hne : ∀ r ∈ before ++ after, r.1 ≠ q.1 := by
      have hd := h.distinct
      rw [List.map_append, List.map_cons, List.nodup_middle, List.nodup_cons, ← List.map_append] at hd
      intro r hr he
      exact hd.1 (he ▸ List.mem_map_of_mem hr)
    rcases List.mem_append.mp hr with hr | hr
    · rw [afterHead_snoc_ne es (hne r (List.mem_append_left _ hr))]
      exact h.below r (List.mem_append_left _ hr)
    · rcases List.mem_cons.mp hr with rfl | hr
      · rw [afterHead_snoc]
        exact hnew
      · rw [afterHead_snoc_ne es (hne r (List.mem_append_right _ hr))]
        exact h.below r (by simp [hr])

/-- A URL that goes on along a new token. -/
theorem Paths.insert (h : Paths es paths) {t : CString} (ht : t ∉ heads es) {ts : List CString}
    {cs : List GNode} (hnew : Represents (pathNode (t, cs)) [(ts, info)]) :
    Paths (es ++ [(t :: ts, info)]) (paths ++ [(t, cs)]) := by
  refine ⟨?_, ?_, ?_⟩
  · rw [List.map_append, List.nodup_append]
    refine ⟨h.distinct, by simp, ?_⟩
    intro t₁ h₁ t₂ h₂ he
    obtain rfl : t₂ = t := by simpa using h₂
    exact ht (h.mem_iff.mp (he ▸ h₁))
  · intro p
    rw [List.map_append, List.find?_append, h.first, heads_append, List.find?_append]
    rfl
  · intro q hq
    rcases List.mem_append.mp hq with hq | hq
    · have hmem : q.1 ∈ heads es := h.mem_iff.mp (List.mem_map_of_mem hq)
      have hne : q.1 ≠ t := by
        rintro rfl
        exact ht hmem
      rw [afterHead_snoc_ne es hne]
      exact h.below q hq
    · obtain rfl := List.mem_singleton.mp hq
      rw [afterHead_snoc, afterHead_eq_nil ht]
      exact hnew

/-- The first step of the walk: the child of the token is there, or it is not. -/
theorem Represents.step (h : Represents n es) (token : CString) :
    (∃ before q after, q.1 = token ∧ Paths es (before ++ q :: after) ∧
      n.children = apiInfoPart es ++ (before ++ q :: after).map pathNode ∧
      (n.children.splitFirst fun c => !c.isLeaf && c.named token) =
        some (apiInfoPart es ++ before.map pathNode, pathNode q, after.map pathNode)) ∨
    (∃ paths, token ∉ heads es ∧ Paths es paths ∧
      n.children = apiInfoPart es ++ paths.map pathNode ∧
      (n.children.splitFirst fun c => !c.isLeaf && c.named token) = none) := by
  obtain ⟨paths, hn, hp⟩ := h.children_eq
  have hsplit := hp.splitFirst token
  rw [← hn] at hsplit
  cases hfind : paths.splitFirst (·.1 == token) with
  | none =>
    refine Or.inr ⟨paths, ?_, hp, hn, by rw [hsplit, hfind]; rfl⟩
    intro htoken
    obtain ⟨q, hq, rfl⟩ := List.mem_map.mp (hp.mem_iff.mpr htoken)
    have := List.splitFirst_eq_none hfind q hq
    simp at this
  | some r =>
    obtain ⟨before, q, after⟩ := r
    obtain ⟨rfl, hq⟩ := List.splitFirst_eq_some hfind
    refine Or.inl ⟨before, q, after, by simpa using hq, hp, hn, ?_⟩
    rw [hsplit, hfind]
    rfl

theorem data_apiInfoNodeNew (n : GNode) (info : ServiceInfo) :
    (apiInfoNodeNew n info).data = n.data := by
  unfold apiInfoNodeNew
  split
  · split
    · split <;> simp
    · simp
  · simp

theorem data_serviceInfoAddFrom (info : ServiceInfo) (ts : List CString) (n : GNode) :
    (serviceInfoAddFrom info ts n).2.data = n.data := by
  cases ts with
  | nil => exact data_apiInfoNodeNew n info
  | cons t ts =>
    rw [serviceInfoAddFrom]
    split
    · simp
    · split
      · rfl
      · split
        · rfl
        · simp

/-- The walk keeps the token of the node that it starts at. -/
theorem exists_pathNode (info : ServiceInfo) (ts : List CString) (q : CString × List GNode) :
    ∃ cs, (serviceInfoAddFrom info ts (pathNode q)).2 = pathNode (q.1, cs) := by
  have hdata := data_serviceInfoAddFrom info ts (pathNode q)
  cases hn : (serviceInfoAddFrom info ts (pathNode q)).2 with
  | node data cs =>
    rw [hn, GNode.data] at hdata
    subst hdata
    exact ⟨cs, rfl⟩

/-- **A URL that is added is added to the table.** -/
theorem Represents.add {ts : List CString} (h : Represents n es)
    (hok : (serviceInfoAddFrom info ts n).1 = true) :
    Represents (serviceInfoAddFrom info ts n).2 (es ++ [(ts, info)]) := by
  induction ts generalizing n es with
  | nil => exact h.endHere info
  | cons t ts ih =>
    rcases h.step t with ⟨before, q, after, rfl, hp, hn, hsplit⟩ | ⟨paths, ht, hp, hn, hsplit⟩
    · rw [serviceInfoAddFrom, hsplit] at hok ⊢
      have hnew := ih (hp.below q (by simp)) hok
      obtain ⟨cs, hcs⟩ := exists_pathNode info ts q
      rw [hcs] at hnew
      refine Paths.represents (hp.update hnew) ?_
      rw [GNode.children_withChildren, apiInfoPart_snoc_cons, hcs]
      simp
    · rw [serviceInfoAddFrom, hsplit] at hok ⊢
      simp only at hok ⊢
      split
      · next hc => rw [if_pos hc] at hok; cases hok
      · next hc =>
        rw [if_neg hc] at hok
        split
        · next hb => rw [if_pos hb] at hok; cases hok
        · next hb =>
          rw [if_neg hb] at hok
          have hnew := ih (represents_leaf (.token t)) hok
          obtain ⟨cs, hcs⟩ := exists_pathNode info ts (t, [])
          rw [pathNode] at hcs
          rw [hcs] at hnew
          refine Paths.represents (hp.insert ht hnew) ?_
          rw [GNode.children_withChildren, apiInfoPart_snoc_cons, hn, hcs]
          simp

/-- Below a new node nothing is refused any more. -/
theorem serviceInfoAddFrom_leaf (hb : bodyStringCheck info = true) (ts : List CString) :
    ∀ data, (serviceInfoAddFrom info ts (.node data [])).1 = true := by
  induction ts with
  | nil => exact fun _ => rfl
  | cons t ts ih =>
    intro data
    rw [serviceInfoAddFrom]
    simp [GNode.children, List.splitFirst, serviceInfoConflicts, hb, ih]

/-- A URL that is refused leaves the tree as it is. -/
theorem Represents.refused {ts : List CString} (h : Represents n es)
    (hok : (serviceInfoAddFrom info ts n).1 = false) : (serviceInfoAddFrom info ts n).2 = n := by
  induction ts generalizing n es with
  | nil => cases hok
  | cons t ts ih =>
    rcases h.step t with ⟨before, q, after, rfl, hp, hn, hsplit⟩ | ⟨paths, ht, hp, hn, hsplit⟩
    · rw [serviceInfoAddFrom, hsplit] at hok ⊢
      simp only at hok ⊢
      rw [ih (hp.below q (by simp)) hok]
      cases n with
      | node data children =>
        rw [GNode.children] at hn
        simp [GNode.withChildren, hn]
    · rw [serviceInfoAddFrom, hsplit] at hok ⊢
      simp only at hok ⊢
      split
      · rfl
      · next hc =>
        rw [if_neg hc] at hok
        split
        · rfl
        · next hb =>
          rw [if_neg hb] at hok
          rw [serviceInfoAddFrom_leaf (by simpa using hb)] at hok
          cases hok

/-- A URL that is added, and is no allowed conflict, clashes with none that is there. -/
theorem Represents.not_clashes {ts : List CString} (h : Represents n es)
    (hun : Unambiguous tokenIsUrlParam es) (hurl : allowedConflicts info.urlString = false)
    (hok : (serviceInfoAddFrom info ts n).1 = true) :
    ∀ e ∈ es, ¬ Clashes tokenIsUrlParam ts e.1 := by
  induction ts generalizing n es with
  | nil =>
    intro e _ hclash
    exact hclash
  | cons t ts ih =>
    rintro ⟨us, other⟩ hmem hclash
    cases us with
    | nil => exact hclash
    | cons u us =>
      have hu : u ∈ heads es := mem_heads.mpr ⟨us, other, hmem⟩
      rcases h.step t with ⟨before, q, after, rfl, hp, hn, hsplit⟩ | ⟨paths, ht, hp, hn, hsplit⟩
      · rw [serviceInfoAddFrom, hsplit] at hok
        by_cases he : q.1 = u
        · subst he
          exact ih (hp.below q (by simp)) (hun.afterHead q.1) hok _ (mem_afterHead.mpr hmem)
            (clashes_cons_self.mp hclash)
        · have hq : q.1 ∈ heads es := hp.mem_iff.mp (by simp)
          exact he (hun.head_eq hq hu ((clashes_cons_ne he).mp hclash))
      · have hne : t ≠ u := by
          rintro rfl
          exact ht hu
        have hnone : serviceInfoConflicts n t = false := by
          by_contra hc
          rw [serviceInfoAddFrom, hsplit] at hok
          simp [hurl, hc] at hok
        rw [hp.conflicts hn] at hnone
        cases paths with
        | nil => exact absurd (hp.mem_iff.mpr hu) (by simp)
        | cons q qs =>
          simp only [List.head?_cons, Option.any_some, Bool.or_eq_false_iff] at hnone
          have hq : q.1 ∈ heads es := hp.mem_iff.mp (by simp)
          rcases (clashes_cons_ne hne).mp hclash with hw | hw
          · rw [hnone.1] at hw
            cases hw
          · have := hun.head_eq hu hq (Or.inl hw)
            rw [this, hnone.2] at hw
            cases hw

end

/-! ## Loading services -/

section
variable {tree : GNode} {es : UrlTable}

theorem Represents.addInfo {info : ServiceInfo} (h : Represents tree es)
    (hok : (serviceInfoAdd tree info).1 = true) :
    Represents (serviceInfoAdd tree info).2 (es ++ [(strtok slash info.urlString, info)]) :=
  h.add hok

/-- **The tree represents the table of the services that were loaded.** -/
theorem Represents.init (h : Represents tree es) (array : List ServiceInfo) :
    Represents (serviceInfoInit tree array) (es ++ urlTable (serviceInfosLoaded tree array)) := by
  induction array generalizing tree es with
  | nil => simpa [serviceInfoInit, serviceInfosLoaded, urlTable] using h
  | cons info array ih =>
    rw [serviceInfoInit, List.foldl_cons, serviceInfosLoaded]
    cases hok : (serviceInfoAdd tree info).1 with
    | true => simpa [urlTable, hok, serviceInfoInit] using ih (h.addInfo hok)
    | false =>
      have hsame : (serviceInfoAdd tree info).2 = tree := h.refused hok
      simpa [hok, hsame, serviceInfoInit] using ih h

theorem Represents.unambiguous (h : Represents tree es) (hun : Unambiguous tokenIsUrlParam es)
    (array : List ServiceInfo)
    (hurl : ∀ info ∈ serviceInfosLoaded tree array, allowedConflicts info.urlString = false) :
    Unambiguous tokenIsUrlParam (es ++ urlTable (serviceInfosLoaded tree array)) := by
  induction array generalizing tree es with
  | nil => simpa [serviceInfosLoaded, urlTable] using hun
  | cons info array ih =>
    rw [serviceInfosLoaded] at hurl ⊢
    cases hok : (serviceInfoAdd tree info).1 with
    | true =>
      simp only [hok, if_true] at hurl ⊢
      have hnew := h.not_clashes hun (hurl info (by simp)) hok
      have := ih (h.addInfo hok) (hun.snoc hnew) fun i hi => hurl i (by simp [hi])
      simpa [urlTable] using this
    | false =>
      simp only [hok] at hurl ⊢
      have hsame : (serviceInfoAdd tree info).2 = tree := h.refused hok
      rw [hsame] at hurl ⊢
      exact ih h hun hurl

end

/-! ## Looking up a path -/

section
variable {n : GNode} {es : UrlTable} {paths : List (CString × List GNode)}
variable (uriUnescape : CString → Option CString)

/-- The child that a segment leads to, and whether it binds a parameter there. -/
theorem Paths.lookup (h : Paths es paths) (segment : CString) :
    lookupSegment segment (apiInfoPart es ++ paths.map pathNode) =
      (paths.find? fun q => takes tokenIsUrlParam q.1 segment).map fun q =>
        (pathNode q, if q.1 = segment then none else some q.1) := by
  have hleaf : ∀ cs, lookupSegment segment (apiInfoPart es ++ cs) =
      lookupSegment segment cs := by
    intro cs
    unfold apiInfoPart
    split <;> rfl
  rw [hleaf]
  have hnl : ∀ q ∈ paths, (pathNode q).isLeaf = false := fun q hq => h.not_isLeaf hq
  clear hleaf h
  induction paths with
  | nil => rfl
  | cons q qs ih =>
    have ih' := ih fun r hr => hnl r (List.mem_cons_of_mem _ hr)
    have hq := hnl q (by simp)
    rw [List.map_cons, lookupSegment, hq, List.find?_cons]
    by_cases heq : q.1 = segment
    · simp [GNode.named, pathNode, GNode.data, heq, takes]
    · by_cases hw : tokenIsUrlParam q.1 = true
      · simp [GNode.named, pathNode, GNode.data, GNode.urlParam?, heq, hw, takes]
      · simp [GNode.named, pathNode, GNode.data, GNode.urlParam?, heq, hw, takes]
        simpa [takes, pathNode] using ih'

/-- The parameters that a path binds along the tokens it takes. -/
def boundParameters (ts ss : List CString) : List UrlParameter :=
  ((ts.zip ss).filter fun p => p.1 != p.2).map fun p => createUrlParameter uriUnescape p.1 p.2

/-- **The lookup goes along the route of the table.** -/
theorem Represents.lookup (h : Represents n es) (ss : List CString)
    (params : List UrlParameter) :
    match route tokenIsUrlParam es ss with
    | none => (lookupSegments uriUnescape ss n params).1 = none
    | some ts => ∃ n', Represents n' (after ts es) ∧
        lookupSegments uriUnescape ss n params =
          (some n', (boundParameters uriUnescape ts ss).reverse ++ params) := by
  induction ss generalizing n es params with
  | nil => exact ⟨n, h, rfl⟩
  | cons s ss ih =>
    obtain ⟨paths, hn, hp⟩ := h.children_eq
    have hlookup := hp.lookup s
    have hfirst := hp.first (takes tokenIsUrlParam · s)
    rw [List.find?_map] at hfirst
    rw [route, lookupSegments, hn, hlookup, ← hfirst]
    cases hfind : paths.find? fun q => takes tokenIsUrlParam q.1 s with
    | none =>
      have : paths.find? ((takes tokenIsUrlParam · s) ∘ Prod.fst) = none := hfind
      rw [this]
      rfl
    | some q =>
      have : paths.find? ((takes tokenIsUrlParam · s) ∘ Prod.fst) = some q := hfind
      rw [this]
      have hbelow := hp.below q (List.mem_of_find?_eq_some hfind)
      by_cases heq : q.1 = s
      · have hrec := ih hbelow params
        simp only [Option.map_some, heq, if_true]
        rw [heq] at hrec
        cases hroute : route tokenIsUrlParam (afterHead s es) ss with
        | none =>
          rw [hroute] at hrec
          exact hrec
        | some ts =>
          rw [hroute] at hrec
          obtain ⟨n', hn', hl⟩ := hrec
          exact ⟨n', hn', by simp [hl, boundParameters]⟩
      · have hrec := ih hbelow (createUrlParameter uriUnescape q.1 s :: params)
        simp only [Option.map_some, heq, if_false]
        cases hroute : route tokenIsUrlParam (afterHead q.1 es) ss with
        | none =>
          rw [hroute] at hrec
          exact hrec
        | some ts =>
          rw [hroute] at hrec
          obtain ⟨n', hn', hl⟩ := hrec
          exact ⟨n', hn', by simp [hl, boundParameters, heq]⟩

theorem Represents.apiInfo (h : Represents n es) (verb : HttpVerb) (params : List UrlParameter) :
    (match n.children with
      | .node (.apiInfo api) [] :: _ => (api.get verb, params)
      | _ => (none, params)) = ((here es).reverse.find? (·.httpVerb = verb), params) := by
  obtain ⟨paths, hn, hp⟩ := h.children_eq
  rw [hn, apiInfoPart]
  cases hhere : here es with
  | nil =>
    cases paths with
    | nil => rfl
    | cons q qs => rfl
  | cons info infos => rw [← get_apiInfoOf]; rfl

end

end Cmsg.Proxy
