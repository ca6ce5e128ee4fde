import Cmsg.Proxy.Lookup

/-! # The shape of the tree

The search for a conflict looks at the first token below a node only. That is enough
because of what the tree looks like: the tokens below a node are literals that differ,
or one parameter. -/
namespace Cmsg.Proxy
open Cmsg.Base Cmsg.Base.Routes

/-- The nodes of a tree. -/
inductive Within (tree : GNode) : GNode → Prop
  | root : Within tree tree
  | child {n c : GNode} (hn : Within tree n) (hc : c ∈ n.children) : Within tree c

def GNode.token? (n : GNode) : Option CString :=
  match n.data with
  | .token t => some t
  | .apiInfo _ => none

def GNode.isApiInfo (n : GNode) : Bool := n.token?.isNone

/-- The tokens of the path nodes below a node. -/
def GNode.tokens (n : GNode) : List CString := n.children.filterMap GNode.token?

/-- What the search for conflicts relies on. -/
structure TreeShape (tree : GNode) : Prop where
  leaves : tree.isLeaf = false → ∀ n, Within tree n → n.isLeaf = true → n.isApiInfo = true
  apiInfoFirst : ∀ n, Within tree n → ∀ (i : Nat) (c : GNode), n.children[i]? = some c →
    c.isApiInfo = true → i = 0
  distinct : ∀ n, Within tree n → n.tokens.Nodup
  alike : ∀ n, Within tree n → (∀ t ∈ n.tokens, tokenIsUrlParam t = false) ∨
    ∃ t, n.tokens = [t] ∧ tokenIsUrlParam t = true

section
variable {tree n : GNode} {es : UrlTable} {paths : List (CString × List GNode)}

theorem apiInfoPart_isApiInfo {c : GNode} (hc : c ∈ apiInfoPart es) :
    (∃ api, c = .node (.apiInfo api) []) ∧ c.token? = none := by
  unfold apiInfoPart at hc
  split at hc
  · cases hc
  · obtain rfl := List.mem_singleton.mp hc
    exact ⟨⟨_, rfl⟩, rfl⟩

theorem length_apiInfoPart_le (es : UrlTable) : (apiInfoPart es).length ≤ 1 := by
  unfold apiInfoPart
  split
  · exact Nat.zero_le 1
  · exact Nat.le_refl 1

/-- A node is the leaf of a URL, or it represents the URLs that go through it. -/
theorem within_cases (h : Represents tree es) (hun : Unambiguous tokenIsUrlParam es)
    (hw : Within tree n) : (∃ api, n = .node (.apiInfo api) []) ∨
      ∃ es', Represents n es' ∧ Unambiguous tokenIsUrlParam es' ∧
        (n = tree ∨ n.isLeaf = false) := by
  induction hw with
  | root => exact .inr ⟨es, h, hun, .inl rfl⟩
  | @child n c _ hc ih =>
    rcases ih with ⟨api, rfl⟩ | ⟨es', hn, hun', _⟩
    · cases hc
    · obtain ⟨paths, hch, hp⟩ := hn.children_eq
      rw [hch] at hc
      rcases List.mem_append.mp hc with hc | hc
      · exact .inl (apiInfoPart_isApiInfo hc).1
      · obtain ⟨q, hq, rfl⟩ := List.mem_map.mp hc
        exact .inr ⟨_, hp.below q hq, hun'.afterHead q.1, .inr (hp.not_isLeaf hq)⟩

theorem Paths.tokens_eq (hn : n.children = apiInfoPart es ++ paths.map pathNode) :
    n.tokens = paths.map Prod.fst := by
  have hleaf : (apiInfoPart es).filterMap GNode.token? = [] := by
    rw [List.filterMap_eq_nil_iff]
    exact fun c hc => (apiInfoPart_isApiInfo hc).2
  have hpaths : (paths.map pathNode).filterMap GNode.token? = paths.map Prod.fst := by
    have hsome : GNode.token? ∘ pathNode = fun q => some q.1 := rfl
    rw [List.filterMap_map, hsome, List.filterMap_eq_map']
  rw [GNode.tokens, hn, List.filterMap_append, hleaf, hpaths, List.nil_append]

theorem Represents.apiInfo_first (h : Represents n es) {i : Nat} {c : GNode}
    (hi : n.children[i]? = some c) (hc : c.isApiInfo = true) : i = 0 := by
  obtain ⟨paths, hch, _⟩ := h.children_eq
  rw [hch] at hi
  by_cases hlt : i < (apiInfoPart es).length
  · have hle := length_apiInfoPart_le es
    omega
  · rw [List.getElem?_append_right (Nat.le_of_not_lt hlt)] at hi
    obtain ⟨q, _, rfl⟩ := List.mem_map.mp (List.mem_of_getElem? hi)
    cases hc

/-- A parameter among the tokens is the only token. -/
theorem Represents.tokens_alike (h : Represents n es) (hun : Unambiguous tokenIsUrlParam es) :
    n.tokens.Nodup ∧ ((∀ t ∈ n.tokens, tokenIsUrlParam t = false) ∨
      ∃ t, n.tokens = [t] ∧ tokenIsUrlParam t = true) := by
  obtain ⟨paths, hch, hp⟩ := h.children_eq
  have htokens := Paths.tokens_eq hch
  rw [htokens]
  refine ⟨hp.distinct, ?_⟩
  by_cases hparam : ∃ t ∈ paths.map Prod.fst, tokenIsUrlParam t = true
  · obtain ⟨t, ht, hw⟩ := hparam
    refine .inr ⟨t, hp.distinct.eq_singleton ht fun u hu => ?_, hw⟩
    exact hun.head_eq (hp.mem_iff.mp hu) (hp.mem_iff.mp ht) (.inr hw)
  · refine .inl fun t ht => ?_
    by_contra hw
    exact hparam ⟨t, ht, by simpa using hw⟩

theorem Represents.treeShape (h : Represents tree es) (hun : Unambiguous tokenIsUrlParam es) :
    TreeShape tree where
  leaves htree n hw hleaf := by
    rcases within_cases h hun hw with ⟨api, rfl⟩ | ⟨es', _, _, rfl | hnot⟩
    · rfl
    · rw [htree] at hleaf
      cases hleaf
    · rw [hnot] at hleaf
      cases hleaf
  apiInfoFirst n hw i c hi hc := by
    rcases within_cases h hun hw with ⟨api, rfl⟩ | ⟨es', hn, _⟩
    · cases hi
    · exact hn.apiInfo_first hi hc
  distinct n hw := by
    rcases within_cases h hun hw with ⟨api, rfl⟩ | ⟨es', hn, hun', _⟩
    · exact List.nodup_nil
    · exact (hn.tokens_alike hun').1
  alike n hw := by
    rcases within_cases h hun hw with ⟨api, rfl⟩ | ⟨es', hn, hun', _⟩
    · exact .inl fun t ht => by cases ht
    · exact (hn.tokens_alike hun').2

end

theorem serviceInfosLoaded_subset (tree : GNode) (array : List ServiceInfo) :
    ∀ info ∈ serviceInfosLoaded tree array, info ∈ array := by
  induction array generalizing tree with
  | nil => exact fun _ h => h
  | cons first array ih =>
    intro info hmem
    rw [serviceInfosLoaded] at hmem
    dsimp only at hmem
    split at hmem
    · rcases List.mem_cons.mp hmem with rfl | hmem
      · exact List.mem_cons_self
      · exact List.mem_cons_of_mem _ (ih _ info hmem)
    · exact List.mem_cons_of_mem _ (ih _ info hmem)

/-- **The tree keeps its shape**, whatever is loaded in whatever order, and a service
that is refused leaves it as it was. -/
theorem tree_shape (array : List ServiceInfo)
    (hurl : ∀ info ∈ array, allowedConflicts info.urlString = false) :
    TreeShape (loadedTree array) ∧ ∀ info, (serviceInfoAdd (loadedTree array) info).1 = false →
      (serviceInfoAdd (loadedTree array) info).2 = loadedTree array := by
  have hrepr := represents_loadedTree array
  refine ⟨hrepr.treeShape ?_, fun info hok => hrepr.refused hok⟩
  have hnil : Unambiguous tokenIsUrlParam ([] : UrlTable) := fun e he => absurd he (by simp)
  exact represents_treeInit.unambiguous hnil array fun info hinfo =>
    hurl info (serviceInfosLoaded_subset treeInit array info hinfo)

/-- A literal is refused beside the parameter of another URL. -/
theorem tree_shape_refused :
    TreeShape (loadedTree [literalBraces]) ∧
      (serviceInfoAdd (loadedTree [literalBraces])
        { literalBraces with urlString := cstr "/a/b" }).2 = loadedTree [literalBraces] := by
  have h := tree_shape [literalBraces] (by decide)
  exact ⟨h.1, h.2 { literalBraces with urlString := cstr "/a/b" } (by decide)⟩

end Cmsg.Proxy
