import Cmsg.Proxy.LoadOrder
import Cmsg.Proxy.Output
import Cmsg.Proxy.TreeShape

/-! # The index of the URLs

The index is made by a traversal of the leaves of the tree, each of which is taken for the
information about an API. -/
namespace Cmsg.Proxy
open Cmsg.Base Cmsg.Base.Routes

/-! ## The traversal -/

mutual

/-- `g_node_traverse` in order over the leaves, which ends when the callback returns `true`. -/
def traverseLeaves {σ : Type} (callback : GNode → σ → Bool × σ) : GNode → σ → Bool × σ
  | .node data [], s => callback (.node data []) s
  | .node _ (c :: cs), s => traverseLeavesOf callback (c :: cs) s

def traverseLeavesOf {σ : Type} (callback : GNode → σ → Bool × σ) : List GNode → σ → Bool × σ
  | [], s => (false, s)
  | c :: cs, s =>
    match traverseLeaves callback c s with
    | (true, s) => (true, s)
    | (false, s) => traverseLeavesOf callback cs s

end

/-- `cmsg_proxy_tree_foreach_leaf`. -/
def treeForeachLeaf {σ : Type} (proxyEntriesTree : Option GNode) (callback : GNode → σ → Bool × σ)
    (data : σ) : Bool × σ :=
  match proxyEntriesTree with
  | none => (false, data)
  | some root => (true, (traverseLeaves callback root data).2)

/-! ## The index -/

def HttpVerb.name : HttpVerb → CString
  | .get => cstr "GET"
  | .put => cstr "PUT"
  | .post => cstr "POST"
  | .delete => cstr "DELETE"
  | .patch => cstr "PATCH"

structure IndexElement where
  path : CString
  methods : List HttpVerb
  deriving DecidableEq

def IndexElement.json (e : IndexElement) : Json :=
  .object [(cstr "path", .string e.path),
    (cstr "methods", .array (e.methods.map fun verb => .string verb.name))]

/-- The verbs in the order in which the index lists them. -/
def indexVerbs : List HttpVerb := [.delete, .get, .patch, .post, .put]

/-- One verb of `cmsg_proxy_index_add_element`: the URL, and the verbs so far. -/
def indexVerb (api : ApiInfo) (r : Option CString × List HttpVerb) (verb : HttpVerb) :
    Option CString × List HttpVerb :=
  match api.get verb with
  | some info => (some info.urlString, r.2 ++ [verb])
  | none => r

def indexElement (filter : Option CString) (api : ApiInfo) : Option IndexElement :=
  match indexVerbs.foldl (indexVerb api) (none, []) with
  | (none, _) => none
  | (some urlString, methods) =>
    if filter.any fun pattern => !strstr urlString pattern then none
    else some ⟨urlString, methods⟩

/-- `cmsg_proxy_index_add_element`; no array once a token was taken for the information about
an API. -/
def indexAddElement (filter : Option CString) (node : GNode)
    (apiArray : Option (List IndexElement)) : Bool × Option (List IndexElement) :=
  match node.data with
  | .token _ => (false, none)
  | .apiInfo api => (false, apiArray.map (· ++ (indexElement filter api).toList))

/-- `cmsg_proxy_index_search_pattern`. -/
def indexSearchPattern (uriUnescape : CString → Option CString) (queryString : Option CString) :
    Option CString :=
  ((parseQueryParameters uriUnescape queryString []).find? fun param =>
    param.key = cstr "search_string" && param.value.any (· ≠ [])).bind (·.value)

def indexJson (apiArray : List IndexElement) : Json :=
  .object [(cstr "basepath", .string (cstr "/api")),
    (cstr "paths", .array (apiArray.map IndexElement.json))]

/-- `cmsg_proxy_index`: the status, and the output; nothing where a string was read as the
information about an API. -/
def proxyIndex {N : Type} (codec : OutputCodec N) (uriUnescape : CString → Option CString)
    (proxyEntriesTree : Option GNode) (queryString : Option CString) (output : Output) :
    Option (Nat × Output) :=
  let searchPattern := indexSearchPattern uriUnescape queryString
  match treeForeachLeaf proxyEntriesTree (indexAddElement searchPattern) (some []) with
  | (false, _) => some (httpCodeInternalServerError, output)
  | (true, none) => none
  | (true, some apiArray) => some (httpCodeOk, jsonToOutput codec (indexJson apiArray) output)

/-! ## What the index should be -/

mutual

/-- A node and the nodes below it, each once. -/
def GNode.nodes : GNode → List GNode
  | .node data children => .node data children :: nodesOf children

def nodesOf : List GNode → List GNode
  | [] => []
  | c :: cs => c.nodes ++ nodesOf cs

end

def GNode.apiInfoNodes (n : GNode) : List GNode := n.nodes.filter GNode.isApiInfo

/-- One element for each URL of a service that was accepted, with the verbs accepted for it. -/
structure ListsAccepted (accepted : List ServiceInfo) (elements : List IndexElement) : Prop where
  once : (elements.map fun e => strtok slash e.path).Nodup
  url : ∀ template, (∃ e ∈ elements, strtok slash e.path = template) ↔
    ∃ info ∈ accepted, strtok slash info.urlString = template
  verbsOnce : ∀ e ∈ elements, e.methods.Nodup
  verbs : ∀ e ∈ elements, ∀ verb, verb ∈ e.methods ↔
    ∃ info ∈ accepted, strtok slash info.urlString = strtok slash e.path ∧ info.httpVerb = verb

/-- The index lists what was accepted of an array of services, and the callback of a traversal
is called for each leaf with information about an API and for no other node. -/
structure ServesIndex (array : List ServiceInfo) : Prop where
  index : ∀ {N : Type} (codec : OutputCodec N) (uriUnescape : CString → Option CString)
    (queryString : Option CString) (output : Output),
    indexSearchPattern uriUnescape queryString = none →
    ∃ elements, ListsAccepted (loadedInfos array) elements ∧
      proxyIndex codec uriUnescape (some (loadedTree array)) queryString output =
        some (httpCodeOk, jsonToOutput codec (indexJson elements) output)
  leaves : ∀ {σ : Type} (callback : GNode → σ → Bool × σ), (∀ n s, (callback n s).1 = false) →
    ∀ data, treeForeachLeaf (some (loadedTree array)) callback data =
      (true, (loadedTree array).apiInfoNodes.foldl (fun s n => (callback n s).2) data)

/-! ## The leaves -/

theorem nodesOf_eq (cs : List GNode) : nodesOf cs = cs.flatMap GNode.nodes := by
  induction cs with
  | nil => rfl
  | cons c cs ih => rw [nodesOf, ih, List.flatMap_cons]

theorem GNode.nodes_eq (n : GNode) : n.nodes = n :: n.children.flatMap GNode.nodes := by
  cases n with
  | node data children => rw [GNode.nodes, nodesOf_eq, GNode.children]

mutual

/-- A callback that does not end the traversal is called for each leaf. -/
theorem traverseLeaves_eq {σ : Type} {callback : GNode → σ → Bool × σ}
    (hgo : ∀ n s, (callback n s).1 = false) : ∀ (n : GNode) (s : σ), traverseLeaves callback n s =
      (false, (n.nodes.filter GNode.isLeaf).foldl (fun s n => (callback n s).2) s)
  | .node data [], s => by
    rw [traverseLeaves]
    exact Prod.ext (hgo _ _) rfl
  | .node data (c :: cs), s => by
    rw [traverseLeaves, traverseLeavesOf_eq hgo (c :: cs) s, GNode.nodes, List.filter_cons_of_neg]
    simp [GNode.isLeaf, GNode.children]

theorem traverseLeavesOf_eq {σ : Type} {callback : GNode → σ → Bool × σ}
    (hgo : ∀ n s, (callback n s).1 = false) : ∀ (cs : List GNode) (s : σ),
    traverseLeavesOf callback cs s =
      (false, ((nodesOf cs).filter GNode.isLeaf).foldl (fun s n => (callback n s).2) s)
  | [], s => rfl
  | c :: cs, s => by
    rw [traverseLeavesOf, traverseLeaves_eq hgo c s]
    dsimp only
    rw [traverseLeavesOf_eq hgo cs, nodesOf, List.filter_append, List.foldl_append]

end

/-! ## The leaves of the tree -/

section
variable {n : GNode} {es : UrlTable}

/-- Below a node with URLs the leaves are the information about APIs. -/
theorem Represents.isLeaf_iff (h : Represents n es) (hleaf : n.isLeaf = false)
    (htoken : n.isApiInfo = false) : ∀ m ∈ n.nodes, m.isLeaf = m.isApiInfo := by
  induction h with
  | @node data paths es distinct first below ih =>
    have hp : Paths es paths := ⟨distinct, first, below⟩
    intro m hm
    rw [GNode.nodes_eq, GNode.children] at hm
    cases List.mem_cons.mp hm with
    | inl he => rw [he, hleaf, htoken]
    | inr hm =>
      obtain ⟨c, hc, hm⟩ := List.mem_flatMap.mp hm
      cases List.mem_append.mp hc with
      | inl hc =>
        obtain ⟨⟨api, rfl⟩, _⟩ := apiInfoPart_isApiInfo hc
        obtain rfl : m = .node (.apiInfo api) [] := by simpa [GNode.nodes, nodesOf] using hm
        rfl
      | inr hc =>
        obtain ⟨q, hq, rfl⟩ := List.mem_map.mp hc
        exact ih q hq (hp.not_isLeaf hq) rfl m hm

end

mutual

/-- The information about APIs below a node, with the tokens that lead to it. -/
def GNode.infos : GNode → List (List CString × ApiInfo)
  | .node _ children => infosOf children

def infosOf : List GNode → List (List CString × ApiInfo)
  | [] => []
  | c :: cs =>
    (match c.data with
      | .apiInfo api => [([], api)]
      | .token t => c.infos.map fun e => (t :: e.1, e.2)) ++ infosOf cs

end

/-- The information at the end of a URL. -/
def infoHere (es : UrlTable) : List (List CString × ApiInfo) :=
  match here es with
  | [] => []
  | info :: infos => [([], apiInfoOf (info :: infos))]

def pathInfos (q : CString × List GNode) : List (List CString × ApiInfo) :=
  (pathNode q).infos.map fun e => (q.1 :: e.1, e.2)

section
variable {n : GNode} {es : UrlTable} {paths : List (CString × List GNode)}

theorem infosOf_children (es : UrlTable) (paths : List (CString × List GNode)) :
    infosOf (apiInfoPart es ++ paths.map pathNode) = infoHere es ++ paths.flatMap pathInfos := by
  have hpaths : infosOf (paths.map pathNode) = paths.flatMap pathInfos := by
    induction paths with
    | nil => rfl
    | cons q qs ih =>
      rw [List.map_cons, infosOf, ih, List.flatMap_cons]
      rfl
  unfold apiInfoPart infoHere
  cases here es with
  | nil => exact hpaths
  | cons info infos =>
    show _ :: infosOf (paths.map pathNode) = _ :: _
    rw [hpaths]
    rfl

theorem infos_eq (hn : n.children = apiInfoPart es ++ paths.map pathNode) :
    n.infos = infoHere es ++ paths.flatMap pathInfos := by
  rw [← infosOf_children, ← hn]
  cases n with
  | node data children => rfl

/-- The leaf of an information. -/
def infoLeaf (e : List CString × ApiInfo) : GNode := .node (.apiInfo e.2) []

theorem apiInfoPart_nodes (es : UrlTable) :
    (apiInfoPart es).flatMap GNode.apiInfoNodes = (infoHere es).map infoLeaf := by
  unfold apiInfoPart infoHere
  cases here es <;> rfl

/-- The information about APIs in a tree, leaf by leaf. -/
theorem Represents.apiInfoNodes_eq (h : Represents n es) (htoken : n.isApiInfo = false) :
    n.apiInfoNodes = n.infos.map infoLeaf := by
  induction h with
  | @node data paths es distinct first below ih =>
    have hself : (GNode.node data (apiInfoPart es ++ paths.map pathNode)).apiInfoNodes =
        (apiInfoPart es ++ paths.map pathNode).flatMap GNode.apiInfoNodes := by
      rw [GNode.apiInfoNodes, GNode.nodes_eq, List.filter_cons_of_neg (by simpa using htoken),
        GNode.children, List.filter_flatMap]
      rfl
    have hpaths : (paths.map pathNode).flatMap GNode.apiInfoNodes =
        (paths.flatMap pathInfos).map infoLeaf := by
      rw [List.flatMap_map, List.map_flatMap]
      refine List.flatMap_congr fun q hq => ?_
      rw [ih q hq rfl, pathInfos, List.map_map]
      rfl
    rw [hself, List.flatMap_append, apiInfoPart_nodes, hpaths, infos_eq rfl, List.map_append]

theorem mem_infoHere {ts : List CString} {api : ApiInfo} :
    (ts, api) ∈ infoHere es ↔ ts = [] ∧ here es ≠ [] ∧ api = apiInfoOf (here es) := by
  unfold infoHere
  cases here es with
  | nil => simp
  | cons info infos => simp

/-- What is known of the information below a node. -/
structure HasInfos (es : UrlTable) (infos : List (List CString × ApiInfo)) : Prop where
  distinct : (infos.map Prod.fst).Nodup
  mem : ∀ ts api, (ts, api) ∈ infos ↔
    here (after ts es) ≠ [] ∧ api = apiInfoOf (here (after ts es))

theorem fst_pathInfos (q : CString × List GNode) :
    (pathInfos q).map Prod.fst = ((pathNode q).infos.map Prod.fst).map (q.1 :: ·) := by
  rw [pathInfos, List.map_map, List.map_map]
  rfl

/-- The information below a node is that of its URLs. -/
theorem Represents.hasInfos (h : Represents n es) : HasInfos es n.infos := by
  induction h with
  | @node data paths es distinct first below ih =>
    have hp : Paths es paths := ⟨distinct, first, below⟩
    rw [infos_eq rfl]
    constructor
    · rw [List.map_append, List.map_flatMap, List.nodup_append]
      refine ⟨?_, ?_, ?_⟩
      · unfold infoHere
        cases here es <;> simp
      · rw [List.nodup_flatMap]
        constructor
        · intro q hq
          rw [fst_pathInfos]
          exact (ih q hq).distinct.map (List.cons_injective)
        · refine (List.pairwise_map.mp distinct).imp fun hne ts h₁ h₂ => ?_
          dsimp only at h₁ h₂
          rw [fst_pathInfos] at h₁ h₂
          obtain ⟨_, _, rfl⟩ := List.mem_map.mp h₁
          obtain ⟨_, _, he⟩ := List.mem_map.mp h₂
          exact hne (List.cons.inj he).1.symm
      · intro ts h₁ us h₂ he
        obtain ⟨q, _, h₂⟩ := List.mem_flatMap.mp h₂
        rw [fst_pathInfos] at h₂
        obtain ⟨_, _, rfl⟩ := List.mem_map.mp h₂
        obtain ⟨e, hmem, rfl⟩ := List.mem_map.mp h₁
        obtain ⟨hnil, _⟩ := mem_infoHere.mp hmem
        rw [hnil] at he
        cases he
    · intro ts api
      rw [List.mem_append, mem_infoHere, List.mem_flatMap]
      cases ts with
      | nil => simp [pathInfos, after]
      | cons t ts =>
        constructor
        · intro hmem
          obtain ⟨hnil, _⟩ | ⟨q, hq, hmem⟩ := hmem
          · cases hnil
          · obtain ⟨e, he, heq⟩ := List.mem_map.mp hmem
            cases heq
            exact ((ih q hq).mem _ _).mp he
        · intro hmem
          obtain ⟨hne, hapi⟩ := hmem
          obtain ⟨info, hinfo⟩ := List.exists_mem_of_ne_nil _ hne
          have ht : t ∈ heads es := mem_heads.mpr ⟨ts, info, mem_here_after.mp hinfo⟩
          obtain ⟨q, hq, rfl⟩ := List.mem_map.mp (hp.mem_iff.mpr ht)
          exact .inr ⟨q, hq, List.mem_map.mpr ⟨(ts, api), ((ih q hq).mem _ _).mpr ⟨hne, hapi⟩, rfl⟩⟩

end

/-! ## The elements -/

theorem indexVerb_foldl (api : ApiInfo) (verbs : List HttpVerb)
    (r : Option CString × List HttpVerb) :
    (verbs.foldl (indexVerb api) r).2 = r.2 ++ verbs.filter fun verb => (api.get verb).isSome := by
  induction verbs generalizing r with
  | nil => exact (List.append_nil _).symm
  | cons verb verbs ih =>
    rw [List.foldl_cons, ih, indexVerb, List.filter_cons]
    cases api.get verb with
    | none => rfl
    | some info => simp

/-- The URL is the one of the last verb that has a service. -/
theorem indexVerb_url (api : ApiInfo) (verbs : List HttpVerb)
    (r : Option CString × List HttpVerb) :
    (verbs.foldl (indexVerb api) r).1 = r.1 ∧ (∀ verb ∈ verbs, api.get verb = none) ∨
      ∃ verb info, api.get verb = some info ∧
        (verbs.foldl (indexVerb api) r).1 = some info.urlString := by
  induction verbs generalizing r with
  | nil => exact .inl ⟨rfl, fun _ h => by cases h⟩
  | cons verb verbs ih =>
    rw [List.foldl_cons]
    cases hget : api.get verb with
    | none =>
      have hr : indexVerb api r verb = r := by rw [indexVerb, hget]
      rw [hr]
      refine (ih r).imp_left fun ⟨hurl, hnone⟩ => ⟨hurl, fun v hv => ?_⟩
      cases List.mem_cons.mp hv with
      | inl he => rw [he, hget]
      | inr hv => exact hnone v hv
    | some info =>
      cases ih (indexVerb api r verb) with
      | inl h =>
        have hr : (indexVerb api r verb).1 = some info.urlString := by rw [indexVerb, hget]
        exact .inr ⟨verb, info, hget, h.1.trans hr⟩
      | inr h => exact .inr h

theorem mem_indexVerbs (verb : HttpVerb) : verb ∈ indexVerbs := by
  cases verb <;> decide

/-- The element of a URL has one of its services' strings and lists their verbs. -/
theorem indexElement_apiInfoOf {infos : List ServiceInfo} (hne : infos ≠ []) :
    ∃ e, indexElement none (apiInfoOf infos) = some e ∧ e.methods.Nodup ∧
      (∃ info ∈ infos, e.path = info.urlString) ∧
      ∀ verb, verb ∈ e.methods ↔ ∃ info ∈ infos, info.httpVerb = verb := by
  have hget : ∀ verb info, (apiInfoOf infos).get verb = some info →
      info ∈ infos ∧ info.httpVerb = verb := by
    intro verb info h
    rw [get_apiInfoOf] at h
    exact ⟨List.mem_reverse.mp (List.mem_of_find?_eq_some h), by simpa using List.find?_some h⟩
  have hsome : ∀ info ∈ infos, ((apiInfoOf infos).get info.httpVerb).isSome := by
    intro info hinfo
    rw [get_apiInfoOf, List.find?_isSome]
    exact ⟨info, List.mem_reverse.mpr hinfo, by simp⟩
  obtain ⟨first, hfirst⟩ := List.exists_mem_of_ne_nil infos hne
  have hverbs := indexVerb_foldl (apiInfoOf infos) indexVerbs (none, [])
  have hurl := indexVerb_url (apiInfoOf infos) indexVerbs (none, [])
  unfold indexElement
  generalize indexVerbs.foldl (indexVerb (apiInfoOf infos)) (none, []) = r at hverbs hurl
  obtain ⟨url, methods⟩ := r
  obtain ⟨_, hnone⟩ | ⟨verb, info, hinfo, hpath⟩ := hurl
  · have hno := hsome first hfirst
    rw [hnone _ (mem_indexVerbs _)] at hno
    cases hno
  · dsimp only at hverbs hpath
    rw [hpath]
    refine ⟨_, rfl, ?_, ⟨info, (hget verb info hinfo).1, rfl⟩, ?_⟩
    · rw [hverbs]
      exact List.Nodup.filter _ (by decide)
    · intro verb
      rw [hverbs, List.nil_append, List.mem_filter]
      constructor
      · intro ⟨_, h⟩
        obtain ⟨info, hinfo⟩ := Option.isSome_iff_exists.mp h
        exact ⟨info, hget verb info hinfo⟩
      · intro ⟨info, hinfo, he⟩
        exact ⟨mem_indexVerbs verb, he ▸ hsome info hinfo⟩

/-! ## The index of the tree -/

theorem indexAddElement_infos (filter : Option CString) (infos : List (List CString × ApiInfo))
    (elements : List IndexElement) :
    (infos.map infoLeaf).foldl (fun s n => (indexAddElement filter n s).2) (some elements) =
      some (elements ++ infos.filterMap fun e => indexElement filter e.2) := by
  induction infos generalizing elements with
  | nil => simp
  | cons e infos ih =>
    rw [List.map_cons, List.foldl_cons]
    show (infos.map infoLeaf).foldl _ (some (elements ++ (indexElement filter e.2).toList)) = _
    rw [ih, List.filterMap_cons]
    cases indexElement filter e.2 <;> simp

theorem indexAddElement_goesOn (filter : Option CString) (n : GNode)
    (s : Option (List IndexElement)) : (indexAddElement filter n s).1 = false := by
  unfold indexAddElement
  cases n.data <;> rfl

section
variable {array : List ServiceInfo} {infos : List (List CString × ApiInfo)}

theorem mem_here_after_urlTable {loaded : List ServiceInfo} {ts : List CString}
    {info : ServiceInfo} : info ∈ here (after ts (urlTable loaded)) ↔
      info ∈ loaded ∧ strtok slash info.urlString = ts :=
  mem_here_after.trans mem_urlTable

/-- The element of a URL that is in the tree. -/
theorem HasInfos.element (h : HasInfos (urlTable (loadedInfos array)) infos)
    {p : List CString × ApiInfo} (hp : p ∈ infos) :
    ∃ e, indexElement none p.2 = some e ∧ strtok slash e.path = p.1 ∧ e.methods.Nodup ∧
      ∀ verb, verb ∈ e.methods ↔ ∃ info ∈ loadedInfos array,
        strtok slash info.urlString = p.1 ∧ info.httpVerb = verb := by
  obtain ⟨hne, hapi⟩ := (h.mem p.1 p.2).mp hp
  obtain ⟨e, he, honce, ⟨info, hinfo, hpath⟩, hverbs⟩ := indexElement_apiInfoOf hne
  rw [← hapi] at he
  refine ⟨e, he, ?_, honce, fun verb => ?_⟩
  · rw [hpath]
    exact (mem_here_after_urlTable.mp hinfo).2
  · rw [hverbs]
    refine exists_congr fun other => ?_
    rw [mem_here_after_urlTable, and_assoc]

theorem HasInfos.paths (h : HasInfos (urlTable (loadedInfos array)) infos) :
    (infos.filterMap fun p => indexElement none p.2).map (fun e => strtok slash e.path) =
      infos.map Prod.fst := by
  have helement : ∀ p ∈ infos, ∃ e, indexElement none p.2 = some e ∧
      strtok slash e.path = p.1 := fun p hp => by
    obtain ⟨e, he, hpath, _⟩ := h.element hp
    exact ⟨e, he, hpath⟩
  clear h
  induction infos with
  | nil => rfl
  | cons p infos ih =>
    obtain ⟨e, he, hpath⟩ := helement p (by simp)
    rw [List.filterMap_cons, he, List.map_cons, List.map_cons, hpath,
      ih fun q hq => helement q (List.mem_cons_of_mem _ hq)]

theorem HasInfos.listsAccepted (h : HasInfos (urlTable (loadedInfos array)) infos) :
    ListsAccepted (loadedInfos array) (infos.filterMap fun p => indexElement none p.2) := by
  have helement : ∀ e ∈ infos.filterMap (fun p => indexElement none p.2),
      ∃ p ∈ infos, indexElement none p.2 = some e := fun e he => List.mem_filterMap.mp he
  constructor
  · rw [h.paths]
    exact h.distinct
  · intro template
    have hmem : (∃ e ∈ infos.filterMap (fun p => indexElement none p.2),
        strtok slash e.path = template) ↔ template ∈ infos.map Prod.fst := by
      rw [← h.paths, List.mem_map]
    rw [hmem, List.mem_map]
    constructor
    · intro ⟨p, hp, he⟩
      obtain ⟨info, hinfo⟩ := List.exists_mem_of_ne_nil _ ((h.mem p.1 p.2).mp hp).1
      exact ⟨info, he ▸ mem_here_after_urlTable.mp hinfo⟩
    · intro ⟨info, hinfo, he⟩
      have hhere := mem_here_after_urlTable.mpr ⟨hinfo, he⟩
      exact ⟨(template, _), (h.mem _ _).mpr ⟨List.ne_nil_of_mem hhere, rfl⟩, rfl⟩
  · intro e he
    obtain ⟨p, hp, hsome⟩ := helement e he
    obtain ⟨e', he', _, honce, _⟩ := h.element hp
    obtain rfl := Option.some.inj (hsome.symm.trans he')
    exact honce
  · intro e he
    obtain ⟨p, hp, hsome⟩ := helement e he
    obtain ⟨e', he', hpath, _, hverbs⟩ := h.element hp
    obtain rfl := Option.some.inj (hsome.symm.trans he')
    rw [hpath]
    exact hverbs

theorem data_serviceInfoInit (tree : GNode) (array : List ServiceInfo) :
    (serviceInfoInit tree array).data = tree.data := by
  induction array generalizing tree with
  | nil => rfl
  | cons info array ih => exact (ih _).trans (data_serviceInfoAddFrom _ _ _)

theorem loadedTree_isApiInfo (array : List ServiceInfo) :
    (loadedTree array).isApiInfo = false := by
  have hdata := data_serviceInfoInit treeInit array
  rw [GNode.isApiInfo, GNode.token?, loadedTree, hdata]
  rfl

/-- Where something was accepted the leaves are the information about APIs. -/
theorem foreachLeaf_eq (hne : loadedInfos array ≠ []) {σ : Type}
    {callback : GNode → σ → Bool × σ} (hgo : ∀ n s, (callback n s).1 = false) (data : σ) :
    treeForeachLeaf (some (loadedTree array)) callback data =
      (true, (loadedTree array).apiInfoNodes.foldl (fun s n => (callback n s).2) data) := by
  have hrepr := represents_loadedTree array
  have hleaf := hrepr.not_isLeaf fun h => hne (List.map_eq_nil_iff.mp h)
  have hfilter := List.filter_congr (hrepr.isLeaf_iff hleaf (loadedTree_isApiInfo array))
  unfold treeForeachLeaf
  dsimp only
  rw [traverseLeaves_eq hgo, hfilter]
  rfl

theorem servesIndex_of_loaded (hne : loadedInfos array ≠ []) : ServesIndex array := by
  have hrepr := represents_loadedTree array
  refine ⟨?_, fun callback hgo data => foreachLeaf_eq hne hgo data⟩
  intro N codec uriUnescape queryString output hpattern
  refine ⟨_, hrepr.hasInfos.listsAccepted, ?_⟩
  unfold proxyIndex
  dsimp only
  rw [hpattern, foreachLeaf_eq hne (indexAddElement_goesOn none),
    hrepr.apiInfoNodes_eq (loadedTree_isApiInfo array), indexAddElement_infos]
  rfl

/-! ## Nothing accepted -/

theorem added_treeInit (info : ServiceInfo) :
    (serviceInfoAdd treeInit info).1 = info.passes := by
  have hadd : (serviceInfoAdd treeInit info).1 = (serviceInfoAddFrom info info.template treeInit).1 :=
    rfl
  rw [hadd, ServiceInfo.passes]
  cases info.template with
  | nil => simp [serviceInfoAddFrom]
  | cons t ts =>
    cases hb : bodyStringCheck info with
    | true => exact serviceInfoAddFrom_leaf hb _ _
    | false => simp [serviceInfoAddFrom, treeInit, GNode.children, List.splitFirst,
        serviceInfoConflicts, hb]

theorem refused_treeInit {info : ServiceInfo} (h : info.passes = false) :
    (serviceInfoAdd treeInit info).2 = treeInit :=
  represents_treeInit.refused ((added_treeInit info).trans h)

/-- Nothing is accepted where no service passes. -/
theorem loadedInfos_eq_nil_iff : loadedInfos array = [] ↔ ∀ info ∈ array, info.passes = false := by
  induction array with
  | nil => exact ⟨fun _ _ h => (by cases h), fun _ => rfl⟩
  | cons info array ih =>
    rw [loadedInfos, serviceInfosLoaded, List.forall_mem_cons]
    dsimp only
    rw [added_treeInit]
    cases hpass : info.passes with
    | true => simp
    | false =>
      rw [refused_treeInit hpass, if_neg Bool.false_ne_true]
      exact ih.trans (by simp)

theorem loadedTree_of_nil (h : ∀ info ∈ array, info.passes = false) :
    loadedTree array = treeInit := by
  induction array with
  | nil => rfl
  | cons info array ih =>
    rw [List.forall_mem_cons] at h
    rw [loadedTree, serviceInfoInit, List.foldl_cons, refused_treeInit h.1]
    exact ih h.2

/-- **The index** lists what was accepted, and the traversal keeps to the information about
APIs, exactly when some service is accepted. -/
theorem servesIndex_iff (array : List ServiceInfo) :
    ServesIndex array ↔ ∃ info ∈ array, info.passes = true := by
  constructor
  · intro h
    by_contra hnone
    have hfail : ∀ info ∈ array, info.passes = false := by simpa using hnone
    have hleaves := h.leaves (fun n s => (false, n :: s)) (fun _ _ => rfl) []
    rw [loadedTree_of_nil hfail] at hleaves
    cases hleaves
  · intro ⟨info, hinfo, hpass⟩
    refine servesIndex_of_loaded fun hnil => ?_
    rw [loadedInfos_eq_nil_iff.mp hnil info hinfo] at hpass
    cases hpass

/-- With nothing loaded the string in the root is read as the information about an API. -/
theorem empty_index_reads_root :
    (∀ {N : Type} (codec : OutputCodec N) (output : Output),
        proxyIndex codec some (some (loadedTree [])) none output = none) ∧ ¬ ServesIndex [] := by
  refine ⟨fun _ _ => rfl, fun h => ?_⟩
  have hleaves := h.leaves (fun n s => (false, n :: s)) (fun _ _ => rfl) []
  cases hleaves

end

end Cmsg.Proxy
