import Mathlib.Data.List.Perm.Basic
import Cmsg.Proxy.Index
import Cmsg.Proxy.Object

/-! # The clients of the proxy

The proxy loads the libraries that describe services and creates one client for each
service that its tree offers. So a request that leads to a service finds a client for it,
unless the creation of that client failed. -/
namespace Cmsg.Proxy
open Cmsg.Base Cmsg.Base.Routes

/-! ## Traversals -/

/-- The levels of a tree from the level given, one after another until one is empty. -/
def levelsFrom : Nat → List GNode → List GNode
  | 0, _ => []
  | _ + 1, [] => []
  | depth + 1, n :: level =>
    (n :: level) ++ levelsFrom depth ((n :: level).flatMap GNode.children)

/-- The order of `G_LEVEL_ORDER`. -/
def GNode.levelOrder (tree : GNode) : List GNode := levelsFrom tree.nodes.length [tree]

mutual

/-- The order of `G_POST_ORDER`. -/
def GNode.postOrder : GNode → List GNode
  | .node data children => postOrderOf children ++ [.node data children]

def postOrderOf : List GNode → List GNode
  | [] => []
  | c :: cs => c.postOrder ++ postOrderOf cs

end

/-! ## Clients -/

/-- `proxy_clients_list`, by the names of the services, and the services whose client
could not be created; the counters of both are their lengths. -/
structure ProxyClients where
  clients : List CString := []
  createFailures : List CString := []

/-- `cmsg_proxy_find_client_by_service` -/
def ProxyClients.findClientByService (s : ProxyClients) (name : CString) : Bool :=
  s.clients.any (· == name)

/-- `cmsg_proxy_create_client`, with what the attempt of each number comes to. -/
def ProxyClients.createClient (createUnix : Nat → Bool) (s : ProxyClients) (name : CString) :
    ProxyClients :=
  if createUnix (s.clients.length + s.createFailures.length) then
    { s with clients := s.clients ++ [name] }
  else { s with createFailures := s.createFailures ++ [name] }

/-- The verbs in the order of their numbers. -/
def httpVerbs : List HttpVerb := [.get, .put, .post, .delete, .patch]

/-- One verb of `cmsg_proxy_clients_add`. -/
def clientAdd (createUnix : Nat → Bool) (api : ApiInfo) (s : ProxyClients) (verb : HttpVerb) :
    ProxyClients :=
  match api.get verb with
  | none => s
  | some info =>
    if s.findClientByService info.serviceName then s
    else s.createClient createUnix info.serviceName

/-- `cmsg_proxy_clients_add`, which takes the data of a leaf for information about an API. -/
def clientsAdd (createUnix : Nat → Bool) (s : ProxyClients) (leaf : GNode) :
    Option ProxyClients :=
  match leaf.data with
  | .apiInfo api => some (httpVerbs.foldl (clientAdd createUnix api) s)
  | .token _ => none

/-- `cmsg_proxy_clients_init` -/
def clientsInit (createUnix : Nat → Bool) (tree : GNode) : Option ProxyClients :=
  if tree.isLeaf then some {}
  else (tree.levelOrder.filter GNode.isLeaf).foldlM (clientsAdd createUnix) {}

/-! ## Libraries -/

/-- An entry of the library directory. A library that can be opened gives an array of
services where both its functions are found. -/
structure DirEntry where
  regular : Bool
  name : CString
  library : Option (Option (List ServiceInfo))

def DirEntry.isProxyDef (entry : DirEntry) : Bool :=
  entry.regular && strstr entry.name (cstr "proto_proxy_def.so")

/-- The tree and `library_handles_list`. -/
structure Loaded where
  tree : GNode
  handles : List CString

/-- One entry of `cmsg_proxy_library_handles_load`. -/
def Loaded.libraryHandleLoad (s : Loaded) (entry : DirEntry) : Loaded :=
  match entry.isProxyDef, entry.library with
  | true, some (some array) =>
    { tree := serviceInfoInit s.tree array, handles := entry.name :: s.handles }
  | _, _ => s

/-- `cmsg_proxy_library_handles_load` -/
def libraryHandlesLoad (entries : List DirEntry) : Loaded :=
  entries.foldl Loaded.libraryHandleLoad ⟨treeInit, []⟩

structure ProxyTree extends Loaded where
  clients : ProxyClients

/-- `cmsg_proxy_tree_init` -/
def proxyTreeInit (createUnix : Nat → Bool) (entries : List DirEntry) : Option ProxyTree :=
  let loaded := libraryHandlesLoad entries
  (clientsInit createUnix loaded.tree).map fun clients => { loaded with clients }

/-! ## Cleaning up -/

/-- `cmsg_proxy_api_info_free`, for a leaf with information about an API. -/
def apiInfoFree (leaf : GNode) : Option NodeData :=
  match leaf.data with
  | .apiInfo api => some (.apiInfo api)
  | .token _ => none

/-- `cmsg_proxy_entry_data_free`, for a node with a string. -/
def entryDataFree (n : GNode) : Option NodeData :=
  match n.data with
  | .token t => some (.token t)
  | .apiInfo _ => none

/-- `cmsg_proxy_service_info_deinit`: what is freed, in order, if each is what it is
freed as. -/
def serviceInfoDeinit (tree : GNode) : Option (List NodeData) :=
  if tree.isLeaf then (entryDataFree tree).map fun data => [data]
  else do
    let infos ← (tree.levelOrder.filter GNode.isLeaf).mapM apiInfoFree
    let tokens ← (tree.postOrder.filter fun n => !n.isLeaf).mapM entryDataFree
    return infos ++ tokens

/-! ## The orders visit each node once -/

theorem levelsFrom_perm {depth : Nat} {level : List GNode}
    (h : (level.flatMap GNode.nodes).length ≤ depth) :
    (levelsFrom depth level).Perm (level.flatMap GNode.nodes) := by
  induction depth generalizing level with
  | zero =>
    have hnil : level.flatMap GNode.nodes = [] := List.length_eq_zero_iff.mp (Nat.le_zero.mp h)
    rw [hnil]
    exact List.Perm.refl []
  | succ depth ih =>
    cases level with
    | nil => exact List.Perm.refl []
    | cons n level =>
      have hsplit : ((n :: level) ++ ((n :: level).flatMap GNode.children).flatMap GNode.nodes).Perm
          ((n :: level).flatMap GNode.nodes) := by
        have hnodes : (n :: level).flatMap GNode.nodes =
            (n :: level).flatMap fun m => m :: m.children.flatMap GNode.nodes :=
          List.flatMap_congr fun m _ => m.nodes_eq
        have hperm := (n :: level).map_append_flatMap_perm id
          fun m => m.children.flatMap GNode.nodes
        rw [List.map_id] at hperm
        rw [hnodes, List.flatMap_assoc]
        exact hperm
      have hlen := hsplit.length_eq
      rw [List.length_append, List.length_cons] at hlen
      rw [levelsFrom]
      exact ((ih (by omega)).append_left _).trans hsplit

theorem levelOrder_perm (tree : GNode) : tree.levelOrder.Perm tree.nodes := by
  have hone : [tree].flatMap GNode.nodes = tree.nodes := by simp
  have hlen : ([tree].flatMap GNode.nodes).length ≤ tree.nodes.length :=
    Nat.le_of_eq (congrArg List.length hone)
  have h := levelsFrom_perm hlen
  rwa [hone] at h

mutual

theorem postOrder_perm : ∀ n : GNode, n.postOrder.Perm n.nodes
  | .node data children => by
    rw [GNode.postOrder, GNode.nodes]
    exact ((postOrderOf_perm children).append_right _).trans (List.perm_append_singleton _ _)

theorem postOrderOf_perm : ∀ cs : List GNode, (postOrderOf cs).Perm (nodesOf cs)
  | [] => List.Perm.refl []
  | c :: cs => by
    rw [postOrderOf, nodesOf]
    exact (postOrder_perm c).append (postOrderOf_perm cs)

end

/-! ## One client for each service -/

/-- The services tried so far: there is a client, or the creation failed. -/
def ProxyClients.Tried (s : ProxyClients) (name : CString) : Prop :=
  name ∈ s.clients ∨ name ∈ s.createFailures

/-- What a step of the initialisation does that looks at the names. -/
structure Covers (createUnix : Nat → Bool) (names : List CString) (s t : ProxyClients) : Prop where
  tried : ∀ name, t.Tried name ↔ s.Tried name ∨ name ∈ names
  distinct : s.clients.Nodup → t.clients.Nodup
  succeeds : (∀ k, createUnix k = true) → t.createFailures = s.createFailures

section
variable {createUnix : Nat → Bool} {names names' : List CString} {s t u : ProxyClients}

theorem covers_refl (s : ProxyClients) : Covers createUnix [] s s :=
  ⟨fun _ => by simp, id, fun _ => rfl⟩

theorem Covers.trans (h : Covers createUnix names s t) (h' : Covers createUnix names' t u) :
    Covers createUnix (names ++ names') s u where
  tried name := by rw [h'.tried, h.tried, List.mem_append, or_assoc]
  distinct hd := h'.distinct (h.distinct hd)
  succeeds hall := (h'.succeeds hall).trans (h.succeeds hall)

theorem findClientByService_iff {name : CString} :
    s.findClientByService name = true ↔ name ∈ s.clients := by
  simp [ProxyClients.findClientByService]

theorem covers_createClient {name : CString} (hnew : name ∉ s.clients) :
    Covers createUnix [name] s (s.createClient createUnix name) := by
  unfold ProxyClients.createClient
  cases hc : createUnix (s.clients.length + s.createFailures.length) with
  | true =>
    refine ⟨fun other => ?_, fun hd => ?_, fun _ => rfl⟩
    · simp only [ProxyClients.Tried, if_true, List.mem_append, List.mem_singleton]
      exact or_right_comm
    · refine List.nodup_append.mpr ⟨hd, List.nodup_singleton name, fun a ha b hb hab => ?_⟩
      obtain rfl := List.mem_singleton.mp hb
      exact hnew (hab ▸ ha)
  | false =>
    refine ⟨fun other => ?_, id, fun hall => ?_⟩
    · simp only [ProxyClients.Tried, Bool.false_eq_true, if_false, List.mem_append,
        List.mem_singleton]
      exact or_assoc.symm
    · rw [hall] at hc
      cases hc

/-- The services of one leaf, verb by verb. -/
def ApiInfo.serviceNames (api : ApiInfo) (verbs : List HttpVerb) : List CString :=
  verbs.filterMap fun verb => (api.get verb).map (·.serviceName)

theorem covers_clientAdd (api : ApiInfo) (s : ProxyClients) (verb : HttpVerb) :
    Covers createUnix (api.serviceNames [verb]) s (clientAdd createUnix api s verb) := by
  unfold clientAdd
  cases hget : api.get verb with
  | none =>
    have hnone : api.serviceNames [verb] = [] := by simp [ApiInfo.serviceNames, hget]
    rw [hnone]
    exact covers_refl s
  | some info =>
    have hone : api.serviceNames [verb] = [info.serviceName] := by
      simp [ApiInfo.serviceNames, hget]
    rw [hone]
    dsimp only
    split
    · next hfound =>
      refine ⟨fun name => ?_, id, fun _ => rfl⟩
      rw [List.mem_singleton]
      constructor
      · exact Or.inl
      · intro h
        cases h with
        | inl h => exact h
        | inr h => exact h ▸ .inl (findClientByService_iff.mp hfound)
    · next hmissing =>
      exact covers_createClient fun h => hmissing (findClientByService_iff.mpr h)

theorem covers_clientsAdd (api : ApiInfo) (verbs : List HttpVerb) (s : ProxyClients) :
    Covers createUnix (api.serviceNames verbs) s (verbs.foldl (clientAdd createUnix api) s) := by
  induction verbs generalizing s with
  | nil => exact covers_refl s
  | cons verb verbs ih =>
    have hsplit : api.serviceNames (verb :: verbs) =
        api.serviceNames [verb] ++ api.serviceNames verbs :=
      List.filterMap_append (l := [verb])
    rw [hsplit]
    exact (covers_clientAdd api s verb).trans (ih _)

/-- The services of the leaves with information about APIs. -/
def leafNames (leaves : List GNode) : List CString :=
  leaves.flatMap fun n =>
    match n.data with
    | .apiInfo api => api.serviceNames httpVerbs
    | .token _ => []

theorem covers_leaves (leaves : List GNode) (h : ∀ n ∈ leaves, n.isApiInfo = true)
    (s : ProxyClients) :
    ∃ t, leaves.foldlM (clientsAdd createUnix) s = some t ∧
      Covers createUnix (leafNames leaves) s t := by
  induction leaves generalizing s with
  | nil => exact ⟨s, rfl, covers_refl s⟩
  | cons n leaves ih =>
    have hn := h n (by simp)
    cases hdata : n.data with
    | token t =>
      rw [GNode.isApiInfo, GNode.token?, hdata] at hn
      cases hn
    | apiInfo api =>
      obtain ⟨t, ht, hcover⟩ := ih (fun m hm => h m (List.mem_cons_of_mem _ hm))
        (httpVerbs.foldl (clientAdd createUnix api) s)
      refine ⟨t, ?_, ?_⟩
      · rw [List.foldlM_cons, clientsAdd, hdata]
        exact ht
      · rw [leafNames, List.flatMap_cons, hdata]
        exact (covers_clientsAdd api httpVerbs s).trans hcover

end

/-! ## The tree that was loaded -/

/-- Some URL of the tree offers an API of the service. -/
def Offers (tree : GNode) (name : CString) : Prop :=
  ∃ api verb info, GNode.node (.apiInfo api) [] ∈ tree.nodes ∧ api.get verb = some info ∧
    info.serviceName = name

/-- The services of the libraries that were opened, in the order of the directory. -/
def librariesArray (entries : List DirEntry) : List ServiceInfo :=
  entries.flatMap fun entry =>
    match entry.isProxyDef, entry.library with
    | true, some (some array) => array
    | _, _ => []

theorem foldl_libraryHandleLoad (entries : List DirEntry) (s : Loaded) :
    (entries.foldl Loaded.libraryHandleLoad s).tree =
      serviceInfoInit s.tree (librariesArray entries) := by
  induction entries generalizing s with
  | nil => rfl
  | cons entry entries ih =>
    have hone : (s.libraryHandleLoad entry).tree =
        serviceInfoInit s.tree (librariesArray [entry]) := by
      simp only [Loaded.libraryHandleLoad, librariesArray, List.flatMap_singleton]
      split <;> rfl
    have hsplit : librariesArray (entry :: entries) =
        librariesArray [entry] ++ librariesArray entries := by
      simp [librariesArray]
    rw [List.foldl_cons, ih, hone, hsplit, serviceInfoInit, serviceInfoInit, serviceInfoInit,
      List.foldl_append]

theorem libraryHandlesLoad_tree (entries : List DirEntry) :
    (libraryHandlesLoad entries).tree = loadedTree (librariesArray entries) :=
  foldl_libraryHandleLoad entries _

section
variable (array : List ServiceInfo)

/-- Without services there is the root only; else the leaves are the information about APIs. -/
theorem loadedTree_leaves (h : (loadedTree array).isLeaf = false) :
    ∀ m ∈ (loadedTree array).nodes, m.isLeaf = m.isApiInfo :=
  (represents_loadedTree array).isLeaf_iff h (loadedTree_isApiInfo array)

theorem mem_leafNames {leaves : List GNode} {name : CString} :
    name ∈ leafNames leaves ↔ ∃ n ∈ leaves, ∃ api, n.data = .apiInfo api ∧
      ∃ verb info, api.get verb = some info ∧ info.serviceName = name := by
  unfold leafNames
  rw [List.mem_flatMap]
  constructor
  · rintro ⟨n, hn, hname⟩
    cases hdata : n.data with
    | token t => rw [hdata] at hname; cases hname
    | apiInfo api =>
      rw [hdata] at hname
      obtain ⟨verb, _, hget⟩ := List.mem_filterMap.mp hname
      obtain ⟨info, hinfo, rfl⟩ := Option.map_eq_some_iff.mp hget
      exact ⟨n, hn, api, hdata, verb, info, hinfo, rfl⟩
  · rintro ⟨n, hn, api, hdata, verb, info, hinfo, rfl⟩
    refine ⟨n, hn, ?_⟩
    rw [hdata]
    refine List.mem_filterMap.mpr ⟨verb, ?_, by rw [hinfo]; rfl⟩
    cases verb <;> simp [httpVerbs]

theorem leaf_of_apiInfo (h : (loadedTree array).isLeaf = false) {n : GNode}
    (hn : n ∈ (loadedTree array).nodes) {api : ApiInfo} (hdata : n.data = .apiInfo api) :
    n = .node (.apiInfo api) [] := by
  have hleaf := loadedTree_leaves array h n hn
  cases n with
  | node data children =>
    rw [GNode.data] at hdata
    subst hdata
    rw [show (GNode.node (.apiInfo api) children).isApiInfo = true from rfl, GNode.isLeaf,
      GNode.children, List.isEmpty_iff] at hleaf
    rw [hleaf]

/-- The initialisation never takes a token for information about an API. -/
theorem clientsInit_loadedTree (createUnix : Nat → Bool) :
    ∃ t, clientsInit createUnix (loadedTree array) = some t ∧ t.clients.Nodup ∧
      (∀ name, t.Tried name ↔ Offers (loadedTree array) name) ∧
      ((∀ k, createUnix k = true) → t.createFailures = []) := by
  have hempty : ∀ name, ¬ ({} : ProxyClients).Tried name := fun name => by
    simp [ProxyClients.Tried]
  unfold clientsInit
  cases hroot : (loadedTree array).isLeaf with
  | true =>
    refine ⟨{}, rfl, List.nodup_nil, fun name => ⟨fun h => absurd h (hempty name), ?_⟩,
      fun _ => rfl⟩
    rintro ⟨api, verb, info, hmem, -, -⟩
    have hchildren : (loadedTree array).children = [] := List.isEmpty_iff.mp hroot
    rw [GNode.nodes_eq, hchildren] at hmem
    have htoken := loadedTree_isApiInfo array
    rw [← List.mem_singleton.mp hmem] at htoken
    cases htoken
  | false =>
    have hperm := levelOrder_perm (loadedTree array)
    have hinfo : ∀ n ∈ (loadedTree array).levelOrder.filter GNode.isLeaf, n.isApiInfo = true := by
      intro n hn
      obtain ⟨hmem, hleaf⟩ := List.mem_filter.mp hn
      rw [← loadedTree_leaves array hroot n (hperm.mem_iff.mp hmem)]
      exact hleaf
    obtain ⟨t, ht, hcover⟩ : ∃ t, _ ∧ Covers createUnix _ _ t := covers_leaves _ hinfo {}
    refine ⟨t, ht, hcover.distinct List.nodup_nil, fun name => ?_, hcover.succeeds⟩
    rw [hcover.tried, mem_leafNames]
    constructor
    · intro h
      obtain h | ⟨n, hn, api, hdata, verb, info, hget, hname⟩ := h
      · exact absurd h (hempty name)
      · have hmem := hperm.mem_iff.mp (List.mem_filter.mp hn).1
        exact ⟨api, verb, info, leaf_of_apiInfo array hroot hmem hdata ▸ hmem, hget, hname⟩
    · rintro ⟨api, verb, info, hmem, hget, hname⟩
      exact .inr ⟨_, List.mem_filter.mpr ⟨hperm.mem_iff.mpr hmem, rfl⟩, api, rfl, verb, info,
        hget, hname⟩

/-- What a lookup finds is offered. -/
theorem offers_of_find {uriUnescape : CString → Option CString} {url : CString} {verb : HttpVerb}
    {info : ServiceInfo} {params : List UrlParameter}
    (h : findServiceFromUrlAndVerb uriUnescape (loadedTree array) url verb [] =
      (some info, params)) : Offers (loadedTree array) info.serviceName := by
  obtain ⟨hloaded, hverb, hroute, -⟩ := find_route uriUnescape array h
  have hfind := find_some uriUnescape array verb hroute []
  rw [h, Prod.mk.injEq, ← get_apiInfoOf] at hfind
  have hrepr := represents_loadedTree array
  have hhere := (mem_here_loaded array).mpr ⟨hloaded, rfl⟩
  have hleaf := (hrepr.hasInfos.mem _ _).mpr ⟨List.ne_nil_of_mem hhere, rfl⟩
  have hnode := List.mem_map_of_mem (f := infoLeaf) hleaf
  rw [← hrepr.apiInfoNodes_eq (loadedTree_isApiInfo array)] at hnode
  exact ⟨_, verb, info, (List.mem_filter.mp hnode).1, hfind.1.symm, rfl⟩

end

/-! ## Requests -/

def missingClient : AntResult := ⟨.internal, cstr "Client not found in proxy_clients_list"⟩

def unknownUrl : AntResult := ⟨.unimplemented, cstr "Unknown url and verb combination"⟩

def conversionFailed : AntResult := ⟨.internal, cstr "JSON to Protobuf conversion failed"⟩

/-- The errors of a request that leads to a service. -/
inductive RoutedError {V : Type} (env : Environment V) (info : ServiceInfo) : AntResult → Prop
  | unavailable (message : CString) : RoutedError env info ⟨.unavailable, message⟩
  | invalidArgument (message : CString) : RoutedError env info ⟨.invalidArgument, message⟩
  | missingClient (h : env.findClientByService info.serviceName = false) :
    RoutedError env info missingClient
  | conversionFailed : RoutedError env info conversionFailed

section
variable {V : Type} {env : Environment V} {input : Input} {result : AntResult}

theorem preApiCheck_error {callback : Option (HttpVerb → Bool × Option CString)}
    {verb : HttpVerb} (h : preApiCheck callback verb = .error result) :
    result.code = .unavailable := by
  unfold preApiCheck at h
  split at h
  · cases h
  · split at h
    · cases h
    · cases h
      rfl

theorem convertJsonToProtobuf_error (info : ServiceInfo) {obj : JsonObject}
    {desc : MessageDescriptor} (h : convertJsonToProtobuf env obj desc = .error result) :
    RoutedError env info result := by
  unfold convertJsonToProtobuf at h
  split at h
  · cases h
  · split at h
    · cases h
      exact .invalidArgument _
    · cases h
      exact .conversionFailed

/-- What a request is refused for: its URL, or one of the errors of a request with a service. -/
theorem inputProcess_error (h : inputProcess env input = .error result) :
    ((findServiceFromUrlAndVerb env.text.uriUnescape env.tree input.url input.httpVerb []).1 =
        none ∧ result = unknownUrl) ∨
      ∃ info params, findServiceFromUrlAndVerb env.text.uriUnescape env.tree input.url
        input.httpVerb [] = (some info, params) ∧ RoutedError env info result := by
  unfold inputProcess getServiceAndParameters at h
  cases hfind : findServiceFromUrlAndVerb env.text.uriUnescape env.tree input.url
      input.httpVerb [] with
  | mk found params =>
    rw [hfind] at h
    cases found with
    | none =>
      dsimp only at h
      cases h
      exact .inl ⟨rfl, rfl⟩
    | some info =>
      refine .inr ⟨info, params, rfl, ?_⟩
      dsimp only at h
      cases hpre : preApiCheck env.preApiCheckCallback input.httpVerb with
      | error refused =>
        rw [hpre] at h
        cases h
        have hcode := preApiCheck_error hpre
        obtain ⟨code, message⟩ := result
        obtain rfl : code = .unavailable := hcode
        exact .unavailable message
      | ok _ =>
        rw [hpre] at h
        dsimp only at h
        split at h
        · cases h
          exact .invalidArgument _
        · split at h
          · cases h
            exact .invalidArgument _
          · next obj _ =>
            rw [processObject_eq] at h
            split at h
            · cases h
              exact .invalidArgument _
            · split at h
              · next hmissing =>
                cases h
                exact .missingClient (by simpa using hmissing)
              · cases hconv : convertJsonToProtobuf env (finalObject env input info.inputDesc
                    (parseQueryParameters env.text.uriUnescape input.queryString params) obj)
                    info.inputDesc with
                | ok values =>
                  rw [hconv] at h
                  cases h
                | error refused =>
                  rw [hconv] at h
                  cases h
                  exact convertJsonToProtobuf_error info hconv

theorem missingClient_ne_conversionFailed : missingClient ≠ conversionFailed := by
  intro h
  have hm := congrArg AntResult.message h
  revert hm
  decide +kernel

/-- The error is reported for a routed request without a client only. -/
theorem inputProcess_missingClient (h : inputProcess env input = .error missingClient) :
    ∃ info params, findServiceFromUrlAndVerb env.text.uriUnescape env.tree input.url
        input.httpVerb [] = (some info, params) ∧
      env.findClientByService info.serviceName = false := by
  obtain ⟨-, hresult⟩ | ⟨info, params, hfind, herror⟩ := inputProcess_error h
  · cases hresult
  · refine ⟨info, params, hfind, ?_⟩
    generalize hresult : missingClient = result at herror
    cases herror with
    | unavailable | invalidArgument => cases hresult
    | missingClient hmissing => exact hmissing
    | conversionFailed => exact absurd hresult missingClient_ne_conversionFailed

theorem inputProcess_unknownUrl (h : inputProcess env input = .error unknownUrl) :
    (findServiceFromUrlAndVerb env.text.uriUnescape env.tree input.url input.httpVerb []).1 =
      none := by
  obtain ⟨hnone, -⟩ | ⟨info, params, -, herror⟩ := inputProcess_error h
  · exact hnone
  · generalize hresult : unknownUrl = result at herror
    cases herror with
    | unavailable | invalidArgument | missingClient | conversionFailed => cases hresult

end

/-! ## Cleaning up -/

theorem apiInfoFree_eq {n : GNode} (h : n.isApiInfo = true) : apiInfoFree n = some n.data := by
  unfold apiInfoFree
  cases hdata : n.data with
  | token t =>
    rw [GNode.isApiInfo, GNode.token?, hdata] at h
    cases h
  | apiInfo api => rfl

theorem entryDataFree_eq {n : GNode} (h : n.isApiInfo = false) :
    entryDataFree n = some n.data := by
  unfold entryDataFree
  cases hdata : n.data with
  | token t => rfl
  | apiInfo api =>
    rw [GNode.isApiInfo, GNode.token?, hdata] at h
    cases h

/-- The data of each node is freed once, and as what it is. -/
theorem serviceInfoDeinit_loadedTree (array : List ServiceInfo) :
    ∃ freed, serviceInfoDeinit (loadedTree array) = some freed ∧
      freed.Perm ((loadedTree array).nodes.map GNode.data) := by
  unfold serviceInfoDeinit
  cases hroot : (loadedTree array).isLeaf with
  | true =>
    have hchildren : (loadedTree array).children = [] := List.isEmpty_iff.mp hroot
    rw [if_pos rfl, entryDataFree_eq (loadedTree_isApiInfo array), GNode.nodes_eq, hchildren]
    exact ⟨_, rfl, List.Perm.refl _⟩
  | false =>
    have hlevel := levelOrder_perm (loadedTree array)
    have hpost := postOrder_perm (loadedTree array)
    have hkind := loadedTree_leaves array hroot
    have hinfos : ((loadedTree array).levelOrder.filter GNode.isLeaf).mapM apiInfoFree =
        some (((loadedTree array).levelOrder.filter GNode.isLeaf).map GNode.data) := by
      refine List.mapM_some_of_forall fun n hn => apiInfoFree_eq ?_
      obtain ⟨hmem, hleaf⟩ := List.mem_filter.mp hn
      rw [← hkind n (hlevel.mem_iff.mp hmem), hleaf]
    have htokens : ((loadedTree array).postOrder.filter fun n => !n.isLeaf).mapM entryDataFree =
        some (((loadedTree array).postOrder.filter fun n => !n.isLeaf).map GNode.data) := by
      refine List.mapM_some_of_forall fun n hn => entryDataFree_eq ?_
      obtain ⟨hmem, hleaf⟩ := List.mem_filter.mp hn
      rw [← hkind n (hpost.mem_iff.mp hmem)]
      simpa using hleaf
    rw [if_neg Bool.false_ne_true, hinfos, htokens]
    refine ⟨_, rfl, ?_⟩
    rw [← List.map_append]
    refine List.Perm.map _ ?_
    have hsplit := List.filter_append_perm GNode.isLeaf (loadedTree array).nodes
    exact ((hlevel.filter _).append (hpost.filter _)).trans hsplit

/-! ## The life of the proxy's tree -/

/-- Whatever libraries there are and whichever clients cannot be created, the
initialisation takes each leaf for what it is and leaves one client or a failure for each
service that is offered. Where none failed no request is answered with a missing client.
At the end the data of each node is freed once, and as what it is. -/
theorem proxy_tree_lifecycle (createUnix : Nat → Bool) (entries : List DirEntry) :
    ∃ p, proxyTreeInit createUnix entries = some p ∧ p.clients.clients.Nodup ∧
      (∀ name, p.clients.Tried name ↔ Offers p.tree name) ∧
      (∀ {V : Type} (env : Environment V) (input : Input), env.tree = p.tree →
        env.findClientByService = p.clients.findClientByService →
        (∀ k, createUnix k = true) → inputProcess env input ≠ .error missingClient) ∧
      ∃ freed, serviceInfoDeinit p.tree = some freed ∧
        freed.Perm (p.tree.nodes.map GNode.data) := by
  have htree := libraryHandlesLoad_tree entries
  obtain ⟨t, ht, hdistinct, htried, hfailures⟩ :=
    clientsInit_loadedTree (librariesArray entries) createUnix
  refine ⟨{ libraryHandlesLoad entries with clients := t }, ?_, hdistinct, ?_, ?_, ?_⟩
  · unfold proxyTreeInit
    dsimp only
    rw [htree, ht]
    rfl
  · intro name
    dsimp only
    rw [htree]
    exact htried name
  · intro V env input hentries hclients hall herror
    obtain ⟨info, params, hfind, hmissing⟩ := inputProcess_missingClient herror
    rw [hentries, htree] at hfind
    have hname := (htried info.serviceName).mpr (offers_of_find _ hfind)
    rw [ProxyClients.Tried, hfailures hall] at hname
    have hfound : info.serviceName ∈ t.clients := by simpa using hname
    rw [hclients, findClientByService_iff.mpr hfound] at hmissing
    cases hmissing
  · dsimp only
    rw [htree]
    exact serviceInfoDeinit_loadedTree _

end Cmsg.Proxy
