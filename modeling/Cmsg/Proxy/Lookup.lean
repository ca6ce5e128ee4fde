import Cmsg.Proxy.Routing

/-! # What the lookup of a URL returns

The comparison of the strings comes before the test for a parameter, so a
segment that is spelled like the token of the parameter in its place leads to
the right node and binds nothing. -/
namespace Cmsg.Proxy
open Cmsg.Base Cmsg.Base.Routes

/-- The tree after the services were loaded into an empty one, and the services
that were added to it. -/
def loadedTree (array : List ServiceInfo) : GNode := serviceInfoInit treeInit array
def loadedInfos (array : List ServiceInfo) : List ServiceInfo := serviceInfosLoaded treeInit array

/-- One parameter for each `{param}` of the template: its name without the braces
and the segment in its place, unescaped. -/
def urlBindings (uriUnescape : CString → Option CString) (template segments : List CString) :
    List UrlParameter :=
  ((template.zip segments).filter fun p => tokenIsUrlParam p.1).map fun p =>
    { key := p.1.tail.dropLast, value := uriUnescape p.2 }

/-- The service answers the request, and the parameters are those of its template. -/
structure AnsweredBy (uriUnescape : CString → Option CString) (url : CString) (verb : HttpVerb)
    (info : ServiceInfo) (params : List UrlParameter) : Prop where
  verb : info.httpVerb = verb
  instantiates : Instantiates tokenIsUrlParam (strtok slash info.urlString) (strtok slash url)
  parameters : params.Perm
    (urlBindings uriUnescape (strtok slash info.urlString) (strtok slash url))

/-- Whatever the lookup returns answers the request, and it returns something
where a service that was loaded answers it. -/
structure RoutesUrl (uriUnescape : CString → Option CString) (array : List ServiceInfo)
    (url : CString) (verb : HttpVerb) : Prop where
  sound : ∀ info params,
    findServiceFromUrlAndVerb uriUnescape (loadedTree array) url verb [] = (some info, params) →
      AnsweredBy uriUnescape url verb info params
  complete : (∀ info ∈ loadedInfos array, allowedConflicts info.urlString = false) →
    (∃ info ∈ loadedInfos array, info.httpVerb = verb ∧
      Instantiates tokenIsUrlParam (strtok slash info.urlString) (strtok slash url)) →
    ∃ info params,
      findServiceFromUrlAndVerb uriUnescape (loadedTree array) url verb [] = (some info, params)

/-- Where the path is routed to a URL with a service for the verb, no segment is
spelled like the `{param}` that it meets on the route. -/
def SpelledApart (array : List ServiceInfo) (url : CString) (verb : HttpVerb) : Prop :=
  ∀ template,
    route tokenIsUrlParam (urlTable (loadedInfos array)) (strtok slash url) = some template →
    (∃ info ∈ loadedInfos array, info.httpVerb = verb ∧ strtok slash info.urlString = template) →
    ∀ p ∈ template.zip (strtok slash url), tokenIsUrlParam p.1 = true → p.1 ≠ p.2

/-! ## The parameters along a route -/

section
variable (uriUnescape : CString → Option CString) {template segments : List CString}

theorem createUrlParameter_param {token : CString} (h : tokenIsUrlParam token = true)
    (segment : CString) : createUrlParameter uriUnescape token segment =
      { key := token.tail.dropLast, value := uriUnescape segment } := by
  have hhead : token.head? = some openBrace := by
    rw [tokenIsUrlParam, Bool.and_eq_true] at h
    simpa using h.1
  rw [createUrlParameter, if_pos hhead, List.dropLast_eq_take, List.drop_one, List.length_tail]
  rfl

theorem takes_of_mem_zip (h : Instantiates tokenIsUrlParam template segments)
    {p : CString × CString} (hp : p ∈ template.zip segments) :
    p.1 = p.2 ∨ tokenIsUrlParam p.1 = true :=
  (List.forall₂_iff_zip.mp h).2 hp

/-- A route binds those of its parameters that are not spelled like their segment. -/
theorem boundParameters_eq (h : Instantiates tokenIsUrlParam template segments) :
    boundParameters uriUnescape template segments =
      (((template.zip segments).filter fun p => tokenIsUrlParam p.1).filter
        fun p => p.1 != p.2).map
          fun p => { key := p.1.tail.dropLast, value := uriUnescape p.2 } := by
  have hfilter : ((template.zip segments).filter fun p => p.1 != p.2) =
      ((template.zip segments).filter fun p => tokenIsUrlParam p.1).filter fun p => p.1 != p.2 := by
    rw [List.filter_filter]
    refine List.filter_congr fun p hp => ?_
    rcases takes_of_mem_zip h hp with he | hw
    · simp [he]
    · simp [hw]
  rw [boundParameters, hfilter]
  refine List.map_congr_left fun p hp => ?_
  have hw : tokenIsUrlParam p.1 = true := by
    simpa using (List.mem_filter.mp (List.mem_filter.mp hp).1).2
  exact createUrlParameter_param uriUnescape hw p.2

theorem boundParameters_of_apart (h : Instantiates tokenIsUrlParam template segments)
    (hapart : ∀ p ∈ template.zip segments, tokenIsUrlParam p.1 = true → p.1 ≠ p.2) :
    boundParameters uriUnescape template segments = urlBindings uriUnescape template segments := by
  rw [boundParameters_eq uriUnescape h, urlBindings, List.filter_eq_self.mpr]
  intro p hp
  obtain ⟨hmem, hw⟩ := List.mem_filter.mp hp
  simpa using hapart p hmem hw

/-- A parameter that is spelled like its segment is missing. -/
theorem length_boundParameters_lt (h : Instantiates tokenIsUrlParam template segments)
    {p : CString × CString} (hp : p ∈ template.zip segments) (hw : tokenIsUrlParam p.1 = true)
    (he : p.1 = p.2) :
    (boundParameters uriUnescape template segments).length <
      (urlBindings uriUnescape template segments).length := by
  rw [boundParameters_eq uriUnescape h, urlBindings, List.length_map, List.length_map,
    List.length_filter_lt_length_iff_exists]
  exact ⟨p, List.mem_filter.mpr ⟨hp, hw⟩, by simp [he]⟩

end

/-! ## The lookup in the loaded tree -/

section
variable (uriUnescape : CString → Option CString) (array : List ServiceInfo)
variable {url : CString} {verb : HttpVerb}

theorem represents_treeInit : Represents treeInit [] := represents_leaf _

theorem represents_loadedTree : Represents (loadedTree array) (urlTable (loadedInfos array)) :=
  represents_treeInit.init array

theorem find_none (verb : HttpVerb)
    (h : route tokenIsUrlParam (urlTable (loadedInfos array)) (strtok slash url) = none)
    (params : List UrlParameter) :
    (findServiceFromUrlAndVerb uriUnescape (loadedTree array) url verb params).1 = none := by
  have hl := (represents_loadedTree array).lookup uriUnescape (strtok slash url) params
  rw [h] at hl
  unfold findServiceFromUrlAndVerb
  split
  · rfl
  · next parent _ heq =>
    rw [heq] at hl
    cases hl

/-- The service loaded last under the URL and the verb is found. -/
theorem find_some (verb : HttpVerb) {template : List CString}
    (h : route tokenIsUrlParam (urlTable (loadedInfos array)) (strtok slash url) = some template)
    (params : List UrlParameter) :
    findServiceFromUrlAndVerb uriUnescape (loadedTree array) url verb params =
      ((here (after template (urlTable (loadedInfos array)))).reverse.find? (·.httpVerb = verb),
        (boundParameters uriUnescape template (strtok slash url)).reverse ++ params) := by
  have hl := (represents_loadedTree array).lookup uriUnescape (strtok slash url) params
  rw [h] at hl
  obtain ⟨n, hn, hl⟩ := hl
  rw [findServiceFromUrlAndVerb, hl]
  exact hn.apiInfo verb _

theorem mem_here_loaded {template : List CString} {info : ServiceInfo} :
    info ∈ here (after template (urlTable (loadedInfos array))) ↔
      info ∈ loadedInfos array ∧ strtok slash info.urlString = template := by
  rw [mem_here_after, mem_urlTable]

theorem find_service_isSome {template : List CString} :
    ((here (after template (urlTable (loadedInfos array)))).reverse.find?
        (·.httpVerb = verb)).isSome ↔
      ∃ info ∈ loadedInfos array, info.httpVerb = verb ∧
        strtok slash info.urlString = template := by
  rw [List.find?_isSome]
  constructor
  · rintro ⟨info, hmem, hverb⟩
    obtain ⟨hl, ht⟩ := (mem_here_loaded array).mp (List.mem_reverse.mp hmem)
    exact ⟨info, hl, by simpa using hverb, ht⟩
  · rintro ⟨info, hl, hverb, ht⟩
    exact ⟨info, List.mem_reverse.mpr ((mem_here_loaded array).mpr ⟨hl, ht⟩), by simpa using hverb⟩

/-- What the lookup returns lies at the end of the route. -/
theorem find_route {info : ServiceInfo} {params : List UrlParameter}
    (h : findServiceFromUrlAndVerb uriUnescape (loadedTree array) url verb [] =
      (some info, params)) :
    info ∈ loadedInfos array ∧ info.httpVerb = verb ∧
      route tokenIsUrlParam (urlTable (loadedInfos array)) (strtok slash url) =
        some (strtok slash info.urlString) ∧
      params =
        (boundParameters uriUnescape (strtok slash info.urlString) (strtok slash url)).reverse := by
  cases hroute : route tokenIsUrlParam (urlTable (loadedInfos array)) (strtok slash url) with
  | none =>
    have hnone := find_none uriUnescape array verb hroute []
    rw [h] at hnone
    cases hnone
  | some template =>
    rw [find_some uriUnescape array verb hroute, List.append_nil, Prod.mk.injEq] at h
    obtain ⟨hfind, rfl⟩ := h
    have hmem := List.mem_reverse.mp (List.mem_of_find?_eq_some hfind)
    obtain ⟨hl, rfl⟩ := (mem_here_loaded array).mp hmem
    exact ⟨hl, by simpa using List.find?_some hfind, rfl, rfl⟩

/-- **Completeness**: without allowed conflicts every URL that was loaded is found. -/
theorem find_complete
    (hurl : ∀ info ∈ loadedInfos array, allowedConflicts info.urlString = false)
    (hsome : ∃ info ∈ loadedInfos array, info.httpVerb = verb ∧
      Instantiates tokenIsUrlParam (strtok slash info.urlString) (strtok slash url)) :
    ∃ info params,
      findServiceFromUrlAndVerb uriUnescape (loadedTree array) url verb [] =
        (some info, params) := by
  obtain ⟨info, hl, hverb, hinst⟩ := hsome
  have hun : Unambiguous tokenIsUrlParam (urlTable (loadedInfos array)) := by
    have hnil : Unambiguous tokenIsUrlParam ([] : UrlTable) := fun e he => absurd he (by simp)
    exact represents_treeInit.unambiguous hnil array hurl
  have hroute := hun.route_eq (mem_urlTable.mpr ⟨hl, rfl⟩) hinst
  have hfind := find_some uriUnescape array verb hroute []
  obtain ⟨found, hfound⟩ := Option.isSome_iff_exists.mp
    ((find_service_isSome array).mpr ⟨info, hl, hverb, rfl⟩)
  rw [hfound] at hfind
  exact ⟨found, _, hfind⟩

/-- **Routing.** The lookup answers a request as it should exactly when no segment
of the path is spelled like the `{param}` that it meets on the route. -/
theorem routesUrl_iff (url : CString) (verb : HttpVerb) :
    RoutesUrl uriUnescape array url verb ↔ SpelledApart array url verb := by
  constructor
  · intro h template hroute hinfo p hp hw he
    have hfind := find_some uriUnescape array verb hroute []
    obtain ⟨found, hfound⟩ := Option.isSome_iff_exists.mp ((find_service_isSome array).mpr hinfo)
    rw [hfound, List.append_nil] at hfind
    obtain ⟨_, _, hroute', _⟩ := find_route uriUnescape array hfind
    rw [hroute, Option.some.injEq] at hroute'
    subst hroute'
    have hlen := (h.sound _ _ hfind).parameters.length_eq
    have hlt := length_boundParameters_lt uriUnescape (route_instantiates hroute) hp hw he
    rw [List.length_reverse] at hlen
    omega
  · intro h
    refine ⟨?_, find_complete uriUnescape array⟩
    intro info params hfind
    obtain ⟨hl, hverb, hroute, rfl⟩ := find_route uriUnescape array hfind
    have hinst := route_instantiates hroute
    have hapart := h _ hroute ⟨info, hl, hverb, rfl⟩
    refine ⟨hverb, hinst, ?_⟩
    rw [boundParameters_of_apart uriUnescape hinst hapart]
    exact List.reverse_perm _

end

/-- A lookup that leaves the parameter out: for the URL `/a/{id}` a request for the
path `/a/{id}` itself. -/
def literalBraces : ServiceInfo :=
  { serviceName := cstr "items"
    inputDesc := ⟨cstr "item_id", [⟨cstr "id", .optional, .string⟩], List.nodup_singleton _⟩
    outputDesc := ⟨cstr "item", [], .nil⟩
    urlString := cstr "/a/{id}"
    httpVerb := .get
    bodyString := [] }

theorem literalBraces_not_routed :
    ¬ RoutesUrl some [literalBraces] (cstr "/a/{id}") .get := by
  intro h
  have hperm := (h.sound literalBraces [] rfl).parameters.length_eq
  revert hperm
  decide

end Cmsg.Proxy
