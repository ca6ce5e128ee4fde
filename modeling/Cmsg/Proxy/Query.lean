import Cmsg.Proxy.Hidden

/-! # Adding parameters to a query

The number of parameters decides whether a body is read as the whole object or as
the value of one field, whatever the parameters are called. -/
namespace Cmsg.Proxy
open Cmsg.Base

/-- The second list of entries has more parameters, all with such keys. -/
inductive AddsTo (unrelated : CString → Prop) : List CString → List CString → Prop
  | nil : AddsTo unrelated [] []
  | keep {entry : CString} {es es' : List CString} (rest : AddsTo unrelated es es') :
      AddsTo unrelated (entry :: es) (entry :: es')
  | add {entry key value : CString} {es es' : List CString}
      (cut : cutLast equalsSign entry = some (key, value)) (hkey : unrelated key)
      (rest : AddsTo unrelated es es') : AddsTo unrelated es (entry :: es')

/-- A query of a request and one with further parameters, whose keys are not names of
fields of the input message. -/
structure Addition (text : Text) (tree : GNode) (url : CString) (verb : HttpVerb) where
  query : Option CString
  query' : Option CString
  adds : ∀ info params, getServiceAndParameters text tree url query verb = some (info, params) →
    AddsTo (fun key => info.inputDesc.getFieldByName key = none) (queryEntries query)
      (queryEntries query')

/-- Whatever else is in the request, and whatever the environment does, both queries
give the same message or the same error. -/
def SameResults (text : Text) (tree : GNode) (url : CString) (verb : HttpVerb)
    (query query' : Option CString) : Prop :=
  ∀ (V : Type) (env : Environment V) (input : Input), env.text = text → env.tree = tree →
    input.url = url → input.httpVerb = verb →
    inputProcess env { input with queryString := query } =
      inputProcess env { input with queryString := query' }

/-! ## The condition -/

/-- The body option names nothing, and every request is refused. -/
def BodyRefused (info : ServiceInfo) : Prop :=
  info.bodyString ≠ [] ∧ info.bodyString.head? ≠ some 0x2a ∧
    msgHasFile info.inputDesc = false ∧ info.inputDesc.getFieldByName info.bodyString = none

/-- An empty value for a field that the body is the value of. -/
def emptyValue (field : FieldDescriptor) : Json :=
  if field.type = .message ∧ field.label ≠ .repeated then .object [] else .array []

/-- The object that an empty body makes. -/
def emptyBodyObject (info : ServiceInfo) : JsonObject :=
  if info.bodyString = [] ∨ info.bodyString.head? = some 0x2a ∨ msgHasFile info.inputDesc = true then
    []
  else
    match info.inputDesc.getFieldByName info.bodyString with
    | none => []
    | some field => [(field.name, emptyValue field)]

/-- The object that a request with an empty body leads to. -/
def emptyRequestObject (text : Text) (info : ServiceInfo) (params : List UrlParameter)
    (webApiInfo : ApiRequestInfo) (fileInfo : ApiFileInfo) (id : Nat) : JsonObject :=
  (emptyBodyObject info).update (settingsObject text info.inputDesc
    (parameterSettings params ++ proxyValues webApiInfo fileInfo id info.inputDesc))

/-- With an empty body both lists of parameters set the same fields in the same order, and
each of them to the same value. -/
def SameObject (text : Text) (info : ServiceInfo) (params params' : List UrlParameter) : Prop :=
  ∀ webApiInfo fileInfo id, uploadRefused fileInfo info.inputDesc = false →
    Members.Same (emptyRequestObject text info params webApiInfo fileInfo id)
      (emptyRequestObject text info params' webApiInfo fileInfo id)

/-- Under the body option `*` both lists of parameters leave one field to the body or
neither does, and the same field. -/
def ReadAlike (info : ServiceInfo) (params params' : List UrlParameter) : Prop :=
  info.bodyString = cstr "*" → msgHasFile info.inputDesc = false →
    (expectedInputFields info.inputDesc params = 1 ↔
      expectedInputFields info.inputDesc params' = 1) ∧
    (expectedInputFields info.inputDesc params = 1 →
      findUnparsedField info.inputDesc params = findUnparsedField info.inputDesc params')

def QueriesAgree (text : Text) (tree : GNode) (url : CString) (verb : HttpVerb)
    (query query' : Option CString) : Prop :=
  ∀ info params params',
    getServiceAndParameters text tree url query verb = some (info, params) →
    getServiceAndParameters text tree url query' verb = some (info, params') →
    BodyRefused info ∨ (SameObject text info params params' ∧ ReadAlike info params params')

/-! ## Requests with the same service -/

section
variable {V : Type} {env : Environment V} {input : Input} {info : ServiceInfo}
variable {params params' : List UrlParameter} {obj : JsonObject}

/-- The service does not depend on the query. -/
theorem getServiceAndParameters_query (text : Text) (tree : GNode) (url : CString) (verb : HttpVerb)
    (query query' : Option CString) :
    (getServiceAndParameters text tree url query verb = none ∧
      getServiceAndParameters text tree url query' verb = none) ∨
    ∃ info params params', getServiceAndParameters text tree url query verb = some (info, params) ∧
      getServiceAndParameters text tree url query' verb = some (info, params') := by
  unfold getServiceAndParameters
  split
  · exact Or.inl ⟨rfl, rfl⟩
  · exact Or.inr ⟨_, _, _, rfl, rfl⟩

/-- What is done for a request with these parameters, after the checks that do not
depend on them. -/
def answerWith (env : Environment V) (input : Input) (info : ServiceInfo)
    (params : List UrlParameter) : Except AntResult (InputMessage V) :=
  match jsonObjectCreate env.text env.jsonLoads input.data info.inputDesc info.bodyString params with
  | .error text => .error ⟨.invalidArgument, cstr "Invalid JSON: " ++ text⟩
  | .ok obj => processObject env input info params obj

theorem inputProcess_eq
    (h : getServiceAndParameters env.text env.tree input.url input.queryString input.httpVerb =
      some (info, params)) :
    inputProcess env input =
      match preApiCheck env.preApiCheckCallback input.httpVerb with
      | .error result => .error result
      | .ok () =>
        match inputDataPresenceAsExpected input.data info.bodyString with
        | .error message => .error ⟨.invalidArgument, message⟩
        | .ok () => answerWith env input info params := by
  unfold inputProcess
  rw [h]
  rfl

theorem jsonObjectCreate_congr (h : ReadAlike info params params') (data : Option (List UInt8)) :
    jsonObjectCreate env.text env.jsonLoads data info.inputDesc info.bodyString params =
      jsonObjectCreate env.text env.jsonLoads data info.inputDesc info.bodyString params' := by
  unfold jsonObjectCreate
  cases data with
  | none => rfl
  | some bytes =>
    cases hfile : msgHasFile info.inputDesc with
    | true => rfl
    | false =>
      by_cases hstar : info.bodyString = cstr "*"
      · obtain ⟨hmode, hfield⟩ := h hstar hfile
        by_cases hone : expectedInputFields info.inputDesc params = 1
        · simp only [hstar, hone, hmode.mp hone, hfield hone]
        · have hone' : ¬ expectedInputFields info.inputDesc params' = 1 := fun h => hone (hmode.mpr h)
          simp only [hstar, hone, hone', ne_eq, not_true_eq_false, or_false, if_false]
      · simp only [hstar, ne_eq, not_false_eq_true, true_or, if_true, if_false]

theorem ne_star_of_head {s : CString} (h : s.head? ≠ some 0x2a) : s ≠ cstr "*" := by
  rintro rfl
  exact h rfl

/-- Where the body option names nothing the parameters do not matter. -/
theorem answerWith_refused (h : BodyRefused info)
    (hpresence : inputDataPresenceAsExpected input.data info.bodyString = .ok ()) :
    answerWith env input info params = answerWith env input info params' := by
  obtain ⟨hne, hhead, hfile, hfield⟩ := h
  have hstar := ne_star_of_head hhead
  unfold answerWith jsonObjectCreate
  cases hdata : input.data with
  | none => simp [inputDataPresenceAsExpected, hdata, hne, hhead] at hpresence
  | some bytes =>
    simp only [hfile, hstar, hfield, ne_eq, not_false_eq_true, true_or, if_true, if_false,
      Bool.false_eq_true]
    cases env.jsonLoads (bytes.takeWhile (· != 0)) <;> rfl

/-- The object made from a body has the shape of the one made from an empty body. -/
theorem emptyBodyObject_cases
    (hpresence : inputDataPresenceAsExpected input.data info.bodyString = .ok ())
    (h : jsonObjectCreate env.text env.jsonLoads input.data info.inputDesc info.bodyString params =
      .ok obj) :
    emptyBodyObject info = [] ∨ ∃ field j, emptyBodyObject info = [(field.name, emptyValue field)] ∧
      obj = [(field.name, j)] := by
  unfold emptyBodyObject
  split
  · exact Or.inl rfl
  · next hcase =>
    obtain ⟨hne, hhead, hfile⟩ : info.bodyString ≠ [] ∧ info.bodyString.head? ≠ some 0x2a ∧
        msgHasFile info.inputDesc = false := by simpa using hcase
    have hstar := ne_star_of_head hhead
    cases hfield : info.inputDesc.getFieldByName info.bodyString with
    | none => exact Or.inl rfl
    | some field =>
      unfold jsonObjectCreate at h
      cases hdata : input.data with
      | none => simp [inputDataPresenceAsExpected, hdata, hne, hhead] at hpresence
      | some bytes =>
        simp only [hdata, hfile, hstar, hfield, ne_eq, not_false_eq_true, true_or, if_true,
          if_false, Bool.false_eq_true] at h
        split at h
        · cases h
        · obtain ⟨j, rfl, _⟩ := jsonFieldCreate_ok h
          exact Or.inr ⟨field, j, rfl, rfl⟩

theorem distinct_emptyRequestObject (text : Text) (info : ServiceInfo) (params : List UrlParameter)
    (webApiInfo : ApiRequestInfo) (fileInfo : ApiFileInfo) (id : Nat) :
    (emptyRequestObject text info params webApiInfo fileInfo id).Distinct := by
  refine Members.Distinct.update ?_ _
  unfold emptyBodyObject
  split
  · exact List.nodup_nil
  · split
    · exact List.nodup_nil
    · exact List.nodup_singleton _

theorem emptyValue_not_nonEmpty (field : FieldDescriptor) : ¬ (emptyValue field).NonEmpty := by
  unfold emptyValue
  split <;> exact id

/-- Parameters that lead to the same object with an empty body do so with any body. -/
theorem finalObject_congr (hobj : SameObject env.text info params params')
    (hup : uploadRefused input.fileInfo info.inputDesc = false)
    (hpresence : inputDataPresenceAsExpected input.data info.bodyString = .ok ())
    (h : jsonObjectCreate env.text env.jsonLoads input.data info.inputDesc info.bodyString params =
      .ok obj) :
    finalObject env input info.inputDesc params obj =
      finalObject env input info.inputDesc params' obj := by
  have hsame := (hobj input.webApiInfo input.fileInfo env.nextStreamId hup).eq
    (distinct_emptyRequestObject ..)
  unfold emptyRequestObject at hsame
  unfold finalObject proxySettings
  rcases emptyBodyObject_cases hpresence h with he | ⟨field, j, he, rfl⟩
  · rw [he, nil_update_settingsObject, nil_update_settingsObject] at hsame
    rw [hsame]
  · rw [he] at hsame
    refine Members.update_single_congr (distinct_settingsObject _ _ _)
      (distinct_settingsObject _ _ _) ?_ ?_ hsame j
    · exact fun hget => emptyValue_not_nonEmpty field (settingsObject_nonEmpty hget)
    · exact fun hget => emptyValue_not_nonEmpty field (settingsObject_nonEmpty hget)

theorem answerWith_congr (hobj : SameObject env.text info params params')
    (hread : ReadAlike info params params')
    (hpresence : inputDataPresenceAsExpected input.data info.bodyString = .ok ()) :
    answerWith env input info params = answerWith env input info params' := by
  unfold answerWith
  rw [← jsonObjectCreate_congr hread]
  split
  · rfl
  · next obj hcreated =>
    rw [processObject_eq, processObject_eq]
    split
    · rfl
    · next hup =>
      rw [finalObject_congr hobj (by simpa using hup) hpresence hcreated]

end

/-- **Queries that agree give the same results.** -/
theorem QueriesAgree.sameResults {text : Text} {tree : GNode} {url : CString} {verb : HttpVerb}
    {query query' : Option CString} (h : QueriesAgree text tree url verb query query') :
    SameResults text tree url verb query query' := by
  rintro V env input rfl rfl rfl rfl
  rcases getServiceAndParameters_query env.text env.tree input.url input.httpVerb query query' with
    ⟨hnone, hnone'⟩ | ⟨info, params, params', hsome, hsome'⟩
  · unfold inputProcess
    simp only [hnone, hnone']
  · rw [@inputProcess_eq V env { input with queryString := query } info params hsome,
      @inputProcess_eq V env { input with queryString := query' } info params' hsome']
    simp only
    split
    · rfl
    · split
      · rfl
      · next hpresence =>
        rcases h info params params' hsome hsome' with hrefused | ⟨hobj, hread⟩
        · exact @answerWith_refused V env { input with queryString := query } info params params'
            hrefused hpresence
        · exact @answerWith_congr V env { input with queryString := query } info params params'
            hobj hread hpresence

/-! ## Telling queries apart

An environment that knows two bodies and whose messages hold the object that they
are made from tells apart all queries that do not agree. -/

def emptyObjectText : CString := [openBrace, closeBrace]
def emptyArrayText : CString := [0x5b, 0x5d]

def probeEnvironment (text : Text) (tree : GNode) (id : Nat) : Environment JsonObject :=
  { text
    tree
    jsonLoads := fun s =>
      if s = emptyObjectText then .ok (.object [])
      else if s = emptyArrayText then .ok (.array [])
      else .error []
    json2protobufObject := fun obj _ => .ok fun _ => some obj
    preApiCheckCallback := none
    findClientByService := fun _ => true
    nextStreamId := id }

def emptyValueText (field : FieldDescriptor) : CString :=
  if field.type = .message ∧ field.label ≠ .repeated then emptyObjectText else emptyArrayText

section
variable {text : Text} {tree : GNode} {url : CString} {verb : HttpVerb}
variable {query query' : Option CString} {info : ServiceInfo} {params params' : List UrlParameter}

/-- The two queries of a service. -/
structure Queries (text : Text) (tree : GNode) (url : CString) (verb : HttpVerb)
    (query query' : Option CString) (info : ServiceInfo) (params params' : List UrlParameter) :
    Prop where
  first : getServiceAndParameters text tree url query verb = some (info, params)
  second : getServiceAndParameters text tree url query' verb = some (info, params')
  same : SameResults text tree url verb query query'

theorem Queries.symm (h : Queries text tree url verb query query' info params params') :
    Queries text tree url verb query' query info params' params where
  first := h.second
  second := h.first
  same V env input htext htree hurl hverb := (h.same V env input htext htree hurl hverb).symm

/-- A message made for the first query is made for the second as well, of the same
object. -/
theorem Queries.probe (h : Queries text tree url verb query query' info params params')
    (id : Nat) (data : Option (List UInt8)) (webApiInfo : ApiRequestInfo) (fileInfo : ApiFileInfo)
    (hup : uploadRefused fileInfo info.inputDesc = false)
    (hpresence : inputDataPresenceAsExpected data info.bodyString = .ok ()) {obj : JsonObject}
    (hcreated : jsonObjectCreate text (probeEnvironment text tree id).jsonLoads data info.inputDesc
      info.bodyString params = .ok obj) :
    ∃ obj', jsonObjectCreate text (probeEnvironment text tree id).jsonLoads data info.inputDesc
        info.bodyString params' = .ok obj' ∧
      obj.update (settingsObject text info.inputDesc
        (parameterSettings params ++ proxyValues webApiInfo fileInfo id info.inputDesc)) =
      obj'.update (settingsObject text info.inputDesc
        (parameterSettings params' ++ proxyValues webApiInfo fileInfo id info.inputDesc)) := by
  have hsame := h.same JsonObject (probeEnvironment text tree id)
    ⟨url, none, verb, data, webApiInfo, fileInfo⟩ rfl rfl rfl rfl
  rw [@inputProcess_eq _ (probeEnvironment text tree id)
      ⟨url, query, verb, data, webApiInfo, fileInfo⟩ info params h.first,
    @inputProcess_eq _ (probeEnvironment text tree id)
      ⟨url, query', verb, data, webApiInfo, fileInfo⟩ info params' h.second] at hsame
  simp only [probeEnvironment, preApiCheck, hpresence] at hsame hcreated ⊢
  unfold answerWith at hsame
  simp only [hcreated] at hsame
  split at hsame
  · rw [processObject_eq] at hsame
    simp only [hup, convertJsonToProtobuf, Bool.false_eq_true, Bool.not_true, if_false] at hsame
    cases hsame
  · next obj' hcreated' =>
    refine ⟨obj', hcreated', ?_⟩
    rw [processObject_eq, processObject_eq] at hsame
    simp only [hup, convertJsonToProtobuf, Bool.false_eq_true, Bool.not_true, if_false,
      Except.map, Except.ok.injEq, InputMessage.mk.injEq, true_and] at hsame
    have hfield := congrFun hsame []
    have hname : ([] : CString) ≠ cstr "_file" := by decide
    unfold messageFields at hfield
    split at hfield
    · simpa [fileDataToMessage, hname, finalObject, proxySettings] using hfield
    · simpa [finalObject, proxySettings] using hfield

theorem jsonLoads_emptyValueText (field : FieldDescriptor) (id : Nat) :
    (probeEnvironment text tree id).jsonLoads ((emptyValueText field).takeWhile (· != 0)) =
      .ok (emptyValue field) := by
  unfold emptyValueText emptyValue
  split <;> rfl

theorem jsonFieldCreate_emptyValue (field : FieldDescriptor) (inputData : CString) :
    jsonFieldCreate text field (emptyValue field) inputData =
      .ok [(field.name, emptyValue field)] := by
  unfold jsonFieldCreate emptyValue
  by_cases hmessage : field.type = .message
  · by_cases hrepeated : field.label = .repeated
    · simp [hmessage, hrepeated, jsonObjectArraySanityCheck]
    · simp [hmessage, hrepeated, jsonObjectSanityCheck, Except.map]
  · simp [hmessage]

/-- The names of the values that the proxy sets are hidden. -/
theorem hidden_of_mem_proxyValues {webApiInfo : ApiRequestInfo} {fileInfo : ApiFileInfo} {id : Nat}
    {desc : MessageDescriptor} {s : CString × Option CString}
    (h : s ∈ proxyValues webApiInfo fileInfo id desc) : fieldIsHidden s.1 = true := by
  unfold proxyValues requestSettings uploadSettings streamSettings at h
  rcases List.mem_append.mp h with h | h
  · rcases List.mem_append.mp h with h | h
    · rcases List.mem_cons.mp h with rfl | h
      · rfl
      · rw [List.mem_singleton.mp h]
        rfl
    · split at h
      · rcases List.mem_cons.mp h with rfl | h
        · rfl
        · rw [List.mem_singleton.mp h]
          rfl
      · cases h
  · split at h
    · rw [List.mem_singleton.mp h]
      rfl
    · cases h

/-- Nothing sets the field that is left to the body. -/
theorem get_unparsedField {desc : MessageDescriptor} {field : FieldDescriptor}
    (h : findUnparsedField desc params = some field) (webApiInfo : ApiRequestInfo)
    (fileInfo : ApiFileInfo) (id : Nat) :
    (settingsObject text desc
      (parameterSettings params ++ proxyValues webApiInfo fileInfo id desc)).get field.name =
        none := by
  have hfound := List.find?_some h
  rw [Bool.and_eq_true] at hfound
  rw [Members.get_eq_none, mem_keys_settingsObject]
  rintro ⟨s, hs, hname, _⟩
  rcases List.mem_append.mp hs with hs | hs
  · obtain ⟨p, hp, rfl⟩ := List.mem_map.mp hs
    have hany : (params.any fun p => p.key == field.name) = true :=
      List.any_eq_true.mpr ⟨p, hp, by simpa using hname⟩
    rw [hany] at hfound
    exact absurd hfound.2 (by simp)
  · have hhidden := hidden_of_mem_proxyValues hs
    rw [hname] at hhidden
    rw [hhidden] at hfound
    exact absurd hfound.1 (by simp)

theorem Queries.sameObject (h : Queries text tree url verb query query' info params params')
    (hnot : ¬ BodyRefused info) : SameObject text info params params' := by
  intro webApiInfo fileInfo id hup
  have hstart : ∃ data, inputDataPresenceAsExpected data info.bodyString = .ok () ∧
      ∀ params, jsonObjectCreate text (probeEnvironment text tree id).jsonLoads data
        info.inputDesc info.bodyString params = .ok (emptyBodyObject info) := by
    by_cases hnone : info.bodyString = [] ∨ info.bodyString.head? = some 0x2a
    · refine ⟨none, ?_, ?_⟩
      · unfold inputDataPresenceAsExpected
        rcases hnone with hnil | hhead
        · simp [hnil]
        · by_cases hnil : info.bodyString = [] <;> simp [hhead, hnil]
      · intro params
        rcases hnone with hnil | hhead
        · simp [jsonObjectCreate, emptyBodyObject, hnil]
        · simp [jsonObjectCreate, emptyBodyObject, hhead]
    · rw [not_or] at hnone
      obtain ⟨hnil, hhead⟩ := hnone
      have hstar := ne_star_of_head hhead
      cases hfile : msgHasFile info.inputDesc with
      | true =>
        refine ⟨some [], by simp [inputDataPresenceAsExpected, hnil], ?_⟩
        intro params
        simp [jsonObjectCreate, emptyBodyObject, hfile]
      | false =>
        cases hfield : info.inputDesc.getFieldByName info.bodyString with
        | none => exact absurd ⟨hnil, hhead, hfile, hfield⟩ hnot
        | some field =>
          refine ⟨some (emptyValueText field), by simp [inputDataPresenceAsExpected, hnil], ?_⟩
          intro params
          simp only [jsonObjectCreate, emptyBodyObject, hfile, hstar, hnil, hhead, hfield, ne_eq,
            not_false_eq_true, true_or, or_self, if_true, if_false, Bool.false_eq_true,
            jsonLoads_emptyValueText, jsonFieldCreate_emptyValue]
  obtain ⟨data, hpresence, hcreated⟩ := hstart
  obtain ⟨obj', hcreated', heq⟩ :=
    h.probe id data webApiInfo fileInfo hup hpresence (hcreated params)
  rw [hcreated params'] at hcreated'
  cases hcreated'
  unfold emptyRequestObject
  rw [heq]
  exact .refl _

section
variable (h : Queries text tree url verb query query' info params params')
variable (hstar : info.bodyString = cstr "*") (hfile : msgHasFile info.inputDesc = false)
include h hstar hfile

theorem Queries.unparsedField (hone : expectedInputFields info.inputDesc params = 1)
    {field : FieldDescriptor} (hfield : findUnparsedField info.inputDesc params = some field) :
    expectedInputFields info.inputDesc params' = 1 ∧
      findUnparsedField info.inputDesc params' = some field := by
  have hpresence : inputDataPresenceAsExpected (some (emptyValueText field)) info.bodyString =
      .ok () := by
    rw [hstar]
    rfl
  have hcreated : jsonObjectCreate text (probeEnvironment text tree 0).jsonLoads
      (some (emptyValueText field)) info.inputDesc info.bodyString params =
        .ok [(field.name, emptyValue field)] := by
    simp only [jsonObjectCreate, hfile, hstar, hone, hfield, ne_eq, not_true_eq_false, or_true,
      if_true, if_false, Bool.false_eq_true, jsonLoads_emptyValueText, jsonFieldCreate_emptyValue]
  obtain ⟨obj', hcreated', heq⟩ :=
    h.probe 0 _ ⟨none, none⟩ ⟨false, none, none⟩ rfl hpresence hcreated
  have hget := congrArg (Members.get · field.name) heq
  simp only [Members.get_update _ (distinct_settingsObject _ _ _), get_unparsedField hfield,
    Option.none_or, Members.get_cons, if_true] at hget
  -- no parameter gives the empty value, so the body of the second request does
  have hobj' : obj'.get field.name = some (emptyValue field) := by
    cases hset : (settingsObject text info.inputDesc (parameterSettings params' ++
      proxyValues ⟨none, none⟩ ⟨false, none, none⟩ 0 info.inputDesc)).get field.name with
    | none =>
      rw [hset, Option.none_or] at hget
      exact hget.symm
    | some j =>
      rw [hset, Option.some_or] at hget
      cases hget
      exact absurd (settingsObject_nonEmpty hset) (emptyValue_not_nonEmpty field)
  by_cases hone' : expectedInputFields info.inputDesc params' = 1
  · refine ⟨hone', ?_⟩
    simp only [jsonObjectCreate, hfile, hstar, hone', ne_eq, not_true_eq_false, or_true,
      if_true, if_false, Bool.false_eq_true, jsonLoads_emptyValueText] at hcreated'
    cases hfield' : findUnparsedField info.inputDesc params' with
    | none =>
      rw [hfield'] at hcreated'
      cases hcreated'
    | some field' =>
      rw [hfield'] at hcreated'
      obtain ⟨j, rfl, _⟩ := jsonFieldCreate_ok hcreated'
      rw [Members.get_cons] at hobj'
      split at hobj'
      · next hname =>
        have hfound := getFieldByName_eq_some.mpr ⟨List.mem_of_find?_eq_some hfield, rfl⟩
        have hfound' := getFieldByName_eq_some.mpr ⟨List.mem_of_find?_eq_some hfield', hname⟩
        exact hfound'.symm.trans hfound
      · cases hobj'
  · exfalso
    simp only [jsonObjectCreate, hfile, hstar, hone', ne_eq, not_true_eq_false, or_false,
      if_false, Bool.false_eq_true, jsonLoads_emptyValueText] at hcreated'
    unfold emptyValue at hcreated'
    split at hcreated'
    · cases hcreated'
      cases hobj'
    · cases hcreated'

theorem Queries.unparsedField_eq (hone : expectedInputFields info.inputDesc params = 1) :
    expectedInputFields info.inputDesc params' = 1 ∧
      findUnparsedField info.inputDesc params = findUnparsedField info.inputDesc params' := by
  cases hfield : findUnparsedField info.inputDesc params with
  | some field =>
    obtain ⟨hone', hfield'⟩ := h.unparsedField hstar hfile hone hfield
    exact ⟨hone', hfield'.symm⟩
  | none =>
    by_cases hone' : expectedInputFields info.inputDesc params' = 1
    · refine ⟨hone', ?_⟩
      cases hfield' : findUnparsedField info.inputDesc params' with
      | none => rfl
      | some field =>
        have hback := (h.symm.unparsedField hstar hfile hone' hfield').2
        rw [hfield] at hback
        cases hback
    · -- the empty object is taken as a whole by the second request alone
      exfalso
      have hpresence : inputDataPresenceAsExpected (some emptyObjectText) info.bodyString =
          .ok () := by
        rw [hstar]
        rfl
      have hloads : (probeEnvironment text tree 0).jsonLoads
          (emptyObjectText.takeWhile (· != 0)) = .ok (.object []) := rfl
      have hcreated' : jsonObjectCreate text (probeEnvironment text tree 0).jsonLoads
          (some emptyObjectText) info.inputDesc info.bodyString params' = .ok [] := by
        simp only [jsonObjectCreate, hfile, hstar, hone', ne_eq, not_true_eq_false, or_false,
          if_false, Bool.false_eq_true, hloads]
        rfl
      obtain ⟨obj, hcreated, _⟩ :=
        h.symm.probe 0 _ ⟨none, none⟩ ⟨false, none, none⟩ rfl hpresence hcreated'
      simp only [jsonObjectCreate, hfile, hstar, hone, hfield, ne_eq, not_true_eq_false, or_true,
        if_true, if_false, Bool.false_eq_true, hloads] at hcreated
      cases hcreated

end

theorem Queries.readAlike (h : Queries text tree url verb query query' info params params') :
    ReadAlike info params params' := by
  intro hstar hfile
  refine ⟨⟨?_, ?_⟩, ?_⟩
  · exact fun hone => (h.unparsedField_eq hstar hfile hone).1
  · exact fun hone => (h.symm.unparsedField_eq hstar hfile hone).1
  · exact fun hone => (h.unparsedField_eq hstar hfile hone).2

theorem SameResults.queriesAgree (h : SameResults text tree url verb query query') :
    QueriesAgree text tree url verb query query' := by
  intro info params params' hfirst hsecond
  have hq : Queries text tree url verb query query' info params params' := ⟨hfirst, hsecond, h⟩
  by_cases hrefused : BodyRefused info
  · exact Or.inl hrefused
  · exact Or.inr ⟨hq.sameObject hrefused, hq.readAlike⟩

/-- **Noninterference.** Further parameters that name no field leave the result of
every request as it is exactly when both queries are read alike. -/
theorem addition_iff (a : Addition text tree url verb) :
    SameResults text tree url verb a.query a.query' ↔
      QueriesAgree text tree url verb a.query a.query' :=
  ⟨SameResults.queriesAgree, QueriesAgree.sameResults⟩

end

/-! ## Keys without braces -/

section
variable (uriUnescape : CString → Option CString) {desc : MessageDescriptor}

/-- The parameters that are fields of the message or may block one. -/
def relevant (desc : MessageDescriptor) (p : UrlParameter) : Bool :=
  (desc.getFieldByName p.key).isSome || p.key.head? == some openBrace

theorem createUrlParameter_key {key : CString} (h : key.head? ≠ some openBrace) (value : CString) :
    (createUrlParameter uriUnescape key value).key = key := by
  rw [createUrlParameter, if_neg h]

theorem any_key_filter (params : List UrlParameter) {key : CString}
    (hkey : ((desc.getFieldByName key).isSome || key.head? == some openBrace) = true) :
    (params.any fun p => p.key == key) =
      ((params.filter (relevant desc)).any fun p => p.key == key) := by
  induction params with
  | nil => rfl
  | cons p params ih =>
    rw [List.any_cons, ih, List.filter_cons]
    by_cases hp : p.key = key
    · have : relevant desc p = true := by rw [relevant, hp]; exact hkey
      simp [this, hp]
    · by_cases hr : relevant desc p = true
      · simp [hr]
      · simp [hr, hp]

/-- Further parameters without braces that name no field leave the others as they are. -/
theorem filter_relevant {es es' : List CString}
    (h : AddsTo (fun key => desc.getFieldByName key = none ∧ key.head? ≠ some openBrace) es es')
    {params params' : List UrlParameter}
    (heq : params.filter (relevant desc) = params'.filter (relevant desc)) :
    (es.foldl (parseQueryEntry uriUnescape) params).filter (relevant desc) =
      (es'.foldl (parseQueryEntry uriUnescape) params').filter (relevant desc) := by
  have hplain : ∀ {key : CString} (value : CString) (params : List UrlParameter),
      desc.getFieldByName key = none → key.head? ≠ some openBrace →
        ((if params.any fun p => p.key == key then params
          else createUrlParameter uriUnescape key value :: params).filter (relevant desc)) =
            params.filter (relevant desc) := by
    intro key value params hfield hbrace
    split
    · rfl
    · rw [List.filter_cons, relevant, createUrlParameter_key uriUnescape hbrace]
      simp [hfield, hbrace]
  induction h generalizing params params' with
  | nil => exact heq
  | @keep entry es es' _ ih =>
    refine ih ?_
    unfold parseQueryEntry
    cases hcut : cutLast equalsSign entry with
    | none => exact heq
    | some cut =>
      obtain ⟨key, value⟩ := cut
      simp only
      by_cases hkey : ((desc.getFieldByName key).isSome || key.head? == some openBrace) = true
      · rw [any_key_filter params hkey, any_key_filter params' hkey, heq]
        split
        · exact heq
        · rw [List.filter_cons, List.filter_cons, heq]
      · obtain ⟨hfield, hbrace⟩ : desc.getFieldByName key = none ∧ key.head? ≠ some openBrace := by
          simpa using hkey
        rw [hplain value params hfield hbrace, hplain value params' hfield hbrace, heq]
  | @add entry key value es es' hcut hkey _ ih =>
    refine ih ?_
    unfold parseQueryEntry
    rw [hcut]
    exact heq.trans (hplain value params' hkey.1 hkey.2).symm

theorem settingsObject_relevant (text : Text) (desc : MessageDescriptor)
    (params : List UrlParameter) :
    settingsObject text desc (parameterSettings params) =
      settingsObject text desc (parameterSettings (params.filter (relevant desc))) := by
  have hfilter : parameterSettings (params.filter (relevant desc)) =
      (parameterSettings params).filter fun s =>
        (desc.getFieldByName s.1).isSome || s.1.head? == some openBrace := by
    rw [parameterSettings, parameterSettings, List.filter_map]
    rfl
  rw [hfilter, settingsObject_filter]
  intro s _ hs
  have hfield : desc.getFieldByName s.1 = none := by
    rw [Bool.or_eq_false_iff] at hs
    simpa using hs.1
  rw [settingObject, hfield]
  rfl

/-- Further parameters without braces lead to the same object. -/
theorem sameObject_of_unbraced {text : Text} {info : ServiceInfo} {es es' : List CString}
    (h : AddsTo (fun key => info.inputDesc.getFieldByName key = none ∧
      key.head? ≠ some openBrace) es es') (params : List UrlParameter) :
    SameObject text info (es.foldl (parseQueryEntry text.uriUnescape) params)
      (es'.foldl (parseQueryEntry text.uriUnescape) params) := by
  intro webApiInfo fileInfo id _
  have hrelevant := @filter_relevant text.uriUnescape info.inputDesc es es' h params params rfl
  unfold emptyRequestObject
  rw [settingsObject_append, settingsObject_append, settingsObject_relevant, hrelevant,
    ← settingsObject_relevant]
  exact .refl _

end

/-! ## A key that changes the result -/

/-- An API whose body is the whole message of two fields. -/
def createItem : ServiceInfo :=
  { serviceName := cstr "items"
    inputDesc :=
      ⟨cstr "item", [⟨cstr "kind", .optional, .string⟩, ⟨cstr "name", .optional, .string⟩],
        by decide⟩
    outputDesc := ⟨cstr "items", [], noFields_distinct⟩
    urlString := cstr "/items"
    httpVerb := .post
    bodyString := cstr "*" }

def createEnvironment : Environment Json :=
  { itemsEnvironment with
    tree := loadedTree [createItem]
    jsonLoads := fun s =>
      if s = emptyObjectText then .ok (.object []) else .error (cstr "invalid token") }

/-- The key `debug` is not the name of a field. -/
def debugAddition :
    Addition createEnvironment.text createEnvironment.tree (cstr "/items") .post where
  query := none
  query' := some (cstr "debug=1")
  adds info params h := by
    cases h
    exact .add rfl rfl .nil

theorem debug_changes_result :
    ¬ SameResults createEnvironment.text createEnvironment.tree (cstr "/items") .post
      debugAddition.query debugAddition.query' := by
  intro h
  have hsame := h Json createEnvironment
    ⟨cstr "/items", none, .post, some emptyObjectText, ⟨none, none⟩, ⟨false, none, none⟩⟩
    rfl rfl rfl rfl
  have hok := congrArg Except.isOk hsame
  revert hok
  decide

end Cmsg.Proxy
