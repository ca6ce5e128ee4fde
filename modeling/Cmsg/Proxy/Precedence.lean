import Cmsg.Proxy.Query

/-! # Which parameter sets a field

The parameters of the path and of the query are put in front of one list, and the list
is applied from its front, so the parameter that was put there first has the last word.
What the proxy sets itself comes after that. -/
namespace Cmsg.Proxy
open Cmsg.Base Cmsg.Base.Routes

/-! ## The object that is converted -/

section
variable {V : Type}

/-- The part of `cmsg_proxy_input_process` before the conversion: the service, and the
object that is converted to its input message. -/
def conversionObject (env : Environment V) (input : Input) :
    Except AntResult (ServiceInfo × JsonObject) :=
  match getServiceAndParameters env.text env.tree input.url input.queryString input.httpVerb with
  | none => .error ⟨.unimplemented, cstr "Unknown url and verb combination"⟩
  | some (info, params) =>
    match preApiCheck env.preApiCheckCallback input.httpVerb with
    | .error result => .error result
    | .ok () =>
      match inputDataPresenceAsExpected input.data info.bodyString with
      | .error message => .error ⟨.invalidArgument, message⟩
      | .ok () =>
        match jsonObjectCreate env.text env.jsonLoads input.data info.inputDesc info.bodyString
          params with
        | .error text => .error ⟨.invalidArgument, cstr "Invalid JSON: " ++ text⟩
        | .ok obj =>
          if uploadRefused input.fileInfo info.inputDesc then
            .error ⟨.invalidArgument, cstr "API does not accept uploaded files as input data"⟩
          else if !env.findClientByService info.serviceName then
            .error ⟨.internal, cstr "Client not found in proxy_clients_list"⟩
          else .ok (info, finalObject env input info.inputDesc params obj)

/-- The message that the values which were converted make. -/
def messageOf (env : Environment V) (input : Input) (info : ServiceInfo)
    (values : CString → Option V) : InputMessage V :=
  { serviceInfo := info
    streamingId := if streamingIsRequired info.inputDesc then some env.nextStreamId else none
    isFileInput := msgHasFile info.inputDesc
    field := messageFields input info.inputDesc values }

/-- Processing converts that object and no other. -/
theorem inputProcess_conversion (env : Environment V) (input : Input) :
    inputProcess env input = (conversionObject env input).bind fun r =>
      (convertJsonToProtobuf env r.2 r.1.inputDesc).map (messageOf env input r.1) := by
  unfold inputProcess conversionObject
  cases getServiceAndParameters env.text env.tree input.url input.queryString input.httpVerb with
  | none => rfl
  | some r =>
    obtain ⟨info, params⟩ := r
    dsimp only
    cases preApiCheck env.preApiCheckCallback input.httpVerb with
    | error result => rfl
    | ok _ =>
      dsimp only
      cases inputDataPresenceAsExpected input.data info.bodyString with
      | error message => rfl
      | ok _ =>
        dsimp only
        cases jsonObjectCreate env.text env.jsonLoads input.data info.inputDesc info.bodyString
          params with
        | error text => rfl
        | ok body =>
          dsimp only
          rw [processObject_eq]
          split
          · rfl
          · split
            · rfl
            · rfl

/-- Where an object is converted, the checks before it were passed. -/
theorem conversionObject_ok {env : Environment V} {input : Input} {info : ServiceInfo}
    {obj : JsonObject} (h : conversionObject env input = .ok (info, obj)) :
    ∃ params body, getServiceAndParameters env.text env.tree input.url input.queryString
        input.httpVerb = some (info, params) ∧
      obj = finalObject env input info.inputDesc params body := by
  unfold conversionObject at h
  split at h
  · cases h
  · next found params hlookup =>
    split at h
    · cases h
    · split at h
      · cases h
      · split at h
        · cases h
        · next body _ =>
          split at h
          · cases h
          · split at h
            · cases h
            · obtain ⟨rfl, rfl⟩ := Prod.mk.inj (Except.ok.inj h)
              exact ⟨params, body, hlookup, rfl⟩

end

/-! ## The value that a parameter stands for -/

/-- The types of fields that a text can be converted to. -/
def FieldType.takesText : FieldType → Bool
  | .float | .double | .bytes | .message => false
  | _ => true

/-- What the field is set to: nothing where the value could not be unescaped, and the
text itself where it is not in the form of the field's type. -/
def parameterJson (field : FieldDescriptor) (value : Option CString) : Json :=
  let json := match value with
    | none => Json.null
    | some s =>
      match field.type with
      | .int32 | .sint32 | .sfixed32 | .uint32 | .fixed32 =>
        if (strtoll s).2.isEmpty then .int (strtoll s).1 else .string s
      | .bool => if s = cstr "false" ∨ s = cstr "true" then .bool (s != cstr "false") else .string s
      | _ => .string s
  if field.label = .repeated then .array [json] else json

/-- A value that is text, or none. -/
def IsText (text : Text) (value : Option CString) : Prop := ∀ s, value = some s → text.utf8 s = true

theorem jsonValueToObject_of_isText {text : Text} {field : FieldDescriptor} {value : Option CString}
    (htype : field.type.takesText = true) (h : IsText text value) :
    jsonValueToObject text field value = some [(field.name, parameterJson field value)] := by
  cases value with
  | none => rfl
  | some s =>
    have hutf8 := h s rfl
    unfold jsonValueToObject parameterJson
    cases hty : field.type <;> rw [hty] at htype
    case float | double | bytes | message => cases htype
    case uint64 | int64 | sint64 | sfixed64 | fixed64 | enum | string =>
      simp [jsonValueHandleAsString, hutf8, packField]
    all_goals
      dsimp only
      split
      · simp_all [packField]
      · simp_all [packField, jsonValueHandleAsString]

/-! ## Settings of one field -/

section
variable {text : Text} {desc : MessageDescriptor}

/-- The last setting of a field decides. -/
theorem get_settingsObject_last {settings : Settings} {name : CString} {value : Option CString}
    {j : Json} (h : settings.reverse.find? (·.1 = name) = some (name, value))
    (hset : settingObject text desc (name, value) = [(name, j)]) :
    (settingsObject text desc settings).get name = some j := by
  obtain ⟨_, later, earlier, hsplit, hlater⟩ := List.find?_eq_some_iff_append.mp h
  have hlist : settings = earlier.reverse ++ [(name, value)] ++ later.reverse := by
    rw [← List.reverse_reverse settings, hsplit]
    simp
  have hnone : (settingsObject text desc later.reverse).get name = none := by
    rw [get_settingsObject_eq_none]
    rintro ⟨s, hs, hname, _⟩
    have hne := hlater s (List.mem_reverse.mp hs)
    simp [hname] at hne
  have hone : settingsObject text desc [(name, value)] = [(name, j)] := by
    rw [settingsObject, List.map_singleton, hset]
    rfl
  have hsingle : Members.Distinct [(name, j)] := List.nodup_singleton name
  rw [hlist, settingsObject_append, settingsObject_append, hone,
    Members.get_update _ (distinct_settingsObject _ _ _), hnone, Option.none_or,
    Members.get_update _ hsingle, Members.get_cons, if_pos rfl]
  rfl

/-! ## The parameters in the order of the request -/

/-- What the path binds: the parameters of the template, each with its segment. A
segment that is spelled like the parameter leads on without binding it. -/
def pathBindings (uriUnescape : CString → Option CString) (info : ServiceInfo) (url : CString) :
    List UrlParameter :=
  boundParameters uriUnescape (strtok slash info.urlString) (strtok slash url)

def queryBinding (uriUnescape : CString → Option CString) (entry : CString) : Option UrlParameter :=
  (cutLast equalsSign entry).map fun kv => createUrlParameter uriUnescape kv.1 kv.2

/-- What the query binds, entry by entry. -/
def queryBindings (uriUnescape : CString → Option CString) (queryString : Option CString) :
    List UrlParameter :=
  (queryEntries queryString).filterMap (queryBinding uriUnescape)

/-- After the entries `before` comes the first one that binds the name: its key, with any
braces that are written around it, and its value. -/
structure BindsFirst (uriUnescape : CString → Option CString) (entries : List CString)
    (name : CString) (before : List CString) (key value : CString) : Prop where
  entry : ∃ entry after, entries = before ++ entry :: after ∧
    cutLast equalsSign entry = some (key, value)
  binds : (createUrlParameter uriUnescape key value).key = name
  first : ∀ p ∈ before.filterMap (queryBinding uriUnescape), p.key ≠ name

section
variable (uriUnescape : CString → Option CString)

/-- Parameters of the query go in front of those that are there. -/
theorem parseQueryEntries_prefix (entries : List CString) (params : List UrlParameter) :
    ∃ added, (entries.foldl (parseQueryEntry uriUnescape) params).reverse =
      params.reverse ++ added := by
  induction entries generalizing params with
  | nil => exact ⟨[], (List.append_nil _).symm⟩
  | cons entry entries ih =>
    rw [List.foldl_cons]
    obtain ⟨added, hadded⟩ := ih (parseQueryEntry uriUnescape params entry)
    have hentry : ∃ first, (parseQueryEntry uriUnescape params entry).reverse =
        params.reverse ++ first := by
      unfold parseQueryEntry
      split
      · exact ⟨[], (List.append_nil _).symm⟩
      · split
        · exact ⟨[], (List.append_nil _).symm⟩
        · exact ⟨_, List.reverse_cons⟩
    obtain ⟨first, hfirst⟩ := hentry
    exact ⟨first ++ added, by rw [hadded, hfirst, List.append_assoc]⟩

/-- What is in the list was there or is bound by an entry. -/
theorem mem_parseQueryEntries {entries : List CString} {params : List UrlParameter}
    {p : UrlParameter} (hp : p ∈ entries.foldl (parseQueryEntry uriUnescape) params) :
    p ∈ params ∨ p ∈ entries.filterMap (queryBinding uriUnescape) := by
  induction entries generalizing params with
  | nil => exact .inl hp
  | cons entry entries ih =>
    rw [List.foldl_cons] at hp
    rcases ih hp with hold | hnew
    · unfold parseQueryEntry at hold
      split at hold
      · exact .inl hold
      · next key value hcut =>
        split at hold
        · exact .inl hold
        · rcases List.mem_cons.mp hold with rfl | hold
          · exact .inr (List.mem_filterMap.mpr ⟨entry, by simp, by rw [queryBinding, hcut]; rfl⟩)
          · exact .inl hold
    · refine .inr ?_
      obtain ⟨e, he, hbinding⟩ := List.mem_filterMap.mp hnew
      exact List.mem_filterMap.mpr ⟨e, by simp [he], hbinding⟩

/-- The first entry that binds a name is found, unless a parameter that was taken before
it has just the key that is written. -/
theorem find_parseQueryEntries {entries before : List CString} {name key value : CString}
    {params : List UrlParameter} (hparams : ∀ p ∈ params, p.key ≠ name)
    (h : BindsFirst uriUnescape entries name before key value)
    (hkey : ∀ p ∈ before.foldl (parseQueryEntry uriUnescape) params, p.key ≠ key) :
    (entries.foldl (parseQueryEntry uriUnescape) params).reverse.find? (·.key = name) =
      some (createUrlParameter uriUnescape key value) := by
  obtain ⟨entry, after, rfl, hcut⟩ := h.entry
  rw [List.foldl_append, List.foldl_cons]
  generalize htaken : before.foldl (parseQueryEntry uriUnescape) params = taken at hkey
  have hentry : parseQueryEntry uriUnescape taken entry =
      createUrlParameter uriUnescape key value :: taken := by
    unfold parseQueryEntry
    rw [hcut]
    have hnone : (taken.any fun p => p.key == key) = false := by
      rw [List.any_eq_false]
      exact fun p hp he => hkey p hp (beq_iff_eq.mp he)
    simp only [hnone, Bool.false_eq_true, if_false]
  have hearlier : taken.reverse.find? (·.key = name) = none := by
    rw [List.find?_eq_none]
    intro p hp he
    rw [List.mem_reverse, ← htaken] at hp
    rcases mem_parseQueryEntries uriUnescape hp with hp | hp
    · exact hparams p hp (by simpa using he)
    · exact h.first p hp (by simpa using he)
  obtain ⟨added, hadded⟩ := parseQueryEntries_prefix uriUnescape after
    (createUrlParameter uriUnescape key value :: taken)
  rw [hentry, hadded, List.reverse_cons, List.find?_append, List.find?_append, hearlier,
    Option.none_or, List.find?_cons_of_pos (by simp [h.binds])]
  rfl

end

end

/-! ## Precedence -/

section
variable {V : Type} {env : Environment V} {input : Input} {info : ServiceInfo}
variable {params : List UrlParameter} {field : FieldDescriptor}

/-- The parameters of a request, from the last one in the list to the first. -/
theorem getServiceAndParameters_ok {array : List ServiceInfo} (htree : env.tree = loadedTree array)
    (h : getServiceAndParameters env.text env.tree input.url input.queryString input.httpVerb =
      some (info, params)) :
    params = (queryEntries input.queryString).foldl (parseQueryEntry env.text.uriUnescape)
      (pathBindings env.text.uriUnescape info input.url).reverse := by
  rw [htree] at h
  unfold getServiceAndParameters at h
  split at h
  · cases h
  · next found pathParams hfind =>
    obtain ⟨rfl, rfl⟩ := Prod.mk.inj (Option.some.inj h)
    obtain ⟨_, _, _, rfl⟩ := find_route env.text.uriUnescape array hfind
    rfl

/-- Unless the proxy sets the field itself, the parameter that was added first does. -/
theorem get_finalObject_first {p : UrlParameter} {body : JsonObject}
    (hfield : field ∈ info.inputDesc.fields) (htype : field.type.takesText = true)
    (hown : ¬ Sets env.text info.inputDesc (proxySettings env input info.inputDesc) field.name)
    (hfirst : params.reverse.find? (·.key = field.name) = some p) (hvalue : IsText env.text p.value) :
    (finalObject env input info.inputDesc params body).get field.name =
      some (parameterJson field p.value) := by
  have hkey : p.key = field.name := by simpa using List.find?_some hfirst
  have hlast : (parameterSettings params).reverse.find? (·.1 = field.name) =
      some (field.name, p.value) := by
    rw [parameterSettings, ← List.map_reverse, List.find?_map]
    have hsame : ((fun s : CString × Option CString => decide (s.1 = field.name)) ∘
        fun p : UrlParameter => (p.key, p.value)) = fun p => decide (p.key = field.name) := rfl
    rw [hsame, hfirst, Option.map_some, hkey]
  have hset : settingObject env.text info.inputDesc (field.name, p.value) =
      [(field.name, parameterJson field p.value)] := by
    rw [settingObject, getFieldByName_eq_some.mpr ⟨hfield, rfl⟩, Option.bind_some,
      jsonValueToObject_of_isText htype hvalue]
    rfl
  rw [get_finalObject, get_settingsObject_eq_none.mpr hown, Option.none_or,
    get_settingsObject_last hlast hset]
  rfl

/-- **Precedence.** A field that the proxy does not set itself is set by the first
parameter of the path that binds it, and by the first one of the query where none of
the path does and no parameter that was taken before it has its key, braces and all. -/
theorem parameters_before_body {array : List ServiceInfo} (htree : env.tree = loadedTree array)
    {obj : JsonObject} (h : conversionObject env input = .ok (info, obj))
    (hfield : field ∈ info.inputDesc.fields) (htype : field.type.takesText = true)
    (hown : ¬ Sets env.text info.inputDesc (proxySettings env input info.inputDesc) field.name) :
    (∀ p, (pathBindings env.text.uriUnescape info input.url).find? (·.key = field.name) = some p →
      IsText env.text p.value → obj.get field.name = some (parameterJson field p.value)) ∧
    ((∀ p ∈ pathBindings env.text.uriUnescape info input.url, p.key ≠ field.name) →
      ∀ before key value, BindsFirst env.text.uriUnescape (queryEntries input.queryString)
          field.name before key value →
        (∀ p ∈ before.foldl (parseQueryEntry env.text.uriUnescape)
          (pathBindings env.text.uriUnescape info input.url).reverse, p.key ≠ key) →
        IsText env.text (env.text.uriUnescape value) →
        obj.get field.name = some (parameterJson field (env.text.uriUnescape value))) := by
  obtain ⟨params, body, hlookup, rfl⟩ := conversionObject_ok h
  have hparams := getServiceAndParameters_ok htree hlookup
  constructor
  · intro p hp hvalue
    refine get_finalObject_first hfield htype hown ?_ hvalue
    obtain ⟨added, hadded⟩ := parseQueryEntries_prefix env.text.uriUnescape
      (queryEntries input.queryString) (pathBindings env.text.uriUnescape info input.url).reverse
    rw [hparams, hadded, List.reverse_reverse, List.find?_append, hp]
    rfl
  · intro hpath before key value hbinds hkey hvalue
    refine get_finalObject_first (p := createUrlParameter env.text.uriUnescape key value) hfield
      htype hown ?_ hvalue
    rw [hparams]
    exact find_parseQueryEntries env.text.uriUnescape
      (fun q hq => hpath q (List.mem_reverse.mp hq)) hbinds hkey

end

/-! ## Requests with other results -/

/-- Precedence without any condition, for the parameters as they are written. -/
def ParametersFirst {V : Type} (env : Environment V) (input : Input) : Prop :=
  ∀ info obj, conversionObject env input = .ok (info, obj) →
    ∀ field ∈ info.inputDesc.fields, field.type.takesText = true →
      (∀ p, (urlBindings env.text.uriUnescape (strtok slash info.urlString)
          (strtok slash input.url)).find? (·.key = field.name) = some p →
        obj.get field.name = some (parameterJson field p.value)) ∧
      ((∀ p ∈ urlBindings env.text.uriUnescape (strtok slash info.urlString)
          (strtok slash input.url), p.key ≠ field.name) →
        ∀ p, (queryBindings env.text.uriUnescape input.queryString).find? (·.key = field.name) =
            some p → obj.get field.name = some (parameterJson field p.value))

/-- An API with a field of its own and one that the proxy fills. -/
def showItem (url : String) : ServiceInfo :=
  { serviceName := cstr "items"
    inputDesc :=
      ⟨cstr "item_id", [⟨cstr "id", .optional, .string⟩,
        ⟨cstr "_api_request_username", .optional, .string⟩], by decide⟩
    outputDesc := ⟨cstr "item", [], noFields_distinct⟩
    urlString := cstr url
    httpVerb := .get
    bodyString := [] }

def showEnvironment (url : String) : Environment Json :=
  { itemsEnvironment with
    text := { uriUnescape := some, utf8 := fun s => s.all (· < 0x80) }
    tree := loadedTree [showItem url] }

def showRequest (url : CString) (query : String) : Input :=
  { itemsRequest (some (cstr query)) with url }

/-- The field that every request asks for. -/
def idField : FieldDescriptor := ⟨cstr "id", .optional, .string⟩

theorem parameters_before_body_id :
    (∃ info obj, conversionObject (showEnvironment "/items/{id}")
        (showRequest (cstr "/items/5") "id=6&{id}=7") = .ok (info, obj) ∧
      obj.get idField.name = some (.string (cstr "5"))) ∧
    ∃ info obj, conversionObject (showEnvironment "/items")
        (showRequest (cstr "/items") "{id}=7&id=6") = .ok (info, obj) ∧
      obj.get idField.name = some (.string (cstr "7")) := by
  have hown : ∀ (url : String) (input : Input), input.fileInfo = ⟨false, none, none⟩ →
      ¬ Sets (showEnvironment url).text (showItem url).inputDesc
        (proxySettings (showEnvironment url) input (showItem url).inputDesc) idField.name := by
    rintro url input hfile ⟨s, hs, hname, _⟩
    rw [proxySettings, proxyValues, hfile] at hs
    rcases List.mem_cons.mp hs with rfl | hs
    · exact absurd hname (by simp [idField, cstr])
    · obtain rfl := List.mem_singleton.mp hs
      exact absurd hname (by simp [idField, cstr])
  refine ⟨⟨_, _, rfl, ?_⟩, ⟨_, _, rfl, ?_⟩⟩
  · exact (@parameters_before_body _ (showEnvironment "/items/{id}")
      (showRequest (cstr "/items/5") "id=6&{id}=7") _ idField _ rfl _ rfl List.mem_cons_self rfl
      (hown _ _ rfl)).1 _ rfl fun s hs => by cases hs; rfl
  · exact (@parameters_before_body _ (showEnvironment "/items")
      (showRequest (cstr "/items") "{id}=7&id=6") _ idField _ rfl _ rfl List.mem_cons_self rfl
      (hown _ _ rfl)).2 (by decide) [] (cstr "{id}") (cstr "7")
      ⟨⟨cstr "{id}=7", [cstr "id=6"], by decide, by decide⟩, by decide, fun p hp => by cases hp⟩
      (by decide) fun s hs => by cases hs; rfl

/-- The proxy's own value, a segment that is no text, one that is spelled like its
parameter, and a key in braces that another one hides. -/
theorem parameters_not_first :
    ¬ ParametersFirst (showEnvironment "/items/{_api_request_username}")
        (showRequest (cstr "/items/root") "") ∧
    ¬ ParametersFirst (showEnvironment "/items/{id}")
        (showRequest (cstr "/items/" ++ [0xff]) "{id}=5") ∧
    ¬ ParametersFirst (showEnvironment "/items/{id}")
        (showRequest (cstr "/items/{id}") "id=5") ∧
    ¬ ParametersFirst (showEnvironment "/items")
        (showRequest (cstr "/items") "{{id}}=1&{id}=5") := by
  refine ⟨fun h => ?_, fun h => ?_, fun h => ?_, fun h => ?_⟩
  · have hget := (h _ _ rfl ⟨cstr "_api_request_username", .optional, .string⟩ (by decide) rfl).1
      _ rfl
    have hs : cstr "manager" = cstr "root" := Json.string.inj (Option.some.inj hget)
    exact absurd hs (by decide)
  · have hget := (h _ _ rfl idField List.mem_cons_self rfl).1 _ rfl
    have hs : cstr "5" = [0xff] := Json.string.inj (Option.some.inj hget)
    exact absurd hs (by decide)
  · have hget := (h _ _ rfl idField List.mem_cons_self rfl).1 _ rfl
    have hs : cstr "5" = cstr "{id}" := Json.string.inj (Option.some.inj hget)
    exact absurd hs (by decide)
  · have hget := (h _ _ rfl idField List.mem_cons_self rfl).2 (by decide) _ rfl
    cases hget

end Cmsg.Proxy
