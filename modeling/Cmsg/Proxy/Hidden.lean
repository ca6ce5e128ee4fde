import Cmsg.Proxy.Lookup
import Cmsg.Proxy.Object

/-! # Hidden fields

The checks keep hidden names out of a body that is read as an object. Path and
query parameters are not checked, nor is the field that the body option names. -/
namespace Cmsg.Proxy
open Cmsg.Base

variable {V : Type}

def Json.isEmptyArray : Json → Bool
  | .array [] => true
  | _ => false

/-- The conversion fills each field of the message from the member of its name. Only
an empty array leaves the field of a member unset. -/
structure ConvertsFields (env : Environment V)
    (convertField : FieldDescriptor → Json → Option V) : Prop where
  fields : ∀ obj desc values, env.json2protobufObject obj desc = .ok values →
    ∀ field ∈ desc.fields, values field.name = (obj.get field.name).bind (convertField field)
  unset : ∀ field j, convertField field j = none ↔ j.isEmptyArray = true

/-- Some setting of the field comes to a value. -/
def Sets (text : Text) (desc : MessageDescriptor) (settings : Settings) (name : CString) : Prop :=
  ∃ s ∈ settings, s.1 = name ∧ settingObject text desc s ≠ []

/-- The field is unset, or holds a value that the proxy sets itself: one of the
request, of an uploaded file or of the stream, or the raw data of the file field. -/
def HoldsProxyValue (env : Environment V) (convertField : FieldDescriptor → Json → Option V)
    (input : Input) (m : InputMessage V) (field : FieldDescriptor) : Prop :=
  m.field field.name = none ∨
  (∃ j, (settingsObject env.text m.serviceInfo.inputDesc
      (proxySettings env input m.serviceInfo.inputDesc)).get field.name = some j ∧
    m.field field.name = (convertField field j).map .converted) ∨
  (field.name = cstr "_file" ∧ m.field field.name = some (.raw (input.data.getD [])))

/-- The body is an empty JSON array. -/
def BodyIsEmptyArray (env : Environment V) (input : Input) : Prop :=
  ∃ data, input.data = some data ∧ env.jsonLoads (data.takeWhile (· != 0)) = .ok (.array [])

/-- Neither a parameter nor the body option names a hidden field to which the proxy
gives no value itself. -/
def NamesNoHidden (env : Environment V) (input : Input) : Prop :=
  ∀ info params,
    getServiceAndParameters env.text env.tree input.url input.queryString input.httpVerb =
      some (info, params) →
    ∀ field ∈ hiddenFields info.inputDesc, field.name ≠ cstr "_file" →
      ¬ Sets env.text info.inputDesc (proxySettings env input info.inputDesc) field.name →
      ¬ Sets env.text info.inputDesc (parameterSettings params) field.name ∧
      (info.bodyString = field.name →
        msgHasFile info.inputDesc = true ∨ BodyIsEmptyArray env input)

/-! ## The object made from the body -/

section
variable {text : Text} {jsonLoads : CString → Except CString Json} {data : Option (List UInt8)}
variable {desc : MessageDescriptor} {bodyString : CString} {params : List UrlParameter}
variable {obj : JsonObject}

theorem jsonObjectSanityCheck_ok {j : Json} (h : jsonObjectSanityCheck j = .ok obj) :
    ∀ k ∈ obj.keys, fieldIsHidden k = false := by
  unfold jsonObjectSanityCheck at h
  split at h
  · next members =>
    split at h
    · cases h
    · next hany =>
      cases h
      intro k hk
      obtain ⟨m, hm, rfl⟩ := List.mem_map.mp hk
      by_contra hhid
      exact hany (List.any_eq_true.mpr ⟨m, hm, by simpa using hhid⟩)
  · cases h

/-- A field that the whole body is the value of is the only member. -/
theorem jsonFieldCreate_ok {field : FieldDescriptor} {j : Json} {inputData : CString}
    (h : jsonFieldCreate text field j inputData = .ok obj) :
    ∃ j', obj = [(field.name, j')] ∧ (j'.isEmptyArray = j.isEmptyArray) := by
  have hvalue : ∀ value, (jsonValueToObject text field value).elim (.error []) .ok =
      (.ok obj : Except CString JsonObject) → ∃ j', obj = [(field.name, j')] ∧
        j'.isEmptyArray = false := by
    intro value hv
    cases hnew : jsonValueToObject text field value with
    | none =>
      rw [hnew] at hv
      cases hv
    | some new =>
      rw [hnew] at hv
      cases hv
      obtain ⟨j', rfl, hne⟩ := jsonValueToObject_eq hnew
      refine ⟨j', rfl, ?_⟩
      unfold Json.isEmptyArray
      split
      · exact absurd hne id
      · rfl
  unfold jsonFieldCreate at h
  split at h
  · split at h
    · cases h
    · cases h
      exact ⟨j, rfl, rfl⟩
  · cases j with
    | object => cases h
    | array elements =>
      cases h
      exact ⟨_, rfl, rfl⟩
    | string s => exact hvalue _ h
    | null | bool | int | real =>
      simp only at h
      split at h
      · cases h
      · exact hvalue _ h

/-- A member of a hidden name comes from the body option alone. -/
theorem jsonObjectCreate_hidden {name : CString} (hname : fieldIsHidden name = true)
    (h : jsonObjectCreate text jsonLoads data desc bodyString params = .ok obj) :
    name ∉ obj.keys ∨ bodyString = name := by
  unfold jsonObjectCreate at h
  split at h
  · cases h
    exact Or.inl (by simp [Members.keys])
  · split at h
    · cases h
      exact Or.inl (by simp [Members.keys])
    · simp only at h
      split at h
      · cases h
      · next j _ =>
        split at h
        · split at h
          · cases h
          · next field hfield =>
            obtain ⟨j', rfl, _⟩ := jsonFieldCreate_ok h
            split at hfield
            · have hfound := List.find?_some hfield
              have hnot : fieldIsHidden field.name = false := by
                rw [Bool.and_eq_true] at hfound
                simpa using hfound.1
              left
              simp only [Members.keys, List.map_cons, List.map_nil, List.mem_singleton]
              rintro rfl
              rw [hname] at hnot
              cases hnot
            · have heq := getFieldByName_name hfield
              by_cases hn : name = field.name
              · exact Or.inr (heq.symm.trans hn.symm)
              · exact Or.inl (by simpa [Members.keys] using hn)
        · left
          intro hmem
          rw [jsonObjectSanityCheck_ok h name hmem] at hname
          cases hname

/-- The object for a hidden field that the body option names. -/
theorem jsonObjectCreate_named {field : FieldDescriptor} (hfield : field ∈ hiddenFields desc)
    (hbody : bodyString = field.name) (hfile : msgHasFile desc = false)
    (hpresence : inputDataPresenceAsExpected data bodyString = .ok ())
    (h : jsonObjectCreate text jsonLoads data desc bodyString params = .ok obj) :
    ∃ bytes j j', data = some bytes ∧ jsonLoads (bytes.takeWhile (· != 0)) = .ok j ∧
      obj = [(field.name, j')] ∧ j'.isEmptyArray = j.isEmptyArray := by
  obtain ⟨hmem, hhid⟩ := List.mem_filter.mp hfield
  have hhead : bodyString.head? = some underscore := by
    rw [hbody]
    simpa [fieldIsHidden] using hhid
  have hne : bodyString ≠ [] := by
    rintro rfl
    cases hhead
  have hstar : bodyString ≠ cstr "*" := by
    rintro rfl
    revert hhead
    decide
  cases data with
  | none =>
    simp [inputDataPresenceAsExpected, hne, hhead, underscore] at hpresence
  | some bytes =>
    have hget : desc.getFieldByName bodyString = some field :=
      getFieldByName_eq_some.mpr ⟨hmem, hbody.symm⟩
    simp only [jsonObjectCreate, hfile, hstar, hget, ne_eq, not_false_eq_true, true_or, if_true,
      if_false, Bool.false_eq_true] at h
    cases hloads : jsonLoads (bytes.takeWhile (· != 0)) with
    | error e =>
      rw [hloads] at h
      cases h
    | ok j =>
      rw [hloads] at h
      obtain ⟨j', hobj, he⟩ := jsonFieldCreate_ok h
      exact ⟨bytes, j, j', rfl, hloads, hobj, he⟩

end

/-! ## The hidden fields of a message -/

section
variable {env : Environment V} {convertField : FieldDescriptor → Json → Option V}
variable {input : Input} {m : InputMessage V} {params : List UrlParameter} {obj : JsonObject}
variable {values : CString → Option V} {field : FieldDescriptor}

theorem isEmptyArray_iff {j : Json} : j.isEmptyArray = true ↔ j = .array [] := by
  constructor
  · intro h
    unfold Json.isEmptyArray at h
    split at h
    · rfl
    · cases h
  · rintro rfl
    rfl

theorem get_finalObject (env : Environment V) (input : Input) (desc : MessageDescriptor)
    (params : List UrlParameter) (obj : JsonObject) (name : CString) :
    (finalObject env input desc params obj).get name =
      ((settingsObject env.text desc (proxySettings env input desc)).get name).or
        (((settingsObject env.text desc (parameterSettings params)).get name).or
          (obj.get name)) := by
  rw [finalObject, Members.get_update _ (distinct_settingsObject _ _ _), settingsObject_append,
    Members.get_update _ (distinct_settingsObject _ _ _), Option.or_assoc]

theorem get_settingsObject_eq_none {text : Text} {desc : MessageDescriptor} {settings : Settings}
    {name : CString} :
    (settingsObject text desc settings).get name = none ↔ ¬ Sets text desc settings name := by
  rw [Members.get_eq_none, mem_keys_settingsObject]
  rfl

/-- A field other than the file field holds what its member was converted to. -/
theorem Processed.field_eq (h : Processed env input m params obj values)
    (hconv : ConvertsFields env convertField) (hfield : field ∈ m.serviceInfo.inputDesc.fields)
    (hname : field.name ≠ cstr "_file") :
    m.field field.name =
      (((finalObject env input m.serviceInfo.inputDesc params obj).get field.name).bind
        (convertField field)).map .converted := by
  rw [← hconv.fields _ _ _ h.converted field hfield, h.field, messageFields]
  split
  · exact if_neg hname
  · rfl

theorem Processed.file_eq (h : Processed env input m params obj values)
    (hfield : field ∈ m.serviceInfo.inputDesc.fields) (hname : field.name = cstr "_file") :
    HoldsProxyValue env convertField input m field := by
  have hfile : msgHasFile m.serviceInfo.inputDesc = true := by
    rw [msgHasFile, getFieldByName_eq_some.mpr ⟨hfield, hname⟩]
    rfl
  unfold HoldsProxyValue
  rw [h.field, messageFields, if_pos hfile, hname, fileDataToMessage, if_pos rfl]
  split
  · exact Or.inl rfl
  · exact Or.inr (Or.inr ⟨rfl, rfl⟩)

/-- A field to which the proxy gives a value holds that value. -/
theorem Processed.holds_of_sets (h : Processed env input m params obj values)
    (hconv : ConvertsFields env convertField) (hfield : field ∈ m.serviceInfo.inputDesc.fields)
    (hname : field.name ≠ cstr "_file")
    (hsets : Sets env.text m.serviceInfo.inputDesc
      (proxySettings env input m.serviceInfo.inputDesc) field.name) :
    HoldsProxyValue env convertField input m field := by
  obtain ⟨j, hj⟩ := Option.ne_none_iff_exists'.mp
    fun hnone => get_settingsObject_eq_none.mp hnone hsets
  refine Or.inr (Or.inl ⟨j, hj, ?_⟩)
  rw [h.field_eq hconv hfield hname, get_finalObject, hj]
  rfl

/-- A field to which it gives none is unset just when no value of the client reaches it. -/
theorem Processed.holds_iff (h : Processed env input m params obj values)
    (hconv : ConvertsFields env convertField)
    (hfield : field ∈ hiddenFields m.serviceInfo.inputDesc) (hname : field.name ≠ cstr "_file")
    (hsets : ¬ Sets env.text m.serviceInfo.inputDesc
      (proxySettings env input m.serviceInfo.inputDesc) field.name) :
    HoldsProxyValue env convertField input m field ↔
      ¬ Sets env.text m.serviceInfo.inputDesc (parameterSettings params) field.name ∧
        (m.serviceInfo.bodyString = field.name →
          msgHasFile m.serviceInfo.inputDesc = true ∨ BodyIsEmptyArray env input) := by
  obtain ⟨hmem, hhid⟩ := List.mem_filter.mp hfield
  have hnone := get_settingsObject_eq_none.mpr hsets
  have hunset : HoldsProxyValue env convertField input m field ↔ m.field field.name = none := by
    constructor
    · rintro (hu | ⟨j, hj, _⟩ | ⟨hf, _⟩)
      · exact hu
      · rw [hnone] at hj
        cases hj
      · exact absurd hf hname
    · exact Or.inl
  rw [hunset, h.field_eq hconv hmem hname, get_finalObject, hnone, Option.none_or,
    Option.map_eq_none_iff]
  cases hparam : (settingsObject env.text m.serviceInfo.inputDesc
    (parameterSettings params)).get field.name with
  | some j =>
    -- a value made from text is never an empty array
    have hp : Sets env.text m.serviceInfo.inputDesc (parameterSettings params) field.name := by
      by_contra hn
      rw [get_settingsObject_eq_none.mpr hn] at hparam
      cases hparam
    have hne : convertField field j ≠ none := by
      rw [Ne, hconv.unset, isEmptyArray_iff]
      rintro rfl
      exact settingsObject_nonEmpty hparam
    simp [hp, hne]
  | none =>
    have hp := get_settingsObject_eq_none.mp hparam
    rw [Option.none_or]
    by_cases hbody : m.serviceInfo.bodyString = field.name
    · by_cases hfile : msgHasFile m.serviceInfo.inputDesc = true
      · have hobj : obj.get field.name = none := by
          have hcreated := h.created
          unfold jsonObjectCreate at hcreated
          cases hdata : input.data with
          | none =>
            rw [hdata] at hcreated
            cases hcreated
            rfl
          | some bytes =>
            rw [hdata] at hcreated
            simp only [hfile, if_true] at hcreated
            cases hcreated
            rfl
        simp [hp, hobj, hfile]
      · obtain ⟨bytes, j, j', hdata, hloads, rfl, he⟩ :=
          jsonObjectCreate_named hfield hbody (by simpa using hfile) h.presence h.created
        rw [Members.get_cons, if_pos rfl, Option.bind_some, hconv.unset, he, isEmptyArray_iff]
        have hempty : BodyIsEmptyArray env input ↔ j = .array [] := by
          constructor
          · rintro ⟨bytes', hdata', hloads'⟩
            rw [hdata] at hdata'
            cases hdata'
            rw [hloads] at hloads'
            exact Except.ok.inj hloads'
          · rintro rfl
            exact ⟨bytes, hdata, hloads⟩
        simp [hp, hbody, hfile, hempty]
    · have hobj : obj.get field.name = none := by
        rw [Members.get_eq_none]
        exact (jsonObjectCreate_hidden hhid h.created).resolve_right hbody
      simp [hp, hobj, hbody]

/-- **Hidden fields.** In a message that was made for a request every hidden field is
unset or holds a value of the proxy exactly when neither a parameter nor the body
option names a hidden field that the proxy gives no value. -/
theorem hiddenFields_iff (hconv : ConvertsFields env convertField)
    (h : inputProcess env input = .ok m) :
    (∀ field ∈ hiddenFields m.serviceInfo.inputDesc,
      HoldsProxyValue env convertField input m field) ↔ NamesNoHidden env input := by
  obtain ⟨params, obj, values, hp⟩ := inputProcess_ok h
  constructor
  · intro hall info params' hlookup field hfield hname hsets
    rw [hp.lookup] at hlookup
    cases hlookup
    exact (hp.holds_iff hconv hfield hname hsets).mp (hall field hfield)
  · intro hnames field hfield
    have hmem := (List.mem_filter.mp hfield).1
    by_cases hname : field.name = cstr "_file"
    · exact hp.file_eq hmem hname
    · by_cases hsets : Sets env.text m.serviceInfo.inputDesc
        (proxySettings env input m.serviceInfo.inputDesc) field.name
      · exact hp.holds_of_sets hconv hmem hname hsets
      · exact (hp.holds_iff hconv hfield hname hsets).mpr
          (hnames _ _ hp.lookup field hfield hname hsets)

end

/-! ## A query that reaches a hidden field -/

/-- An API that lists what a user owns; the application fills `_owner`. -/
def listItems : ServiceInfo :=
  { serviceName := cstr "items"
    inputDesc :=
      ⟨cstr "filter", [⟨cstr "_owner", .optional, .string⟩, ⟨cstr "kind", .optional, .string⟩],
        by decide⟩
    outputDesc := ⟨cstr "items", [], noFields_distinct⟩
    urlString := cstr "/items"
    httpVerb := .get
    bodyString := [] }

/-- Fields of any type keep the JSON that they are given. -/
def keepJson (_ : FieldDescriptor) (j : Json) : Option Json :=
  if j.isEmptyArray then none else some j

def itemsEnvironment : Environment Json :=
  { text := { uriUnescape := some, utf8 := fun _ => true }
    tree := loadedTree [listItems]
    jsonLoads := fun _ => .error (cstr "invalid token")
    json2protobufObject := fun obj desc =>
      if obj.keys.all fun k => (desc.getFieldByName k).isSome then
        .ok fun name => (obj.get name).bind fun j => if j.isEmptyArray then none else some j
      else .error (.unknownField, cstr "unknown field")
    preApiCheckCallback := none
    findClientByService := fun name => name = cstr "items"
    nextStreamId := 0 }

def itemsRequest (queryString : Option CString) : Input :=
  { url := cstr "/items"
    queryString
    httpVerb := .get
    data := none
    webApiInfo := ⟨some (cstr "10.0.0.1"), some (cstr "manager")⟩
    fileInfo := ⟨false, none, none⟩ }

theorem itemsEnvironment_converts : ConvertsFields itemsEnvironment keepJson := by
  constructor
  · intro obj desc values h field _
    unfold itemsEnvironment at h
    simp only at h
    split at h
    · cases h
      rfl
    · cases h
  · intro field j
    simp [keepJson]

theorem hiddenFields_iff_listItems :
    ∃ m, inputProcess itemsEnvironment (itemsRequest (some (cstr "kind=disk"))) = .ok m ∧
      ((∀ field ∈ hiddenFields m.serviceInfo.inputDesc,
        HoldsProxyValue itemsEnvironment keepJson (itemsRequest (some (cstr "kind=disk"))) m field) ↔
        NamesNoHidden itemsEnvironment (itemsRequest (some (cstr "kind=disk")))) :=
  ⟨_, rfl, hiddenFields_iff itemsEnvironment_converts rfl⟩

theorem hidden_field_set_by_query :
    ∃ m, inputProcess itemsEnvironment (itemsRequest (some (cstr "_owner=root"))) = .ok m ∧
      ¬ ∀ field ∈ hiddenFields m.serviceInfo.inputDesc,
        HoldsProxyValue itemsEnvironment keepJson (itemsRequest (some (cstr "_owner=root"))) m
          field := by
  refine ⟨_, rfl, fun h => ?_⟩
  rcases h ⟨cstr "_owner", .optional, .string⟩ (by decide) with hu | ⟨j, hj, _⟩ | ⟨hf, _⟩
  · cases hu
  · cases hj
  · revert hf
    decide

end Cmsg.Proxy
