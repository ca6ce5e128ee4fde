import Cmsg.Proxy.Numerals

/-! # Bodies with the same value

A body that is the value of a single field is taken from what the JSON library parsed
where that is an object, an array or a string, and otherwise from the text of the request,
with the white space around it. -/
namespace Cmsg.Proxy
open Cmsg.Base

variable {V : Type}

/-- The body as the string that is parsed. -/
def bodyText (body : List UInt8) : CString := body.takeWhile (· != 0)

def Input.withBody (input : Input) (body : List UInt8) : Input := { input with data := some body }

def Environment.withConversion (env : Environment V)
    (convert : JsonObject → MessageDescriptor →
      Except (Protobuf2JsonErr × CString) (CString → Option V)) : Environment V :=
  { env with json2protobufObject := convert }

/-- The two bodies make the same message or the same error, whatever library converts
objects to messages. -/
def SameOutcome (env : Environment V) (input : Input) (b₁ b₂ : List UInt8) : Prop :=
  ∀ convert, inputProcess (env.withConversion convert) (input.withBody b₁) =
    inputProcess (env.withConversion convert) (input.withBody b₂)

/-- The types for which a text becomes a value where the JSON is no string. -/
def FieldType.readsText (type : FieldType) : Bool :=
  type.takesText && type != .enum && type != .string

/-- Neither an object, nor an array, nor a string. -/
def Json.isPlain : Json → Bool
  | .null | .bool _ | .int _ | .real _ => true
  | _ => false

/-- Whether the whole body is the value of a single field. -/
def isSingleField (info : ServiceInfo) (params : List UrlParameter) : Bool :=
  info.bodyString != cstr "*" || expectedInputFields info.inputDesc params == 1

/-- That field. -/
def bodyField (info : ServiceInfo) (params : List UrlParameter) : Option FieldDescriptor :=
  if info.bodyString = cstr "*" then findUnparsedField info.inputDesc params
  else info.inputDesc.getFieldByName info.bodyString

/-- The texts are the same, or numerals without anything behind them for one number. -/
def SameText (field : FieldDescriptor) (s₁ s₂ : CString) : Prop :=
  s₁ = s₂ ∨ field.type.isWord = true ∧ (strtoll s₁).2 = [] ∧ (strtoll s₂).2 = [] ∧
    (strtoll s₁).1 = (strtoll s₂).1

/-- A request with a body whose object, if it makes one, is converted. -/
structure ReachesConversion (env : Environment V) (input : Input) (info : ServiceInfo) : Prop where
  checked : preApiCheck env.preApiCheckCallback input.httpVerb = .ok ()
  expected : info.bodyString ≠ []
  accepted : uploadRefused input.fileInfo info.inputDesc = false
  client : env.findClientByService info.serviceName = true

/-- The text of the body becomes the value of the field in the message. -/
structure TakesBodyText (env : Environment V) (input : Input) (info : ServiceInfo)
    (params : List UrlParameter) (value : Json) (field : FieldDescriptor) : Prop where
  reached : ReachesConversion env input info
  single : isSingleField info params = true
  whole : bodyField info params = some field
  plain : value.isPlain = true
  reads : field.type.readsText = true
  kept : ∀ s ∈ parameterSettings params ++ proxySettings env input info.inputDesc,
    s.1 = field.name → jsonValueToObject env.text field s.2 = none

/-! ## The value of one field -/

section
variable {text : Text} {field : FieldDescriptor}

/-- The value that a text is converted to. -/
def textJson (type : FieldType) (s : CString) : Json :=
  if type.isWord then if (strtoll s).2.isEmpty then .int (strtoll s).1 else .string s
  else if type = .bool ∧ (s = cstr "false" ∨ s = cstr "true") then .bool (s != cstr "false")
  else .string s

theorem parameterJson_some (field : FieldDescriptor) (s : CString) :
    parameterJson field (some s) =
      if field.label = .repeated then .array [textJson field.type s] else textJson field.type s := by
  unfold parameterJson textJson
  cases field.type <;> simp [FieldType.isWord]

theorem textJson_word_eq_iff {type : FieldType} (hword : type.isWord = true) (s₁ s₂ : CString) :
    textJson type s₁ = textJson type s₂ ↔
      s₁ = s₂ ∨ (strtoll s₁).2 = [] ∧ (strtoll s₂).2 = [] ∧ (strtoll s₁).1 = (strtoll s₂).1 := by
  unfold textJson
  rw [if_pos hword, if_pos hword]
  simp only [List.isEmpty_iff]
  by_cases h₁ : (strtoll s₁).2 = []
  · by_cases h₂ : (strtoll s₂).2 = []
    · rw [if_pos h₁, if_pos h₂, Json.int.injEq]
      constructor
      · exact fun h => .inr ⟨h₁, h₂, h⟩
      · rintro (rfl | ⟨_, _, h⟩)
        · rfl
        · exact h
    · rw [if_pos h₁, if_neg h₂]
      constructor
      · intro h
        cases h
      · rintro (rfl | ⟨_, h, _⟩)
        · exact absurd h₁ h₂
        · exact absurd h h₂
  · by_cases h₂ : (strtoll s₂).2 = []
    · rw [if_neg h₁, if_pos h₂]
      constructor
      · intro h
        cases h
      · rintro (rfl | ⟨h, _⟩)
        · exact absurd h₂ h₁
        · exact absurd h h₁
    · rw [if_neg h₁, if_neg h₂, Json.string.injEq]
      exact ⟨.inl, fun h => h.resolve_right fun h => h₁ h.1⟩

/-- Every text of another type has a value of its own. -/
theorem textJson_injective {type : FieldType} (hword : type.isWord = false) {s₁ s₂ : CString}
    (h : textJson type s₁ = textJson type s₂) : s₁ = s₂ := by
  have hne : cstr "false" ≠ cstr "true" := by decide
  unfold textJson at h
  simp only [hword, Bool.false_eq_true, if_false] at h
  split at h
  · next h₁ =>
    split at h
    · next h₂ =>
      rw [Json.bool.injEq] at h
      rcases h₁.2 with rfl | rfl <;> rcases h₂.2 with rfl | rfl <;> simp_all
    · cases h
  · split at h
    · cases h
    · exact Json.string.inj h

theorem parameterJson_eq_iff (field : FieldDescriptor) (s₁ s₂ : CString) :
    parameterJson field (some s₁) = parameterJson field (some s₂) ↔ SameText field s₁ s₂ := by
  have hinner : parameterJson field (some s₁) = parameterJson field (some s₂) ↔
      textJson field.type s₁ = textJson field.type s₂ := by
    rw [parameterJson_some, parameterJson_some]
    by_cases hrep : field.label = .repeated
    · simp [hrep]
    · simp [hrep]
  rw [hinner, SameText]
  cases hword : field.type.isWord with
  | true => simp [textJson_word_eq_iff hword]
  | false =>
    constructor
    · exact fun h => .inl (textJson_injective hword h)
    · rintro (rfl | ⟨h, _⟩)
      · rfl
      · cases h

end

/-! ## The object that a body makes -/

section
variable {env : Environment V} {input : Input} {info : ServiceInfo} {params : List UrlParameter}
variable {value : Json} {field : FieldDescriptor}

/-- The object that a body makes whose text was parsed. -/
def createdObject (text : Text) (info : ServiceInfo) (params : List UrlParameter) (value : Json)
    (s : CString) : Except CString JsonObject :=
  if isSingleField info params then
    match bodyField info params with
    | none => .error (cstr "Internal proxy error")
    | some field => jsonFieldCreate text field value s
  else jsonObjectSanityCheck value

theorem jsonObjectCreate_eq {text : Text} {jsonLoads : CString → Except CString Json}
    {body : List UInt8} (hfile : msgHasFile info.inputDesc = false)
    (hparse : jsonLoads (bodyText body) = .ok value) :
    jsonObjectCreate text jsonLoads (some body) info.inputDesc info.bodyString params =
      createdObject text info params value (bodyText body) := by
  have hsingle : (info.bodyString ≠ cstr "*" ∨ expectedInputFields info.inputDesc params = 1) ↔
      isSingleField info params = true := by
    simp [isSingleField]
  rw [jsonObjectCreate, createdObject]
  simp only [hfile, Bool.false_eq_true, if_false]
  rw [← bodyText, hparse]
  dsimp only
  by_cases hs : isSingleField info params = true
  · rw [if_pos (hsingle.mpr hs), if_pos hs]
    rfl
  · rw [if_neg (fun h => hs (hsingle.mp h)), if_neg hs]

theorem jsonFieldCreate_text {text : Text} (hplain : value.isPlain = true)
    (hreads : field.type.readsText = true) {s : CString} (hs : text.utf8 s = true) :
    jsonFieldCreate text field value s = .ok [(field.name, parameterJson field (some s))] := by
  have htext : field.type.takesText = true ∧ field.type ≠ .enum ∧ field.type ≠ .string := by
    simpa [FieldType.readsText, and_assoc] using hreads
  have hmessage : field.type ≠ .message := by
    intro hm
    rw [hm] at htext
    cases htext.1
  have hisText : IsText text (some s) := fun _ h => Option.some.inj h ▸ hs
  unfold jsonFieldCreate
  rw [if_neg hmessage, jsonValueToObject_of_isText htext.1 hisText]
  cases value with
  | null | bool _ | int _ | real _ => simp [htext.2]
  | string _ | array _ | object _ => cases hplain

/-- Elsewhere the parsed value decides. -/
theorem jsonFieldCreate_value {text : Text}
    (h : ¬ (value.isPlain = true ∧ field.type.readsText = true)) (s₁ s₂ : CString) :
    jsonFieldCreate text field value s₁ = jsonFieldCreate text field value s₂ := by
  unfold jsonFieldCreate
  cases value with
  | string _ | array _ | object _ => rfl
  | null | bool _ | int _ | real _ =>
    have hreads : field.type.readsText = false := by simpa [Json.isPlain] using h
    cases hty : field.type <;> rw [hty] at hreads
    case float | double | bytes | message | enum | string => simp [jsonValueToObject, hty]
    all_goals cases hreads

/-- What is converted for a request with a body that makes an object, or not. -/
def bodyConversion (env : Environment V) (input : Input) (info : ServiceInfo)
    (params : List UrlParameter) (created : Except CString JsonObject) :
    Except AntResult (ServiceInfo × JsonObject) :=
  match preApiCheck env.preApiCheckCallback input.httpVerb with
  | .error result => .error result
  | .ok () =>
    if info.bodyString = [] then
      .error ⟨.invalidArgument,
        cstr "Invalid JSON: No JSON data expected for API, but JSON data input"⟩
    else
      match created with
      | .error text => .error ⟨.invalidArgument, cstr "Invalid JSON: " ++ text⟩
      | .ok obj =>
        if uploadRefused input.fileInfo info.inputDesc then
          .error ⟨.invalidArgument, cstr "API does not accept uploaded files as input data"⟩
        else if !env.findClientByService info.serviceName then
          .error ⟨.internal, cstr "Client not found in proxy_clients_list"⟩
        else .ok (info, finalObject env input info.inputDesc params obj)

theorem conversionObject_withBody {body : List UInt8}
    (hservice : getServiceAndParameters env.text env.tree input.url input.queryString
      input.httpVerb = some (info, params))
    (hfile : msgHasFile info.inputDesc = false)
    (hparse : env.jsonLoads (bodyText body) = .ok value) :
    conversionObject env (input.withBody body) =
      bodyConversion env input info params
        (createdObject env.text info params value (bodyText body)) := by
  have hservice' : getServiceAndParameters env.text env.tree (input.withBody body).url
      (input.withBody body).queryString (input.withBody body).httpVerb = some (info, params) :=
    hservice
  unfold conversionObject bodyConversion
  rw [hservice']
  dsimp only
  rw [show (input.withBody body).data = some body from rfl, jsonObjectCreate_eq hfile hparse,
    inputDataPresenceAsExpected]
  rw [show (input.withBody body).httpVerb = input.httpVerb from rfl]
  cases preApiCheck env.preApiCheckCallback input.httpVerb with
  | error result => rfl
  | ok _ =>
    by_cases hnil : info.bodyString = []
    · simp [hnil]
    · simp only [hnil, if_false, Option.isNone_some, Bool.false_eq_true, and_false]
      rfl

theorem bodyConversion_ok (h : ReachesConversion env input info) (obj : JsonObject) :
    bodyConversion env input info params (.ok obj) =
      .ok (info, finalObject env input info.inputDesc params obj) := by
  unfold bodyConversion
  rw [h.checked]
  simp [h.expected, h.accepted, h.client]

/-- A request that is refused is refused whatever its body makes. -/
theorem bodyConversion_refused (h : ¬ ReachesConversion env input info) (obj obj' : JsonObject) :
    bodyConversion env input info params (.ok obj) =
      bodyConversion env input info params (.ok obj') := by
  unfold bodyConversion
  cases hc : preApiCheck env.preApiCheckCallback input.httpVerb with
  | error result => rfl
  | ok _ =>
    by_cases hnil : info.bodyString = []
    · simp [hnil]
    · by_cases hup : uploadRefused input.fileInfo info.inputDesc = true
      · simp [hnil, hup]
      · by_cases hclient : env.findClientByService info.serviceName = true
        · exact absurd ⟨hc, hnil, by simpa using hup, hclient⟩ h
        · simp [hnil, hup, hclient]

theorem getFieldByName_of_bodyField (h : bodyField info params = some field) :
    info.inputDesc.getFieldByName field.name = some field := by
  unfold bodyField at h
  split at h
  · exact getFieldByName_eq_some.mpr ⟨List.mem_of_find?_eq_some h, rfl⟩
  · exact getFieldByName_eq_some.mpr ⟨(getFieldByName_eq_some.mp h).1, rfl⟩

/-- The settings leave the field alone. -/
theorem not_mem_keys_settingsObject {text : Text} {desc : MessageDescriptor} {settings : Settings}
    (hfield : desc.getFieldByName field.name = some field) :
    field.name ∉ (settingsObject text desc settings).keys ↔
      ∀ s ∈ settings, s.1 = field.name → jsonValueToObject text field s.2 = none := by
  have hset : ∀ s : CString × Option CString, s.1 = field.name →
      (settingObject text desc s = [] ↔ jsonValueToObject text field s.2 = none) := by
    intro s hs
    rw [settingObject, hs, hfield, Option.bind_some]
    cases hnew : jsonValueToObject text field s.2 with
    | none => simp
    | some new =>
      obtain ⟨j, rfl, _⟩ := jsonValueToObject_eq hnew
      simp
  rw [mem_keys_settingsObject]
  constructor
  · intro h s hs hname
    by_contra hne
    exact h ⟨s, hs, hname, fun hnil => hne ((hset s hname).mp hnil)⟩
  · rintro h ⟨s, hs, hname, hne⟩
    exact hne ((hset s hname).mpr (h s hs hname))

/-- **Where the text counts**: two texts of one value make the same object unless they
become the value of a field. -/
theorem bodyConversion_eq_iff {s₁ s₂ : CString} (h₁ : env.text.utf8 s₁ = true)
    (h₂ : env.text.utf8 s₂ = true) :
    bodyConversion env input info params (createdObject env.text info params value s₁) =
        bodyConversion env input info params (createdObject env.text info params value s₂) ↔
      ∀ field, TakesBodyText env input info params value field → SameText field s₁ s₂ := by
  by_cases htext : ∃ field, isSingleField info params = true ∧ bodyField info params = some field ∧
      value.isPlain = true ∧ field.type.readsText = true
  · obtain ⟨field, hsingle, hwhole, hplain, hreads⟩ := htext
    have hcreated : ∀ s, env.text.utf8 s = true → createdObject env.text info params value s =
        .ok [(field.name, parameterJson field (some s))] := by
      intro s hs
      rw [createdObject, if_pos hsingle, hwhole]
      exact jsonFieldCreate_text hplain hreads hs
    rw [hcreated s₁ h₁, hcreated s₂ h₂]
    by_cases hreach : ReachesConversion env input info
    · rw [bodyConversion_ok hreach, bodyConversion_ok hreach, Except.ok.injEq, Prod.mk.injEq,
        finalObject, finalObject, Members.update_single_eq_iff (distinct_settingsObject _ _ _),
        parameterJson_eq_iff, not_mem_keys_settingsObject (getFieldByName_of_bodyField hwhole)]
      constructor
      · rintro ⟨_, hsame⟩ other hother
        obtain rfl := Option.some.inj (hwhole.symm.trans hother.whole)
        exact hsame hother.kept
      · exact fun h => ⟨rfl, fun hkept => h field ⟨hreach, hsingle, hwhole, hplain, hreads, hkept⟩⟩
    · exact ⟨fun _ _ hother => absurd hother.reached hreach,
        fun _ => bodyConversion_refused hreach _ _⟩
  · have hcreated : createdObject env.text info params value s₁ =
        createdObject env.text info params value s₂ := by
      unfold createdObject
      split
      · next hsingle =>
        cases hwhole : bodyField info params with
        | none => rfl
        | some field =>
          exact jsonFieldCreate_value (fun h => htext ⟨field, hsingle, hwhole, h⟩) s₁ s₂
      · rfl
    rw [hcreated]
    refine ⟨fun _ field hother => absurd ?_ htext, fun _ => rfl⟩
    exact ⟨field, hother.single, hother.whole, hother.plain, hother.reads⟩

/-! ## The outcome -/

theorem conversionObject_fst {body : List UInt8}
    (hservice : getServiceAndParameters env.text env.tree input.url input.queryString
      input.httpVerb = some (info, params))
    {r : ServiceInfo × JsonObject} (h : conversionObject env (input.withBody body) = .ok r) :
    r.1 = info := by
  obtain ⟨params', _, hfound, _⟩ := conversionObject_ok h
  exact congrArg Prod.fst (Option.some.inj (hfound.symm.trans hservice))

/-- A library that refuses every object with an error that names it. -/
def refusing (tag : JsonObject → CString) (obj : JsonObject) (_ : MessageDescriptor) :
    Except (Protobuf2JsonErr × CString) (CString → Option V) :=
  .error (.unknownField, tag obj)

theorem inputProcess_refusing (env : Environment V) (input : Input) (tag : JsonObject → CString) :
    inputProcess (env.withConversion (refusing tag)) input =
      (conversionObject env input).bind fun r => .error ⟨.invalidArgument, tag r.2⟩ := by
  rw [inputProcess_conversion]
  rfl

/-- Requests have the same outcome with every library when they are the same before the
conversion. -/
theorem sameOutcome_iff_conversionObject {b₁ b₂ : List UInt8}
    (hservice : getServiceAndParameters env.text env.tree input.url input.queryString
      input.httpVerb = some (info, params))
    (hfile : msgHasFile info.inputDesc = false) :
    SameOutcome env input b₁ b₂ ↔
      conversionObject env (input.withBody b₁) = conversionObject env (input.withBody b₂) := by
  constructor
  · intro hsame
    have htag := fun tag => hsame (refusing tag)
    simp only [inputProcess_refusing] at htag
    -- an error is told from an object by a longer message
    have hne : ∀ e : AntResult, e ≠ ⟨.invalidArgument, e.message ++ [0]⟩ := by
      intro e he
      have hlen := congrArg (fun e => e.message.length) he
      simp at hlen
    cases h₁ : conversionObject env (input.withBody b₁) with
    | error e₁ =>
      cases h₂ : conversionObject env (input.withBody b₂) with
      | error e₂ =>
        have h := htag fun _ => []
        rw [h₁, h₂] at h
        exact congrArg _ (Except.error.inj h)
      | ok r₂ =>
        have h := htag fun _ => e₁.message ++ [0]
        rw [h₁, h₂] at h
        exact absurd (Except.error.inj h) (hne e₁)
    | ok r₁ =>
      cases h₂ : conversionObject env (input.withBody b₂) with
      | error e₂ =>
        have h := htag fun _ => e₂.message ++ [0]
        rw [h₁, h₂] at h
        exact absurd (Except.error.inj h).symm (hne e₂)
      | ok r₂ =>
        classical
        have h := htag fun obj => if obj = r₁.2 then [] else [0]
        rw [h₁, h₂] at h
        have hmessage := congrArg AntResult.message (Except.error.inj h)
        have hobj : r₂.2 = r₁.2 := by
          by_contra hobj
          simp [hobj] at hmessage
        have hinfo := (conversionObject_fst hservice h₁).trans (conversionObject_fst hservice h₂).symm
        rw [Prod.ext hinfo hobj.symm]
  · intro h convert
    have hconv : ∀ i, conversionObject (env.withConversion convert) i = conversionObject env i :=
      fun _ => rfl
    rw [inputProcess_conversion, inputProcess_conversion, hconv, hconv, h]
    cases h₂ : conversionObject env (input.withBody b₂) with
    | error e => rfl
    | ok r =>
      have hmessage : messageOf (env.withConversion convert) (input.withBody b₁) r.1 =
          messageOf (env.withConversion convert) (input.withBody b₂) r.1 := by
        rw [conversionObject_fst hservice h₂]
        funext values
        simp only [messageOf, messageFields, hfile, Bool.false_eq_true, if_false]
      show (convertJsonToProtobuf _ r.2 r.1.inputDesc).map _ = _
      rw [hmessage]
      rfl

/-- **By value.** Two bodies that parse to one value have the same outcome exactly when
their texts are the same to each field that takes them. -/
theorem sameOutcome_iff {b₁ b₂ : List UInt8}
    (hutf8 : ∀ s value, env.jsonLoads s = .ok value → env.text.utf8 s = true)
    (hservice : getServiceAndParameters env.text env.tree input.url input.queryString
      input.httpVerb = some (info, params))
    (hfile : msgHasFile info.inputDesc = false)
    (h₁ : env.jsonLoads (bodyText b₁) = .ok value) (h₂ : env.jsonLoads (bodyText b₂) = .ok value) :
    SameOutcome env input b₁ b₂ ↔ ∀ field, TakesBodyText env input info params value field →
      SameText field (bodyText b₁) (bodyText b₂) := by
  rw [sameOutcome_iff_conversionObject hservice hfile, conversionObject_withBody hservice hfile h₁,
    conversionObject_withBody hservice hfile h₂, bodyConversion_eq_iff (hutf8 _ _ h₁) (hutf8 _ _ h₂)]

end

/-- An API that sets one number. -/
def setSpeed : ServiceInfo :=
  { serviceName := cstr "fan"
    inputDesc := ⟨cstr "fan_speed", [⟨cstr "speed", .optional, .int32⟩], by decide⟩
    outputDesc := ⟨cstr "ant_result", [], noFields_distinct⟩
    urlString := cstr "/fan"
    httpVerb := .put
    bodyString := cstr "speed" }

/-- Integers with white space around them are parsed, and the number is taken from an
integer only. -/
def fanEnvironment : Environment Int :=
  { text := { uriUnescape := some, utf8 := fun _ => true }
    tree := loadedTree [setSpeed]
    jsonLoads := fun s =>
      if (s.any isDigit) && (strtoll s).2.all isSpace then .ok (.int (strtoll s).1)
      else .error (cstr "invalid token")
    json2protobufObject := fun obj _ =>
      match obj.get (cstr "speed") with
      | some (.int n) => .ok fun name => if name = cstr "speed" then some n else none
      | _ => .error (.isNotInteger, cstr "JSON value is not an integer required for GPB int32")
    preApiCheckCallback := none
    findClientByService := fun name => name = cstr "fan"
    nextStreamId := 0 }

def fanRequest : Input :=
  { url := cstr "/fan"
    queryString := none
    httpVerb := .put
    data := none
    webApiInfo := ⟨none, none⟩
    fileInfo := ⟨false, none, none⟩ }

/-- White space before the number does no harm. -/
theorem sameOutcome_leading_space : SameOutcome fanEnvironment fanRequest (cstr "5") (cstr " 5") := by
  have hloads : ∀ s ∈ [cstr "5", cstr " 5"], fanEnvironment.jsonLoads (bodyText s) = .ok (.int 5) := by
    intro s hs
    rcases List.mem_pair.mp hs with rfl | rfl <;> rfl
  refine (sameOutcome_iff (fun _ _ _ => rfl) (show _ = some (setSpeed, []) from rfl) (by decide)
    (hloads _ (by simp)) (hloads _ (by simp))).mpr fun field h => .inr ?_
  obtain rfl := Option.some.inj h.whole
  decide

/-- A line feed behind the number makes the request fail. -/
theorem trailing_space_refused :
    fanEnvironment.jsonLoads (bodyText (cstr "5")) = .ok (.int 5) ∧
      fanEnvironment.jsonLoads (bodyText (cstr "5\n")) = .ok (.int 5) ∧
      ¬ SameOutcome fanEnvironment fanRequest (cstr "5") (cstr "5\n") := by
  refine ⟨rfl, rfl, fun hsame => ?_⟩
  have hok := congrArg Except.isOk (hsame fanEnvironment.json2protobufObject)
  revert hok
  decide

end Cmsg.Proxy
