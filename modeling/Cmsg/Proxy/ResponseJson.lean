import Mathlib.Data.List.Find
import Cmsg.Proxy.Output

/-! # The JSON of a response

An empty `details` array of an `ant_result` is left out of a response. In a message with
more than two fields the array is looked for in the message and not in its `_error_info`. -/
namespace Cmsg.Proxy
open Cmsg.Base

section
variable {N : Type} (codec : OutputCodec N)

/-- The JSON that `cmsg_proxy_generate_response_body` comes to, where it comes to any. -/
def responseJson (message : N) (httpStatus : Nat) : Option Json :=
  match codec.protobuf2jsonObject message with
  | none => none
  | some object =>
    if (codec.descriptor message).name = cstr "ant_result" then
      some (stripDetailsFromAntResult (.object object))
    else if httpStatus ≠ httpCodeOk then
      (object.find? (·.1 = cstr "_error_info")).map fun m => stripDetailsFromAntResult m.2
    else if (codec.descriptor message).fields.length ≤ 2 then
      (object.find? (·.1 ≠ cstr "_error_info")).map Prod.snd
    else if (Members.get object (cstr "_error_info")).isSome then
      some (stripDetailsFromAntResult (.object object))
    else some (.object object)

/-- `cmsg_proxy_msg_has_body_override`. -/
def msgHasBodyOverride (desc : MessageDescriptor) : Bool :=
  (desc.getFieldByName (cstr "_body")).isSome

/-- A response is the text of `_body`, or that JSON. -/
theorem generateResponseBody_eq (message : N) (output : Output) :
    generateResponseBody codec message output =
      if output.httpStatus = httpCodeOk ∧ msgHasBodyOverride (codec.descriptor message) = true then
        generatePlaintextResponse codec message output
      else
        match responseJson codec message output.httpStatus with
        | none => (false, output)
        | some json => (true, jsonToOutput codec json output) := by
  unfold generateResponseBody responseJson msgHasBodyOverride
  dsimp only
  by_cases hbody : output.httpStatus = httpCodeOk ∧
      ((codec.descriptor message).getFieldByName (cstr "_body")).isSome = true
  · rw [if_pos hbody, if_pos hbody]
  · rw [if_neg hbody, if_neg hbody]
    cases codec.protobuf2jsonObject message with
    | none => rfl
    | some object =>
      dsimp only
      by_cases hant : (codec.descriptor message).name = cstr "ant_result"
      · rw [if_pos hant, if_pos hant]
      · rw [if_neg hant, if_neg hant]
        by_cases hstatus : output.httpStatus ≠ httpCodeOk
        · rw [if_pos hstatus, if_pos hstatus]
          cases object.find? (·.1 = cstr "_error_info") <;> rfl
        · rw [if_neg hstatus, if_neg hstatus]
          by_cases htwo : (codec.descriptor message).fields.length ≤ 2
          · rw [if_pos htwo, if_pos htwo]
            cases object.find? (·.1 ≠ cstr "_error_info") <;> rfl
          · rw [if_neg htwo, if_neg htwo]
            by_cases herror : (Members.get object (cstr "_error_info")).isSome = true
            · rw [if_pos herror, if_pos herror]
            · rw [if_neg herror, if_neg herror]

end

/-! ## What should be returned -/

/-- An object with an empty `details` array. -/
def Json.HasEmptyDetails (json : Json) : Prop :=
  ∃ members, json = .object members ∧ Members.get members (cstr "details") = some (.array [])

/-- The only field but `_error_info`, in a message with at most two fields. -/
def onlyDataField (desc : MessageDescriptor) : Option FieldDescriptor :=
  match desc.fields.filter (·.name ≠ cstr "_error_info") with
  | [field] => if desc.fields.length ≤ 2 then some field else none
  | _ => none

def stripErrorInfo (object : JsonObject) : JsonObject :=
  object.map fun m => (m.1, if m.1 = cstr "_error_info" then stripDetailsFromAntResult m.2 else m.2)

/-- The message as JSON, or its only field of data, with nothing left out but the empty `details`
of an `ant_result`. -/
def expectedJson (desc : MessageDescriptor) (object : JsonObject) : Option Json :=
  if desc.name = cstr "ant_result" then some (stripDetailsFromAntResult (.object object))
  else
    match onlyDataField desc with
    | some field => Members.get object field.name
    | none => some (.object (stripErrorInfo object))

section
variable {N : Type} (codec : OutputCodec N)

/-- The JSON of the response to a request that succeeded. -/
def returnedJson (message : N) : Option Json :=
  if msgHasBodyOverride (codec.descriptor message) then none
  else responseJson codec message httpCodeOk

theorem generateResponseBody_returned {message : N} {json : Json} {output : Output}
    (hok : output.httpStatus = httpCodeOk) (h : returnedJson codec message = some json) :
    generateResponseBody codec message output = (true, jsonToOutput codec json output) := by
  unfold returnedJson at h
  split at h
  · cases h
  · next hbody =>
    rw [generateResponseBody_eq, if_neg fun hb => hbody hb.2, hok, h]

/-- The response carries the message. -/
structure ReturnsContent (message : N) : Prop where
  content : ∀ object json, codec.protobuf2jsonObject message = some object →
    returnedJson codec message = some json →
    expectedJson (codec.descriptor message) object = some json
  detailsSurvive : ∀ object json details, codec.protobuf2jsonObject message = some object →
    returnedJson codec message = some json → (codec.descriptor message).name ≠ cstr "ant_result" →
    Members.get object (cstr "details") = some details →
    if (onlyDataField (codec.descriptor message)).isSome then json = details
    else ∃ members, json = .object members ∧ Members.get members (cstr "details") = some details
  errorInfoStripped : ∀ members errorInfo, returnedJson codec message = some (.object members) →
    (codec.descriptor message).name ≠ cstr "ant_result" →
    onlyDataField (codec.descriptor message) = none →
    Members.get members (cstr "_error_info") = some errorInfo → ¬ errorInfo.HasEmptyDetails

/-- What the conversion of a message makes has a member for some of its fields, one each. -/
structure ConvertsFieldsOnce : Prop where
  distinct : ∀ message object, codec.protobuf2jsonObject message = some object → object.Distinct
  fields : ∀ message object, codec.protobuf2jsonObject message = some object →
    ∀ k ∈ object.keys, ((codec.descriptor message).getFieldByName k).isSome

end

/-! ## Stripping -/

theorem stripDetails_of_empty {members : JsonObject}
    (h : Members.get members (cstr "details") = some (.array [])) :
    stripDetailsFromAntResult (.object members) =
      .object (members.filter (·.1 ≠ cstr "details")) := by
  rw [stripDetailsFromAntResult, h]

theorem stripDetails_of_not_empty {json : Json} (h : ¬ json.HasEmptyDetails) :
    stripDetailsFromAntResult json = json := by
  cases json with
  | object members =>
    rw [stripDetailsFromAntResult]
    split
    · next hget => exact absurd ⟨members, rfl, hget⟩ h
    · rfl
  | _ => rfl

theorem get_filter_ne (members : JsonObject) (k : CString) :
    Members.get (members.filter (·.1 ≠ k)) k = none := by
  rw [Members.get_eq_none, Members.keys]
  intro hmem
  obtain ⟨m, hm, hk⟩ := List.mem_map.mp hmem
  simp [hk] at hm

theorem not_hasEmptyDetails_stripDetails (json : Json) :
    ¬ (stripDetailsFromAntResult json).HasEmptyDetails := by
  by_cases h : json.HasEmptyDetails
  · obtain ⟨members, rfl, hget⟩ := h
    rw [stripDetails_of_empty hget]
    intro ⟨members', he, hget'⟩
    rw [← Json.object.inj he, get_filter_ne] at hget'
    cases hget'
  · rwa [stripDetails_of_not_empty h]

theorem stripDetails_eq_self_iff {json : Json} :
    stripDetailsFromAntResult json = json ↔ ¬ json.HasEmptyDetails := by
  constructor
  · intro h
    rw [← h]
    exact not_hasEmptyDetails_stripDetails json
  · exact stripDetails_of_not_empty

theorem get_stripErrorInfo (object : JsonObject) (k : CString) :
    Members.get (stripErrorInfo object) k = (Members.get object k).map fun json =>
      if k = cstr "_error_info" then stripDetailsFromAntResult json else json := by
  induction object with
  | nil => rfl
  | cons m object ih =>
    rw [stripErrorInfo, List.map_cons, Members.get_cons, Members.get_cons]
    by_cases hk : m.1 = k
    · subst hk
      simp
    · rw [if_neg hk, if_neg hk]
      exact ih

theorem stripErrorInfo_eq_self {object : JsonObject}
    (h : ∀ m ∈ object, m.1 = cstr "_error_info" → ¬ m.2.HasEmptyDetails) :
    stripErrorInfo object = object := by
  refine List.map_congr_left (fun m hm => ?_) |>.trans (List.map_id _)
  by_cases hk : m.1 = cstr "_error_info"
  · rw [if_pos hk, stripDetails_of_not_empty (h m hm hk)]
    rfl
  · rw [if_neg hk]
    rfl

/-! ## What is returned -/

section
variable {N : Type} {codec : OutputCodec N} {message : N} {object : JsonObject}

/-- What must hold of the JSON of the message. -/
def ContentKept (desc : MessageDescriptor) (object : JsonObject) : Prop :=
  desc.name = cstr "ant_result" ∨ (onlyDataField desc).isSome ∨
    (if desc.fields.length ≤ 2 then ∀ k ∈ object.keys, k = cstr "_error_info"
      else ∀ errorInfo, Members.get object (cstr "_error_info") = some errorInfo →
        ¬ errorInfo.HasEmptyDetails ∧ ¬ (Json.object object).HasEmptyDetails)

theorem returnedJson_eq (hbody : msgHasBodyOverride (codec.descriptor message) = false)
    (hobj : codec.protobuf2jsonObject message = some object) :
    returnedJson codec message =
      if (codec.descriptor message).name = cstr "ant_result" then
        some (stripDetailsFromAntResult (.object object))
      else if (codec.descriptor message).fields.length ≤ 2 then
        (object.find? (·.1 ≠ cstr "_error_info")).map Prod.snd
      else if (Members.get object (cstr "_error_info")).isSome then
        some (stripDetailsFromAntResult (.object object))
      else some (.object object) := by
  rw [returnedJson, hbody, responseJson, hobj]
  simp

theorem onlyDataField_eq_some {desc : MessageDescriptor} {field : FieldDescriptor}
    (hfield : onlyDataField desc = some field) :
    desc.fields.filter (·.name ≠ cstr "_error_info") = [field] ∧ desc.fields.length ≤ 2 := by
  unfold onlyDataField at hfield
  split at hfield
  · next other hfilter =>
    split at hfield
    · next hlength => exact ⟨by rw [hfilter, Option.some.inj hfield], hlength⟩
    · cases hfield
  · cases hfield

/-- A field is the only field of data or it is `_error_info`. -/
theorem name_ne_iff {desc : MessageDescriptor} {field : FieldDescriptor}
    (hfield : onlyDataField desc = some field) {k : CString}
    (hk : (desc.getFieldByName k).isSome) : k ≠ cstr "_error_info" ↔ k = field.name := by
  have hdata := (onlyDataField_eq_some hfield).1
  obtain ⟨other, hother⟩ := Option.isSome_iff_exists.mp hk
  obtain ⟨hmem, rfl⟩ := getFieldByName_eq_some.mp hother
  constructor
  · intro hne
    have hin : other ∈ desc.fields.filter (·.name ≠ cstr "_error_info") :=
      List.mem_filter.mpr ⟨hmem, by simpa using hne⟩
    rw [hdata, List.mem_singleton] at hin
    rw [hin]
  · intro he
    have hin : field ∈ desc.fields.filter (·.name ≠ cstr "_error_info") := by
      rw [hdata]
      exact List.mem_singleton_self field
    rw [he]
    simpa using (List.mem_filter.mp hin).2

/-- The only field of data is returned, where the message has it. -/
theorem find_onlyDataField {desc : MessageDescriptor} {field : FieldDescriptor}
    (hfield : onlyDataField desc = some field)
    (hkeys : ∀ k ∈ object.keys, (desc.getFieldByName k).isSome) :
    (object.find? (·.1 ≠ cstr "_error_info")).map Prod.snd = Members.get object field.name := by
  rw [Members.get]
  refine congrArg _ (List.find?_congr fun m hm => ?_)
  rw [decide_eq_decide]
  exact name_ne_iff hfield (hkeys m.1 (List.mem_map_of_mem hm))

theorem stripErrorInfo_mem {m : CString × Json} (hm : m ∈ object) (hne : m.1 ≠ cstr "_error_info") :
    m ∈ stripErrorInfo object := by
  refine List.mem_map.mpr ⟨m, hm, ?_⟩
  rw [if_neg hne]

/-- An object is none of its own members. -/
theorem object_ne_member {members : JsonObject} {m : CString × Json} (hm : m ∈ members) :
    m.2 ≠ .object members := by
  intro he
  have hlt := List.sizeOf_lt_of_mem hm
  have hsize := congrArg sizeOf he
  obtain ⟨k, json⟩ := m
  simp only [Prod.mk.sizeOf_spec, Json.object.sizeOf_spec] at hlt hsize
  omega

theorem get_of_mem {members : JsonObject} (h : members.Distinct) {m : CString × Json}
    (hm : m ∈ members) : Members.get members m.1 = some m.2 := by
  induction members with
  | nil => cases hm
  | cons first members ih =>
    obtain ⟨hfirst, hrest⟩ := List.nodup_cons.mp h
    rw [Members.get_cons]
    rcases List.mem_cons.mp hm with rfl | hm
    · rw [if_pos rfl]
    · rw [if_neg fun he => hfirst (List.mem_map.mpr ⟨m, hm, he.symm⟩), ih hrest hm]

/-- Clean members are left as they are, at both levels. -/
theorem stripErrorInfo_clean (h : object.Distinct)
    (hclean : ∀ errorInfo, Members.get object (cstr "_error_info") = some errorInfo →
      ¬ errorInfo.HasEmptyDetails) : stripErrorInfo object = object :=
  stripErrorInfo_eq_self fun m hm hname => hclean m.2 (hname ▸ get_of_mem h hm)

/-- Stripping the message comes to stripping its `_error_info` only where there is nothing
to strip. -/
theorem clean_of_stripped
    (h : stripDetailsFromAntResult (.object object) = .object (stripErrorInfo object))
    {errorInfo : Json} (hget : Members.get object (cstr "_error_info") = some errorInfo) :
    ¬ errorInfo.HasEmptyDetails ∧ ¬ (Json.object object).HasEmptyDetails := by
  have hclean : ¬ (Json.object object).HasEmptyDetails := by
    intro ⟨members, he, hempty⟩
    obtain rfl := Json.object.inj he
    rw [stripDetails_of_empty hempty] at h
    have hlost := congrArg (Members.get · (cstr "details")) (Json.object.inj h)
    rw [get_filter_ne, get_stripErrorInfo, hempty] at hlost
    cases hlost
  refine ⟨?_, hclean⟩
  rw [stripDetails_of_not_empty hclean] at h
  have hsame := congrArg (Members.get · (cstr "_error_info")) (Json.object.inj h)
  rw [get_stripErrorInfo, hget, Option.map_some, if_pos rfl] at hsame
  exact stripDetails_eq_self_iff.mp (Option.some.inj hsame).symm

/-- The parts of the property follow from the first one. -/
theorem ReturnsContent.of_content (hconv : ConvertsFieldsOnce codec)
    (content : ∀ object json, codec.protobuf2jsonObject message = some object →
      returnedJson codec message = some json →
      expectedJson (codec.descriptor message) object = some json) :
    ReturnsContent codec message := by
  have hdetails : cstr "details" ≠ cstr "_error_info" := by decide
  refine ⟨content, ?_, ?_⟩
  · intro object json details hobj hjson hant hget
    have hexpected := content object json hobj hjson
    unfold expectedJson at hexpected
    rw [if_neg hant] at hexpected
    cases honly : onlyDataField (codec.descriptor message) with
    | some field =>
      rw [honly] at hexpected
      have hk := hconv.fields message object hobj _ (List.mem_map_of_mem (Members.mem_of_get hget))
      dsimp only at hexpected
      rw [← (name_ne_iff honly hk).mp hdetails, hget] at hexpected
      exact (Option.some.inj hexpected).symm
    | none =>
      rw [honly] at hexpected
      refine ⟨_, (Option.some.inj hexpected).symm, ?_⟩
      rw [get_stripErrorInfo, hget, Option.map_some, if_neg hdetails]
  · intro members errorInfo hjson hant honly hget
    cases hobj : codec.protobuf2jsonObject message with
    | none => simp [returnedJson, responseJson, hobj] at hjson
    | some object =>
      have hexpected := content object _ hobj hjson
      unfold expectedJson at hexpected
      rw [if_neg hant, honly] at hexpected
      obtain rfl := Json.object.inj (Option.some.inj hexpected)
      rw [get_stripErrorInfo] at hget
      obtain ⟨e, _, rfl⟩ := Option.map_eq_some_iff.mp hget
      rw [if_pos rfl]
      exact not_hasEmptyDetails_stripDetails e

/-- One member is returned for the whole object only where none is beside `_error_info`. -/
theorem names_of_firstMember
    (h : ∀ json, (object.find? (·.1 ≠ cstr "_error_info")).map Prod.snd = some json →
      some (Json.object (stripErrorInfo object)) = some json) :
    ∀ k ∈ object.keys, k = cstr "_error_info" := by
  intro k hk
  by_contra hne
  obtain ⟨m, hm, rfl⟩ := List.mem_map.mp hk
  cases hfind : object.find? (·.1 ≠ cstr "_error_info") with
  | none =>
    have hnot := List.find?_eq_none.mp hfind m hm
    exact hnot (by simpa using hne)
  | some first =>
    rw [hfind] at h
    have hname : first.1 ≠ cstr "_error_info" := by simpa using List.find?_some hfind
    have hmem := stripErrorInfo_mem (List.mem_of_find?_eq_some hfind) hname
    exact object_ne_member hmem (Option.some.inj (h _ rfl)).symm

/-- What returns its content has kept it. -/
theorem contentKept_of_content
    (hbody : msgHasBodyOverride (codec.descriptor message) = false)
    (hobj : codec.protobuf2jsonObject message = some object)
    (hcontent : ∀ json, returnedJson codec message = some json →
      expectedJson (codec.descriptor message) object = some json) :
    ContentKept (codec.descriptor message) object := by
  unfold ContentKept
  by_cases hant : (codec.descriptor message).name = cstr "ant_result"
  · exact .inl hant
  refine .inr ?_
  cases honly : onlyDataField (codec.descriptor message) with
  | some field => exact .inl rfl
  | none =>
    refine .inr ?_
    have hexpected : expectedJson (codec.descriptor message) object =
        some (.object (stripErrorInfo object)) := by
      rw [expectedJson, if_neg hant, honly]
    rw [returnedJson_eq hbody hobj, if_neg hant, hexpected] at hcontent
    by_cases htwo : (codec.descriptor message).fields.length ≤ 2
    · rw [if_pos htwo]
      rw [if_pos htwo] at hcontent
      exact names_of_firstMember hcontent
    · rw [if_neg htwo]
      rw [if_neg htwo] at hcontent
      intro errorInfo hget
      rw [hget] at hcontent
      exact clean_of_stripped (Option.some.inj (hcontent _ (if_pos rfl))).symm hget

/-- What has kept its content returns it. -/
theorem content_of_contentKept (hconv : ConvertsFieldsOnce codec)
    (hbody : msgHasBodyOverride (codec.descriptor message) = false)
    (hobj : codec.protobuf2jsonObject message = some object)
    (hkept : ContentKept (codec.descriptor message) object) {json : Json}
    (hjson : returnedJson codec message = some json) :
    expectedJson (codec.descriptor message) object = some json := by
  rw [returnedJson_eq hbody hobj] at hjson
  unfold expectedJson
  by_cases hant : (codec.descriptor message).name = cstr "ant_result"
  · rw [if_pos hant] at hjson ⊢
    exact hjson
  rw [if_neg hant] at hjson ⊢
  cases honly : onlyDataField (codec.descriptor message) with
  | some field =>
    rw [if_pos (onlyDataField_eq_some honly).2,
      find_onlyDataField honly (hconv.fields message object hobj)] at hjson
    exact hjson
  | none =>
    unfold ContentKept at hkept
    rw [honly] at hkept
    have hrest := (hkept.resolve_left hant).resolve_left (by simp)
    dsimp only
    by_cases htwo : (codec.descriptor message).fields.length ≤ 2
    · rw [if_pos htwo] at hjson hrest
      obtain ⟨m, hfind, _⟩ := Option.map_eq_some_iff.mp hjson
      have hm := hrest m.1 (List.mem_map_of_mem (List.mem_of_find?_eq_some hfind))
      have hne := List.find?_some hfind
      simp [hm] at hne
    · rw [if_neg htwo] at hjson hrest
      have hclean := stripErrorInfo_clean (hconv.distinct message object hobj)
        fun errorInfo hget => (hrest errorInfo hget).1
      rw [hclean]
      cases hget : Members.get object (cstr "_error_info") with
      | none =>
        rw [hget] at hjson
        exact hjson
      | some errorInfo =>
        rw [hget] at hjson
        rw [← stripDetails_of_not_empty (hrest errorInfo hget).2]
        exact hjson

/-- **Content.** A response carries its message exactly when stripping finds no empty `details`
beside or inside of `_error_info` where a message of more than two fields has one. -/
theorem returnsContent_iff (hconv : ConvertsFieldsOnce codec)
    (hbody : msgHasBodyOverride (codec.descriptor message) = false) :
    ReturnsContent codec message ↔ ∀ object, codec.protobuf2jsonObject message = some object →
      ContentKept (codec.descriptor message) object := by
  constructor
  · intro h object hobj
    exact contentKept_of_content hbody hobj fun json => h.content object json hobj
  · intro h
    refine .of_content hconv ?_
    intro object json hobj
    exact content_of_contentKept hconv hbody hobj (h object hobj)

end

/-! ## A device and its details -/

/-- A message with `_error_info`, a name and `details` of its own. -/
def deviceDesc : MessageDescriptor :=
  ⟨cstr "device", [⟨cstr "_error_info", .optional, .message⟩, ⟨cstr "name", .optional, .string⟩,
    ⟨cstr "details", .repeated, .string⟩], by decide⟩

/-- The device, given what is in the `details` of its `_error_info` and in its own. -/
def deviceJson (reasons details : List Json) : JsonObject :=
  [(cstr "_error_info", .object [(cstr "code", .int 0), (cstr "details", .array reasons)]),
    (cstr "name", .string (cstr "a")), (cstr "details", .array details)]

def deviceCodec (reasons details : List Json) : OutputCodec Unit :=
  { descriptor := fun _ => deviceDesc
    errorInfo := fun _ => some (some 0)
    code := fun _ => none
    dropErrorInfo := id
    body := fun _ => none
    protobuf2jsonObject := fun _ => some (deviceJson reasons details)
    antResultObject := fun _ _ => none
    jsonDumps := fun _ => some (cstr "{}") }

theorem deviceCodec_converts (reasons details : List Json) :
    ConvertsFieldsOnce (deviceCodec reasons details) := by
  constructor
  · intro message object hobj
    obtain rfl := Option.some.inj hobj
    show ([cstr "_error_info", cstr "name", cstr "details"] : List CString).Nodup
    decide
  · intro message object hobj
    obtain rfl := Option.some.inj hobj
    show ∀ k ∈ [cstr "_error_info", cstr "name", cstr "details"],
      (deviceDesc.getFieldByName k).isSome
    decide

theorem returnsContent_device :
    ReturnsContent (deviceCodec [.string (cstr "r")] [.string (cstr "d")]) () := by
  refine (returnsContent_iff (deviceCodec_converts _ _) (by decide)).mpr ?_
  intro object hobj
  obtain rfl := Option.some.inj hobj
  refine .inr (.inr ?_)
  rw [if_neg (by decide)]
  intro errorInfo hget
  obtain rfl := Option.some.inj hget
  constructor
  · intro ⟨members, he, hempty⟩
    obtain rfl := Json.object.inj he
    cases hempty
  · intro ⟨members, he, hempty⟩
    obtain rfl := Json.object.inj he
    cases hempty

/-- An empty `details` stays in `_error_info`, and the device loses its own. -/
theorem device_details_lost :
    returnedJson (deviceCodec [] []) () = some (.object
        [(cstr "_error_info", .object [(cstr "code", .int 0), (cstr "details", .array [])]),
          (cstr "name", .string (cstr "a"))]) ∧
      ¬ ReturnsContent (deviceCodec [] []) () := by
  have hjson : returnedJson (deviceCodec [] []) () = some (.object
      [(cstr "_error_info", .object [(cstr "code", .int 0), (cstr "details", .array [])]),
        (cstr "name", .string (cstr "a"))]) := rfl
  refine ⟨hjson, fun h => ?_⟩
  exact h.errorInfoStripped _ _ hjson (by decide) rfl rfl ⟨_, rfl, rfl⟩

end Cmsg.Proxy
