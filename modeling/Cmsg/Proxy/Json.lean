import Cmsg.Base.Members
import Cmsg.Proxy.Tree

/-! # JSON values for the fields of a message -/
namespace Cmsg.Proxy
open Cmsg.Base

/-- `json_t`. The proxy never looks into a real, which keeps its text. -/
inductive Json
  | null
  | bool (b : Bool)
  | int (i : Int)
  | real (text : CString)
  | string (s : CString)
  | array (elements : List Json)
  | object (members : List (CString × Json))

abbrev JsonObject := Members CString Json

/-- What GLib and Jansson say about the text of a value: how it is unescaped, and
whether it is UTF-8, which `json_pack` requires of a string. -/
structure Text where
  uriUnescape : CString → Option CString
  utf8 : CString → Bool

def isSpace (c : UInt8) : Bool := c == 0x20 || (0x09 ≤ c && c ≤ 0x0d)

def isDigit (c : UInt8) : Bool := 0x30 ≤ c && c ≤ 0x39

/-- The value of decimal digits. -/
def decimalValue (digits : CString) : Int :=
  digits.foldl (fun n c => n * 10 + (c.toNat - 0x30 : Nat)) 0

/-- `strtoll` for base 10: the value, kept within 64 bits, and where it ended. -/
def strtoll (s : CString) : Int × CString :=
  let body := s.dropWhile isSpace
  let (negative, unsigned) :=
    match body with
    | c :: rest => if c = 0x2d then (true, rest) else if c = 0x2b then (false, rest) else (false, body)
    | [] => (false, body)
  let digits := unsigned.takeWhile isDigit
  if digits.isEmpty then (0, s)
  else
    let value := if negative then -decimalValue digits else decimalValue digits
    (max (-2 ^ 63) (min (2 ^ 63 - 1) value), unsigned.dropWhile isDigit)

/-- The member that is packed for a field, an array of one element for a repeated
field. -/
def packField (field : FieldDescriptor) (value : Json) : JsonObject :=
  [(field.name, if field.label = .repeated then .array [value] else value)]

/-- `cmsg_proxy_json_value_handle_as_string`. -/
def jsonValueHandleAsString (text : Text) (field : FieldDescriptor) (value : CString) :
    Option JsonObject :=
  if text.utf8 value then some (packField field (.string value)) else none

/-- `cmsg_proxy_json_value_to_object`. -/
def jsonValueToObject (text : Text) (field : FieldDescriptor) :
    Option CString → Option JsonObject
  | none => some (packField field .null)
  | some value =>
    match field.type with
    | .int32 | .sint32 | .sfixed32 | .uint32 | .fixed32 =>
      let (llvalue, rest) := strtoll value
      if rest.isEmpty then some (packField field (.int llvalue))
      else jsonValueHandleAsString text field value
    | .uint64 | .int64 | .sint64 | .sfixed64 | .fixed64 | .enum | .string =>
      jsonValueHandleAsString text field value
    | .bool =>
      if value = cstr "false" ∨ value = cstr "true" then
        some (packField field (.bool (value != cstr "false")))
      else jsonValueHandleAsString text field value
    | .float | .double | .bytes | .message => none

/-- `cmsg_proxy_set_internal_api_value`. -/
def setInternalApiValue (text : Text) (value : Option CString) (obj : JsonObject)
    (desc : MessageDescriptor) (fieldName : CString) : JsonObject :=
  match desc.getFieldByName fieldName with
  | none => obj
  | some field =>
    match jsonValueToObject text field value with
    | none => obj
    | some new => obj.update new

/-- `cmsg_proxy_parse_url_parameters`: the parameter added first has the last word. -/
def parseUrlParameters (text : Text) (params : List UrlParameter) (obj : JsonObject)
    (desc : MessageDescriptor) : JsonObject :=
  params.foldl (fun obj p => setInternalApiValue text p.value obj desc p.key) obj

/-! ## Settings of fields -/

/-- Neither an empty array nor an empty object. -/
def Json.NonEmpty : Json → Prop
  | .array [] | .object [] => False
  | _ => True

section
variable {text : Text} {field : FieldDescriptor} {new : JsonObject}

theorem packField_eq (field : FieldDescriptor) {j : Json} (hj : j.NonEmpty) :
    ∃ j', packField field j = [(field.name, j')] ∧ j'.NonEmpty := by
  refine ⟨_, rfl, ?_⟩
  split
  · trivial
  · exact hj

theorem jsonValueHandleAsString_eq {value : CString}
    (h : jsonValueHandleAsString text field value = some new) :
    ∃ j, new = [(field.name, j)] ∧ j.NonEmpty := by
  unfold jsonValueHandleAsString at h
  split at h
  · cases h
    exact packField_eq field trivial
  · cases h

/-- Whatever is made for a field has one member, of the field's name. -/
theorem jsonValueToObject_eq {value : Option CString}
    (h : jsonValueToObject text field value = some new) :
    ∃ j, new = [(field.name, j)] ∧ j.NonEmpty := by
  cases value with
  | none =>
    cases h
    exact packField_eq field trivial
  | some value =>
    unfold jsonValueToObject at h
    cases hty : field.type <;> simp only [hty] at h
    case float | double | bytes | message => cases h
    case uint64 | int64 | sint64 | sfixed64 | fixed64 | enum | string =>
      exact jsonValueHandleAsString_eq h
    all_goals
      split at h
      · cases h
        exact packField_eq field trivial
      · exact jsonValueHandleAsString_eq h

/-- The object that one setting of a field makes. -/
def settingObject (text : Text) (desc : MessageDescriptor) (s : CString × Option CString) :
    JsonObject :=
  ((desc.getFieldByName s.1).bind fun field => jsonValueToObject text field s.2).getD []

/-- The object that settings of fields make by themselves, one after another. -/
def settingsObject (text : Text) (desc : MessageDescriptor)
    (settings : List (CString × Option CString)) : JsonObject :=
  Members.updateAll [] (settings.map (settingObject text desc))

theorem settingObject_eq {desc : MessageDescriptor} {s : CString × Option CString} :
    settingObject text desc s = [] ∨
      ∃ j, settingObject text desc s = [(s.1, j)] ∧ j.NonEmpty := by
  unfold settingObject
  cases hfield : desc.getFieldByName s.1 with
  | none => exact Or.inl rfl
  | some field =>
    rw [Option.bind_some]
    cases hnew : jsonValueToObject text field s.2 with
    | none => exact Or.inl rfl
    | some new =>
      obtain ⟨j, hj, hne⟩ := jsonValueToObject_eq hnew
      rw [getFieldByName_name hfield] at hj
      exact Or.inr ⟨j, hj, hne⟩

theorem setInternalApiValue_eq (text : Text) (value : Option CString) (obj : JsonObject)
    (desc : MessageDescriptor) (fieldName : CString) :
    setInternalApiValue text value obj desc fieldName =
      obj.update (settingObject text desc (fieldName, value)) := by
  unfold setInternalApiValue settingObject
  cases hfield : desc.getFieldByName fieldName with
  | none => rfl
  | some field =>
    rw [Option.bind_some]
    cases hnew : jsonValueToObject text field value with
    | none => simp only [hnew, Option.getD_none, Members.update_nil]
    | some new => simp only [hnew, Option.getD_some]

/-- Settings made in sequence are one update. -/
theorem foldl_setInternalApiValue (text : Text) (desc : MessageDescriptor)
    (settings : List (CString × Option CString)) (obj : JsonObject) :
    settings.foldl (fun obj s => setInternalApiValue text s.2 obj desc s.1) obj =
      obj.update (settingsObject text desc settings) := by
  rw [settingsObject, ← Members.updateAll_eq, Members.updateAll, List.foldl_map]
  simp only [setInternalApiValue_eq]

theorem parseUrlParameters_eq (text : Text) (params : List UrlParameter) (obj : JsonObject)
    (desc : MessageDescriptor) :
    parseUrlParameters text params obj desc =
      obj.update (settingsObject text desc (params.map fun p => (p.key, p.value))) := by
  rw [← foldl_setInternalApiValue, List.foldl_map]
  rfl

theorem distinct_settingsObject (text : Text) (desc : MessageDescriptor)
    (settings : List (CString × Option CString)) : (settingsObject text desc settings).Distinct :=
  Members.distinct_updateAll _

theorem nil_update_settingsObject (text : Text) (desc : MessageDescriptor)
    (settings : List (CString × Option CString)) :
    Members.update [] (settingsObject text desc settings) = settingsObject text desc settings :=
  (Members.updateAll_eq [] _).symm

/-- The keys of settings are those that are set to something. -/
theorem mem_keys_settingsObject {desc : MessageDescriptor}
    {settings : List (CString × Option CString)} {k : CString} :
    k ∈ (settingsObject text desc settings).keys ↔
      ∃ s ∈ settings, s.1 = k ∧ settingObject text desc s ≠ [] := by
  rw [settingsObject, Members.mem_keys_updateAll]
  simp only [Members.keys, List.map_nil, List.not_mem_nil, false_or, List.mem_map,
    exists_exists_and_eq_and]
  refine exists_congr fun s => and_congr_right fun _ => ?_
  rcases @settingObject_eq text desc s with h | ⟨j, h, _⟩
  · simp [h]
  · simp [h]

theorem settingsObject_append (text : Text) (desc : MessageDescriptor)
    (first second : List (CString × Option CString)) :
    settingsObject text desc (first ++ second) =
      (settingsObject text desc first).update (settingsObject text desc second) := by
  rw [settingsObject, List.map_append, Members.updateAll, List.foldl_append, ← Members.updateAll,
    ← Members.updateAll, Members.updateAll_eq]
  rfl

theorem settingsObject_nonEmpty {desc : MessageDescriptor}
    {settings : List (CString × Option CString)} {k : CString} {j : Json}
    (h : (settingsObject text desc settings).get k = some j) : j.NonEmpty := by
  rcases Members.mem_updateAll (Members.mem_of_get h) with hmem | ⟨o, ho, hmem⟩
  · cases hmem
  · obtain ⟨s, _, rfl⟩ := List.mem_map.mp ho
    rcases @settingObject_eq text desc s with he | ⟨j', he, hne⟩
    · rw [he] at hmem
      cases hmem
    · rw [he, List.mem_singleton] at hmem
      cases hmem
      exact hne

/-- Settings that come to nothing can be left out. -/
theorem settingsObject_filter {desc : MessageDescriptor} (p : CString × Option CString → Bool)
    {settings : List (CString × Option CString)}
    (h : ∀ s ∈ settings, p s = false → settingObject text desc s = []) :
    settingsObject text desc (settings.filter p) = settingsObject text desc settings := by
  have hgen : ∀ obj : JsonObject,
      Members.updateAll obj ((settings.filter p).map (settingObject text desc)) =
        Members.updateAll obj (settings.map (settingObject text desc)) := by
    induction settings with
    | nil => exact fun _ => rfl
    | cons s settings ih =>
      intro obj
      have ih' := ih fun s hs => h s (List.mem_cons_of_mem _ hs)
      cases hp : p s with
      | true =>
        rw [List.filter_cons_of_pos hp]
        exact ih' _
      | false =>
        rw [List.filter_cons_of_neg (by simp [hp]), ih', List.map_cons, h s (by simp) hp]
        rfl
  exact hgen []

end

end Cmsg.Proxy
