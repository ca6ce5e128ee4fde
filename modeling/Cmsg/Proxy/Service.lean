import Mathlib.Data.List.Nodup
import Cmsg.Proxy.Strings

/-! # The services that the proxy offers -/
namespace Cmsg.Proxy
open Cmsg.Base

inductive HttpVerb
  | get | put | post | delete | patch
  deriving DecidableEq

/-- The protobuf-c types of a field. -/
inductive FieldType
  | int32 | sint32 | sfixed32 | int64 | sint64 | sfixed64 | uint32 | fixed32 | uint64 | fixed64
  | float | double | bool | enum | string | bytes | message
  deriving DecidableEq

inductive FieldLabel
  | required | optional | repeated | none
  deriving DecidableEq

structure FieldDescriptor where
  name : CString
  label : FieldLabel
  type : FieldType
  deriving DecidableEq

/-- The fields of a message have distinct names. -/
structure MessageDescriptor where
  name : CString
  fields : List FieldDescriptor
  distinct : (fields.map (·.name)).Nodup
  deriving DecidableEq

theorem noFields_distinct : (([] : List FieldDescriptor).map (·.name)).Nodup := List.nodup_nil

structure ServiceInfo where
  serviceName : CString
  inputDesc : MessageDescriptor
  outputDesc : MessageDescriptor
  urlString : CString
  httpVerb : HttpVerb
  bodyString : CString
  deriving DecidableEq

/-- A parameter of the path or of the query, with the value that the unescaping
of GLib gave, if it gave one. -/
structure UrlParameter where
  key : CString
  value : Option CString
  deriving DecidableEq

/-- `protobuf_c_message_descriptor_get_field_by_name`. -/
def MessageDescriptor.getFieldByName (desc : MessageDescriptor) (name : CString) :
    Option FieldDescriptor :=
  desc.fields.find? (·.name == name)

def fieldIsHidden (fieldName : CString) : Bool := fieldName.head? == some underscore

def msgHasFile (desc : MessageDescriptor) : Bool := (desc.getFieldByName (cstr "_file")).isSome

/-- The hidden fields of a message. -/
def hiddenFields (desc : MessageDescriptor) : List FieldDescriptor :=
  desc.fields.filter fun field => fieldIsHidden field.name

section
variable {desc : MessageDescriptor} {name : CString} {field : FieldDescriptor}

theorem getFieldByName_eq_some :
    desc.getFieldByName name = some field ↔ field ∈ desc.fields ∧ field.name = name := by
  constructor
  · intro h
    exact ⟨List.mem_of_find?_eq_some h, by simpa using List.find?_some h⟩
  · rintro ⟨hmem, rfl⟩
    cases hfind : desc.getFieldByName field.name with
    | none =>
      have := List.find?_eq_none.mp hfind field hmem
      simp at this
    | some other =>
      have hother : other ∈ desc.fields := List.mem_of_find?_eq_some hfind
      have hname : other.name = field.name := by simpa using List.find?_some hfind
      rw [List.inj_on_of_nodup_map desc.distinct hother hmem hname]

theorem getFieldByName_name (h : desc.getFieldByName name = some field) : field.name = name :=
  (getFieldByName_eq_some.mp h).2

end

end Cmsg.Proxy
