import Mathlib.Data.List.FinRange
import Cmsg.Base.Search
import Cmsg.Proxy.Strings

/-! # The validation functions that the generator writes

The generator turns the `validation` options of a schema into one C function for
each message type that has any, directly or through its sub-messages. The C it
writes is a list of statements that return `false` at the first failed check;
`callFunction` runs it. Field constraints are those of the schema, and `Valid`
says what they mean for a message as a whole.

A string literal of the generated C stands for the text the schema has there. -/
namespace Cmsg.Protoc
open Cmsg.Base Cmsg.Base.Search
open Cmsg.Proxy (cstr)

/-! ## Names -/

def dot : UInt8 := 0x2e

/-- `SplitStringUsing` with a delimiter of one character. -/
def splitStringUsing (full : CString) (delim : UInt8) : List CString :=
  (full.splitOn delim).filter fun piece => !piece.isEmpty

/-- `cmsg::FullNameToLower` and `cmsg::FullNameToC`: in both, letters stay as they are. -/
def fullNameToLower (fullName : CString) : CString :=
  (splitStringUsing fullName dot).foldl
    (fun rv piece => if rv.isEmpty then piece else rv ++ cstr "_" ++ piece) []

/-! ## Schemas -/

/-- `common_string_format` -/
inductive StringFormat
  | ipAddress
  | utcTimestamp
  | macAddress
deriving DecidableEq, Repr

/-- `FieldValidation` -/
structure FieldValidation where
  intGe : Option Int
  intLe : Option Int
  stringFormat : Option StringFormat
  errorMessage : Option CString
deriving DecidableEq, Repr

/-- The type of a field, of the `n` message types of the schema if it is one of them. -/
inductive FieldType (n : Nat)
  | integer
  | string
  | message (type : Fin n)
  | other
deriving DecidableEq, Repr

/-- `FieldDescriptor`. A field is singular when it is neither repeated nor in a `oneof`. -/
structure Field (n : Nat) where
  name : CString
  type : FieldType n
  singular : Bool
  validation : Option FieldValidation

/-- `Descriptor`. A nested type is one that is declared inside another message. -/
structure Descriptor (n : Nat) where
  fullName : CString
  nested : Bool
  fields : List (Field n)

/-- The message types of all the files that are compiled together. -/
structure Schema where
  n : Nat
  descriptor : Fin n → Descriptor n

variable {S : Schema}

def Schema.fields (S : Schema) (t : Fin S.n) : List (Field S.n) := (S.descriptor t).fields

/-- What `_message_has_validation` looks at in a field. -/
def Field.edge {n : Nat} (f : Field n) : Edge (Fin n) :=
  if f.validation.isSome then .goal
  else match f.type with
    | .message sub => .node sub
    | _ => .none

def Schema.edges (S : Schema) (t : Fin S.n) : List (Edge (Fin S.n)) :=
  (S.fields t).map Field.edge

/-- `message_has_validation` -/
def messageHasValidation (S : Schema) (t : Fin S.n) : Bool :=
  finds S.edges (List.finRange S.n) t

/-! ## The generated C -/

/-- The library function that a statement calls, with the value to compare with. -/
inductive Check
  | intGe (compareValue : Int)
  | intLe (compareValue : Int)
  | ipAddress
  | utcTimestamp
  | macAddress
deriving DecidableEq, Repr

/-- `if (!check (...)) { return false; }`, and the same for the validation
function of a sub-message. -/
inductive Statement
  | check (check : Check) (fieldName errorMessage : CString)
  | subMessage (fieldName function : CString)
deriving DecidableEq, Repr

/-- The text that is given to the library function: `"NULL"` where the schema has none. -/
def FieldValidation.suppliedMessage (v : FieldValidation) : CString :=
  v.errorMessage.getD (cstr "NULL")

/-- The function that `generate_string_format_validation` calls. -/
def StringFormat.check : StringFormat → Check
  | .ipAddress => .ipAddress
  | .utcTimestamp => .utcTimestamp
  | .macAddress => .macAddress

/-- The checks that `generate_field_validation` writes. -/
def FieldValidation.checks (v : FieldValidation) : List Check :=
  (v.intGe.map Check.intGe).toList ++ (v.intLe.map Check.intLe).toList ++
    (v.stringFormat.map StringFormat.check).toList

/-- The name of the generated function. -/
def validateName (S : Schema) (t : Fin S.n) : CString :=
  fullNameToLower (S.descriptor t).fullName ++ cstr "_validate"

/-- `generate_fields_validation`: what it writes for one field. -/
def generateFieldValidation (S : Schema) (f : Field S.n) : List Statement :=
  match f.validation with
  | some v => v.checks.map fun c => .check c f.name v.suppliedMessage
  | none =>
    match f.type with
    | .message sub =>
      if messageHasValidation S sub then [.subMessage f.name (validateName S sub)] else []
    | _ => []

/-- `generate_fields_validation` -/
def generateFieldsValidation (S : Schema) (t : Fin S.n) : List Statement :=
  (S.fields t).flatMap (generateFieldValidation S)

/-- The functions that `GenerateValidationDefinitions` writes, with their bodies:
none for nested types. -/
def generateValidationDefinitions (S : Schema) : List (CString × List Statement) :=
  ((List.finRange S.n).filter fun t => !(S.descriptor t).nested && messageHasValidation S t).map
    fun t => (validateName S t, generateFieldsValidation S t)

/-! ## Running it -/

/-- The value of a field of a C message: an integer, a string or its missing
pointer, a sub-message or its missing pointer, or anything else. -/
inductive Value
  | int (v : Int)
  | str (s : Option CString)
  | null
  | msg (field : CString → Value)
  | other

/-- The functions outside of the repository: whether `inet_pton` returns 1,
what `strptime` leaves of a text for the format of a UTC timestamp, and
`utlstr_mac_address_validate`. -/
structure Platform where
  inetPton4 : CString → Bool
  inetPton6 : CString → Bool
  strptime : CString → Option CString
  utlstrMacAddressValidate : CString → Bool

/-- The array behind `err_str`, `NULL` if the caller gives none. -/
abbrev ErrStr := Option (List UInt8)

def percent : UInt8 := 0x25

/-- What `snprintf` makes of a format without arguments; undefined where the
format asks for one. -/
def expandFormat : CString → Option CString
  | [] => some []
  | c :: rest =>
    if c = percent then
      match rest with
      | [] => none
      | d :: rest' => if d = percent then (expandFormat rest').map (percent :: ·) else none
    else (expandFormat rest).map (c :: ·)

/-- `snprintf` of a finished text into an array. -/
def snprintf (text : CString) (buf : List UInt8) : List UInt8 :=
  match buf.length with
  | 0 => buf
  | n + 1 =>
    let written := text.take n ++ [0]
    written ++ buf.drop written.length

/-- The end that the validation functions share: `text` is the message of the
function itself, used when none is supplied. -/
def reportFailure (text : CString) (supplied : Option CString) (err : ErrStr) :
    Option (Bool × ErrStr) :=
  match err with
  | none => some (false, none)
  | some buf =>
    match supplied with
    | some format => (expandFormat format).map fun text => (false, some (snprintf text buf))
    | none => some (false, some (snprintf text buf))

/-- `"Field '%s' must be %s."` -/
def fieldMustBe (fieldName rest : CString) : CString :=
  cstr "Field '" ++ fieldName ++ cstr "' must be " ++ rest ++ cstr "."

/-- A 64-bit integer in decimal. -/
def decimalInt (v : Int) : CString := cstr (toString v)

/-- The value of an argument of type `int64_t`. -/
def toInt64 (v : Int) : Int := v.bmod (2 ^ 64)

/-- `cmsg_validate_int_ge` -/
def validateIntGe (input compareValue : Int) (fieldName : CString) (supplied : Option CString)
    (err : ErrStr) : Option (Bool × ErrStr) :=
  if input < compareValue then
    reportFailure
      (fieldMustBe fieldName (cstr "greater than or equal to " ++ decimalInt compareValue))
      supplied err
  else some (true, err)

/-- `cmsg_validate_int_le` -/
def validateIntLe (input compareValue : Int) (fieldName : CString) (supplied : Option CString)
    (err : ErrStr) : Option (Bool × ErrStr) :=
  if input > compareValue then
    reportFailure
      (fieldMustBe fieldName (cstr "less than or equal to " ++ decimalInt compareValue))
      supplied err
  else some (true, err)

/-- `cmsg_validate_ip_address` -/
def validateIpAddress (env : Platform) (input fieldName : CString) (supplied : Option CString)
    (err : ErrStr) : Option (Bool × ErrStr) :=
  if !env.inetPton4 input && !env.inetPton6 input then
    reportFailure (fieldMustBe fieldName (cstr "in IP address format")) supplied err
  else some (true, err)

/-- `cmsg_validate_utc_timestamp` -/
def validateUtcTimestamp (env : Platform) (input fieldName : CString) (supplied : Option CString)
    (err : ErrStr) : Option (Bool × ErrStr) :=
  if env.strptime input ≠ some [] then
    reportFailure (fieldMustBe fieldName (cstr "in UTC timestamp format")) supplied err
  else some (true, err)

/-- `cmsg_validate_mac_address` -/
def validateMacAddress (env : Platform) (input fieldName : CString) (supplied : Option CString)
    (err : ErrStr) : Option (Bool × ErrStr) :=
  if !env.utlstrMacAddressValidate input then
    reportFailure (fieldMustBe fieldName (cstr "in MAC address format")) supplied err
  else some (true, err)

/-- The call of a library function with a field; string checks are skipped for
a missing string. A field of another type is no argument for it. -/
def Check.call (env : Platform) (fieldName : CString) (supplied : Option CString) (err : ErrStr) :
    Check → Value → Option (Bool × ErrStr)
  | .intGe k, .int v => validateIntGe (toInt64 v) k fieldName supplied err
  | .intLe k, .int v => validateIntLe (toInt64 v) k fieldName supplied err
  | .ipAddress, .str (some s) => validateIpAddress env s fieldName supplied err
  | .utcTimestamp, .str (some s) => validateUtcTimestamp env s fieldName supplied err
  | .macAddress, .str (some s) => validateMacAddress env s fieldName supplied err
  | .ipAddress, .str none | .utcTimestamp, .str none | .macAddress, .str none => some (true, err)
  | _, _ => none

/-- The body of a generated function, `call` being the calls of others: of the
field and the function. -/
def runBody (env : Platform) (field : CString → Value)
    (call : CString → CString → ErrStr → Option (Bool × ErrStr)) :
    List Statement → ErrStr → Option (Bool × ErrStr)
  | [], err => some (true, err)
  | .check c name message :: rest, err =>
    match c.call env name (some message) err (field name) with
    | none => none
    | some (false, err') => some (false, err')
    | some (true, err') => runBody env field call rest err'
  | .subMessage name function :: rest, err =>
    match field name with
    | .null => runBody env field call rest err
    | .msg _ =>
      match call name function err with
      | none => none
      | some (false, err') => some (false, err')
      | some (true, err') => runBody env field call rest err'
    | _ => none

/-- The call of a generated function; undefined if the program does not have it. -/
def callFunction (env : Platform) (program : List (CString × List Statement)) :
    Value → CString → ErrStr → Option (Bool × ErrStr)
  | .null, function, err => (program.lookup function).map fun _ => (true, err)
  | .msg field, function, err =>
    match program.lookup function with
    | none => none
    | some body =>
      runBody env field
        (fun name function err => callFunction env program (field name) function err) body err
  | _, _, _ => none

/-! ## What the constraints mean -/

/-- A string of a format. -/
def StringFormat.Matches (env : Platform) (s : CString) : StringFormat → Prop
  | .ipAddress => env.inetPton4 s = true ∨ env.inetPton6 s = true
  | .utcTimestamp => env.strptime s = some []
  | .macAddress => env.utlstrMacAddressValidate s = true

/-- The constraints of one field. Those on integers are about the value as a
64-bit signed one, those on strings about strings that are there. -/
structure FieldValidation.Holds (env : Platform) (v : FieldValidation) (value : Value) : Prop where
  ge : ∀ k, v.intGe = some k → ∀ i, value = .int i → k ≤ toInt64 i
  le : ∀ k, v.intLe = some k → ∀ i, value = .int i → toInt64 i ≤ k
  format : ∀ fmt, v.stringFormat = some fmt → ∀ s, value = .str (some s) → fmt.Matches env s

/-- A message that meets the constraints of its type: those of its fields, and
those of its sub-messages in fields without constraints of their own. -/
def Valid (env : Platform) (S : Schema) : Value → Fin S.n → Prop
  | .msg field, t => ∀ f ∈ S.fields t,
    (∀ v, f.validation = some v → v.Holds env (field f.name)) ∧
      (f.validation = none → ∀ sub, f.type = .message sub → Valid env S (field f.name) sub)
  | _, _ => True

end Cmsg.Protoc
