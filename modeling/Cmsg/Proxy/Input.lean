import Cmsg.Proxy.Json

/-! # From a request to an input message

`cmsg_proxy_input_process` finds the service of a request and builds the object
of its input message from the body, then the path and query parameters, then the
values that the proxy sets itself. -/
namespace Cmsg.Proxy
open Cmsg.Base

structure ApiRequestInfo where
  apiRequestIpAddress : Option CString
  apiRequestUsername : Option CString

structure ApiFileInfo where
  uploadRequest : Bool
  tempFilename : Option CString
  clientFilename : Option CString

/-- `cmsg_proxy_input`. -/
structure Input where
  url : CString
  queryString : Option CString
  httpVerb : HttpVerb
  data : Option (List UInt8)
  webApiInfo : ApiRequestInfo
  fileInfo : ApiFileInfo

inductive AntCode
  | invalidArgument | unimplemented | internal | unavailable
  deriving DecidableEq

/-- What `cmsg_proxy_generate_ant_result_error` reports. -/
structure AntResult where
  code : AntCode
  message : CString
  deriving DecidableEq

/-- The errors of protobuf2json. -/
inductive Protobuf2JsonErr
  | requiredIsMissing | unknownField | isNotObject | isNotArray | isNotInteger
  | isNotIntegerOrReal | isNotBoolean | isNotString | unknownEnumValue | cannotParseString
  | cannotParseFile | unsupportedFieldType
  | cannotDumpString | cannotDumpFile | janssonInternal | cannotAllocateMemory
  deriving DecidableEq

/-- What the proxy works with: its tree, the text and JSON libraries, the conversion
to a message (the values of the fields that are set), the callback of the
application, the clients that exist and the id of the next stream. -/
structure Environment (V : Type) where
  text : Text
  tree : GNode
  jsonLoads : CString → Except CString Json
  json2protobufObject : JsonObject → MessageDescriptor →
    Except (Protobuf2JsonErr × CString) (CString → Option V)
  preApiCheckCallback : Option (HttpVerb → Bool × Option CString)
  findClientByService : CString → Bool
  nextStreamId : Nat

/-- The value of a field: converted from JSON, or the raw data of the request. -/
inductive FieldValue (V : Type)
  | converted (v : V)
  | raw (data : List UInt8)
  deriving DecidableEq

/-- The input message with what else `cmsg_proxy_input_process` reports. -/
structure InputMessage (V : Type) where
  serviceInfo : ServiceInfo
  streamingId : Option Nat
  isFileInput : Bool
  field : CString → Option (FieldValue V)

/-! ## The service and the parameters -/

/-- One entry of `cmsg_proxy_parse_query_parameters`: it is added unless its key is
there already. -/
def parseQueryEntry (uriUnescape : CString → Option CString) (params : List UrlParameter)
    (entry : CString) : List UrlParameter :=
  match cutLast equalsSign entry with
  | none => params
  | some (key, value) =>
    if params.any fun p => p.key == key then params
    else createUrlParameter uriUnescape key value :: params

/-- The entries of a query string. -/
def queryEntries : Option CString → List CString
  | none => []
  | some queryString => strtok ampersand queryString

def parseQueryParameters (uriUnescape : CString → Option CString) (queryString : Option CString)
    (params : List UrlParameter) : List UrlParameter :=
  (queryEntries queryString).foldl (parseQueryEntry uriUnescape) params

def getServiceAndParameters (text : Text) (tree : GNode) (url : CString)
    (queryString : Option CString) (verb : HttpVerb) : Option (ServiceInfo × List UrlParameter) :=
  match findServiceFromUrlAndVerb text.uriUnescape tree url verb [] with
  | (none, _) => none
  | (some info, params) => some (info, parseQueryParameters text.uriUnescape queryString params)

/-! ## The body -/

/-- `cmsg_proxy_input_data_presence_as_expected`. -/
def inputDataPresenceAsExpected (data : Option (List UInt8)) (bodyString : CString) :
    Except CString Unit :=
  if bodyString = [] then
    if data.isSome then
      .error (cstr "Invalid JSON: No JSON data expected for API, but JSON data input")
    else .ok ()
  else if bodyString.head? ≠ some 0x2a ∧ data.isNone then
    .error (cstr "Invalid JSON: Input expected but not provided.")
  else .ok ()

def findUnparsedField (desc : MessageDescriptor) (params : List UrlParameter) :
    Option FieldDescriptor :=
  desc.fields.find? fun field =>
    !fieldIsHidden field.name && !params.any fun p => p.key == field.name

/-- `cmsg_proxy_json_object_sanity_check`, with the members of the object. -/
def jsonObjectSanityCheck : Json → Except CString JsonObject
  | .object members =>
    if members.any fun m => fieldIsHidden m.1 then .error (cstr "Invalid JSON") else .ok members
  | _ => .error (cstr "JSON object expected but JSON value or array given")

def jsonObjectArraySanityCheck : Json → Except CString Unit
  | .array elements =>
    if elements.all fun j => (jsonObjectSanityCheck j).isOk then .ok ()
    else .error (cstr "Invalid JSON")
  | _ => .error (cstr "JSON array expected but JSON value or object given")

/-- The object for a field that the whole body is the value of. Where no object can
be made of a value, the error text is the empty one that `json_loads` left. -/
def jsonFieldCreate (text : Text) (field : FieldDescriptor) (convertedJson : Json)
    (inputData : CString) : Except CString JsonObject :=
  if field.type = .message then
    match (if field.label = .repeated then jsonObjectArraySanityCheck convertedJson
      else (jsonObjectSanityCheck convertedJson).map fun _ => ()) with
    | .error e => .error e
    | .ok () => .ok [(field.name, convertedJson)]
  else
    match convertedJson with
    | .object _ => .error (cstr "JSON value or array expected but JSON object given")
    | .array _ => .ok [(field.name, convertedJson)]
    | .string s => (jsonValueToObject text field (some s)).elim (.error []) .ok
    | _ =>
      if field.type = .enum ∨ field.type = .string then .error (cstr "JSON string value expected")
      else (jsonValueToObject text field (some inputData)).elim (.error []) .ok

/-- The number of fields that neither a parameter nor the proxy fills. -/
def expectedInputFields (desc : MessageDescriptor) (params : List UrlParameter) : Int :=
  (desc.fields.length : Int) - params.length - (hiddenFields desc).length

/-- `cmsg_proxy_json_object_create`. -/
def jsonObjectCreate (text : Text) (jsonLoads : CString → Except CString Json)
    (data : Option (List UInt8)) (desc : MessageDescriptor) (bodyString : CString)
    (params : List UrlParameter) : Except CString JsonObject :=
  match data with
  | none => .ok []
  | some data =>
    if msgHasFile desc then .ok []
    else
      let inputData : CString := data.takeWhile (· != 0)
      match jsonLoads inputData with
      | .error e => .error e
      | .ok convertedJson =>
        if bodyString ≠ cstr "*" ∨ expectedInputFields desc params = 1 then
          match (if bodyString = cstr "*" then findUnparsedField desc params
            else desc.getFieldByName bodyString) with
          | none => .error (cstr "Internal proxy error")
          | some field => jsonFieldCreate text field convertedJson inputData
        else jsonObjectSanityCheck convertedJson

/-! ## The values that the proxy sets -/

/-- `cmsg_proxy_set_internal_api_info`. -/
def setInternalApiInfo (text : Text) (webApiInfo : ApiRequestInfo) (obj : JsonObject)
    (desc : MessageDescriptor) : JsonObject :=
  let obj := setInternalApiValue text webApiInfo.apiRequestIpAddress obj desc
    (cstr "_api_request_ip_address")
  setInternalApiValue text webApiInfo.apiRequestUsername obj desc (cstr "_api_request_username")

/-- `cmsg_proxy_set_file_upload_info`. -/
def setFileUploadInfo (text : Text) (fileInfo : ApiFileInfo) (obj : JsonObject)
    (desc : MessageDescriptor) : Except CString JsonObject :=
  if fileInfo.uploadRequest then
    if desc.name = cstr "file_upload_info" then
      let obj := setInternalApiValue text fileInfo.tempFilename obj desc (cstr "_temp_filename")
      .ok (setInternalApiValue text fileInfo.clientFilename obj desc (cstr "_client_filename"))
    else .error (cstr "API does not accept uploaded files as input data")
  else .ok obj

def streamingIsRequired (desc : MessageDescriptor) : Bool :=
  (desc.getFieldByName (cstr "_streaming_id")).isSome

/-- A number in decimal. -/
def decimal (n : Nat) : CString := (Nat.toDigits 10 n).map fun c => c.toNat.toUInt8

/-- The part of `cmsg_proxy_streaming_create_conn` that sets the id in the object. -/
def streamingSetId (text : Text) (id : Nat) (obj : JsonObject) (desc : MessageDescriptor) :
    JsonObject :=
  if streamingIsRequired desc then
    setInternalApiValue text (some (decimal id)) obj desc (cstr "_streaming_id")
  else obj

/-! ## Processing -/

section
variable {V : Type}

/-- `cmsg_proxy_pre_api_check`. -/
def preApiCheck (callback : Option (HttpVerb → Bool × Option CString)) (verb : HttpVerb) :
    Except AntResult Unit :=
  match callback with
  | none => .ok ()
  | some callback =>
    match callback verb with
    | (true, _) => .ok ()
    | (false, message) =>
      .error ⟨.unavailable, message.getD (cstr "Pre-API check failed")⟩

def Protobuf2JsonErr.userFriendly : Protobuf2JsonErr → Bool
  | .cannotDumpString | .cannotDumpFile | .janssonInternal | .cannotAllocateMemory => false
  | _ => true

/-- `cmsg_proxy_convert_json_to_protobuf`. -/
def convertJsonToProtobuf (env : Environment V) (obj : JsonObject) (desc : MessageDescriptor) :
    Except AntResult (CString → Option V) :=
  match env.json2protobufObject obj desc with
  | .ok fields => .ok fields
  | .error (res, conversionMessage) =>
    if res.userFriendly then .error ⟨.invalidArgument, conversionMessage⟩
    else .error ⟨.internal, cstr "JSON to Protobuf conversion failed"⟩

/-- `cmsg_proxy_file_data_to_message`: the file field holds the data of the request,
and is unset where there is none. -/
def fileDataToMessage (data : Option (List UInt8)) (field : CString → Option (FieldValue V)) :
    CString → Option (FieldValue V) := fun name =>
  if name = cstr "_file" then
    match data.getD [] with
    | [] => none
    | bytes => some (.raw bytes)
  else field name

/-- What `cmsg_proxy_input_process` does with the object made from the body. -/
def processObject (env : Environment V) (input : Input) (info : ServiceInfo)
    (params : List UrlParameter) (obj : JsonObject) : Except AntResult (InputMessage V) :=
  let desc := info.inputDesc
  let obj := parseUrlParameters env.text params obj desc
  let obj := setInternalApiInfo env.text input.webApiInfo obj desc
  match setFileUploadInfo env.text input.fileInfo obj desc with
  | .error message => .error ⟨.invalidArgument, message⟩
  | .ok obj =>
    if !env.findClientByService info.serviceName then
      .error ⟨.internal, cstr "Client not found in proxy_clients_list"⟩
    else
      let obj := streamingSetId env.text env.nextStreamId obj desc
      match convertJsonToProtobuf env obj desc with
      | .error result => .error result
      | .ok fields =>
        let field := fun name => (fields name).map FieldValue.converted
        .ok { serviceInfo := info
              streamingId := if streamingIsRequired desc then some env.nextStreamId else none
              isFileInput := msgHasFile desc
              field := if msgHasFile desc then fileDataToMessage input.data field else field }

/-- `cmsg_proxy_input_process`. -/
def inputProcess (env : Environment V) (input : Input) : Except AntResult (InputMessage V) :=
  match getServiceAndParameters env.text env.tree input.url input.queryString input.httpVerb with
  | none => .error ⟨.unimplemented, cstr "Unknown url and verb combination"⟩
  | some (info, params) =>
    match preApiCheck env.preApiCheckCallback input.httpVerb with
    | .error result => .error result
    | .ok () =>
      match inputDataPresenceAsExpected input.data info.bodyString with
      | .error message => .error ⟨.invalidArgument, message⟩
      | .ok () =>
        match jsonObjectCreate env.text env.jsonLoads input.data info.inputDesc info.bodyString
          params with
        | .error text => .error ⟨.invalidArgument, cstr "Invalid JSON: " ++ text⟩
        | .ok obj => processObject env input info params obj

end

end Cmsg.Proxy
