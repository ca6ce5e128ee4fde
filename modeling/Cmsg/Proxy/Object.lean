import Cmsg.Proxy.Input

/-! # The object of a request

The values of the parameters and those of the proxy are settings of fields, and
the settings together are one update of the object made from the body. -/
namespace Cmsg.Proxy
open Cmsg.Base

variable {V : Type}

/-- The settings of fields, one after another. -/
abbrev Settings := List (CString × Option CString)

def parameterSettings (params : List UrlParameter) : Settings :=
  params.map fun p => (p.key, p.value)

def requestSettings (webApiInfo : ApiRequestInfo) : Settings :=
  [(cstr "_api_request_ip_address", webApiInfo.apiRequestIpAddress),
    (cstr "_api_request_username", webApiInfo.apiRequestUsername)]

def uploadSettings (fileInfo : ApiFileInfo) : Settings :=
  if fileInfo.uploadRequest then
    [(cstr "_temp_filename", fileInfo.tempFilename),
      (cstr "_client_filename", fileInfo.clientFilename)]
  else []

def streamSettings (id : Nat) (desc : MessageDescriptor) : Settings :=
  if streamingIsRequired desc then [(cstr "_streaming_id", some (decimal id))] else []

/-- The values that the proxy sets itself. -/
def proxyValues (webApiInfo : ApiRequestInfo) (fileInfo : ApiFileInfo) (id : Nat)
    (desc : MessageDescriptor) : Settings :=
  requestSettings webApiInfo ++ uploadSettings fileInfo ++ streamSettings id desc

def proxySettings (env : Environment V) (input : Input) (desc : MessageDescriptor) : Settings :=
  proxyValues input.webApiInfo input.fileInfo env.nextStreamId desc

/-- The object that is converted to the input message. -/
def finalObject (env : Environment V) (input : Input) (desc : MessageDescriptor)
    (params : List UrlParameter) (obj : JsonObject) : JsonObject :=
  obj.update (settingsObject env.text desc
    (parameterSettings params ++ proxySettings env input desc))

/-- Whether the upload of a file is refused. -/
def uploadRefused (fileInfo : ApiFileInfo) (desc : MessageDescriptor) : Bool :=
  fileInfo.uploadRequest && desc.name != cstr "file_upload_info"

/-- The fields of the message that is made of the values that were converted. -/
def messageFields (input : Input) (desc : MessageDescriptor) (values : CString → Option V) :
    CString → Option (FieldValue V) :=
  if msgHasFile desc then fileDataToMessage input.data fun name => (values name).map .converted
  else fun name => (values name).map .converted

theorem update_settingsObject (text : Text) (desc : MessageDescriptor) (first second : Settings)
    (obj : JsonObject) :
    (obj.update (settingsObject text desc first)).update (settingsObject text desc second) =
      obj.update (settingsObject text desc (first ++ second)) := by
  rw [← foldl_setInternalApiValue, ← foldl_setInternalApiValue, ← foldl_setInternalApiValue,
    List.foldl_append]

theorem setInternalApiInfo_eq (text : Text) (webApiInfo : ApiRequestInfo) (obj : JsonObject)
    (desc : MessageDescriptor) :
    setInternalApiInfo text webApiInfo obj desc =
      obj.update (settingsObject text desc (requestSettings webApiInfo)) := by
  rw [← foldl_setInternalApiValue]
  rfl

theorem setFileUploadInfo_eq (text : Text) (fileInfo : ApiFileInfo) (obj : JsonObject)
    (desc : MessageDescriptor) :
    setFileUploadInfo text fileInfo obj desc =
      if uploadRefused fileInfo desc then
        .error (cstr "API does not accept uploaded files as input data")
      else .ok (obj.update (settingsObject text desc (uploadSettings fileInfo))) := by
  unfold setFileUploadInfo uploadRefused
  rw [← foldl_setInternalApiValue, uploadSettings]
  cases fileInfo.uploadRequest with
  | false => rfl
  | true =>
    by_cases hname : desc.name = cstr "file_upload_info"
    · simp [hname]
    · simp [hname]

theorem streamingSetId_eq (text : Text) (id : Nat) (obj : JsonObject) (desc : MessageDescriptor) :
    streamingSetId text id obj desc =
      obj.update (settingsObject text desc (streamSettings id desc)) := by
  unfold streamingSetId
  rw [← foldl_setInternalApiValue, streamSettings]
  split <;> rfl

/-- Processing converts the final object, unless the upload is refused or there is no
client. -/
theorem processObject_eq (env : Environment V) (input : Input) (info : ServiceInfo)
    (params : List UrlParameter) (obj : JsonObject) :
    processObject env input info params obj =
      if uploadRefused input.fileInfo info.inputDesc then
        .error ⟨.invalidArgument, cstr "API does not accept uploaded files as input data"⟩
      else if !env.findClientByService info.serviceName then
        .error ⟨.internal, cstr "Client not found in proxy_clients_list"⟩
      else
        (convertJsonToProtobuf env (finalObject env input info.inputDesc params obj)
          info.inputDesc).map fun values =>
            { serviceInfo := info
              streamingId :=
                if streamingIsRequired info.inputDesc then some env.nextStreamId else none
              isFileInput := msgHasFile info.inputDesc
              field := messageFields input info.inputDesc values } := by
  have hfinal : finalObject env input info.inputDesc params obj =
      streamingSetId env.text env.nextStreamId
        ((setInternalApiInfo env.text input.webApiInfo
          (parseUrlParameters env.text params obj info.inputDesc) info.inputDesc).update
          (settingsObject env.text info.inputDesc (uploadSettings input.fileInfo)))
        info.inputDesc := by
    rw [streamingSetId_eq, setInternalApiInfo_eq, parseUrlParameters_eq, update_settingsObject,
      update_settingsObject, update_settingsObject, finalObject, proxySettings, proxyValues,
      parameterSettings, List.append_assoc]
  unfold processObject
  simp only [setFileUploadInfo_eq]
  split
  · next hup =>
    split at hup
    · next href => rw [if_pos href]; cases hup; rfl
    · cases hup
  · next hup =>
    split at hup
    · cases hup
    · next href =>
      cases hup
      rw [if_neg href, hfinal]
      split
      · rfl
      · unfold messageFields
        cases convertJsonToProtobuf env _ info.inputDesc <;> rfl

/-! ## Requests that are processed -/

/-- What processing went through when it returned a message. -/
structure Processed (env : Environment V) (input : Input) (m : InputMessage V)
    (params : List UrlParameter) (obj : JsonObject) (values : CString → Option V) : Prop where
  lookup : getServiceAndParameters env.text env.tree input.url input.queryString input.httpVerb =
    some (m.serviceInfo, params)
  presence : inputDataPresenceAsExpected input.data m.serviceInfo.bodyString = .ok ()
  created : jsonObjectCreate env.text env.jsonLoads input.data m.serviceInfo.inputDesc
    m.serviceInfo.bodyString params = .ok obj
  converted : env.json2protobufObject (finalObject env input m.serviceInfo.inputDesc params obj)
    m.serviceInfo.inputDesc = .ok values
  field : m.field = messageFields input m.serviceInfo.inputDesc values

theorem convertJsonToProtobuf_ok {env : Environment V} {obj : JsonObject}
    {desc : MessageDescriptor} {values : CString → Option V}
    (h : convertJsonToProtobuf env obj desc = .ok values) :
    env.json2protobufObject obj desc = .ok values := by
  unfold convertJsonToProtobuf at h
  split at h
  · next heq =>
    cases h
    exact heq
  · split at h <;> cases h

theorem processObject_ok {env : Environment V} {input : Input} {info : ServiceInfo}
    {params : List UrlParameter} {obj : JsonObject} {m : InputMessage V}
    (h : processObject env input info params obj = .ok m) :
    m.serviceInfo = info ∧ ∃ values,
      env.json2protobufObject (finalObject env input info.inputDesc params obj) info.inputDesc =
        .ok values ∧ m.field = messageFields input info.inputDesc values := by
  rw [processObject_eq] at h
  split at h
  · cases h
  · split at h
    · cases h
    · cases hconv : convertJsonToProtobuf env (finalObject env input info.inputDesc params obj)
        info.inputDesc with
      | error result =>
        rw [hconv] at h
        cases h
      | ok values =>
        rw [hconv] at h
        cases h
        exact ⟨rfl, values, convertJsonToProtobuf_ok hconv, rfl⟩

theorem inputProcess_ok {env : Environment V} {input : Input} {m : InputMessage V}
    (h : inputProcess env input = .ok m) :
    ∃ params obj values, Processed env input m params obj values := by
  unfold inputProcess at h
  split at h
  · cases h
  · next info params hlookup =>
    split at h
    · cases h
    · split at h
      · cases h
      · next hpresence =>
        split at h
        · cases h
        · next obj hcreated =>
          obtain ⟨rfl, values, hconv, hfield⟩ := processObject_ok h
          exact ⟨params, obj, values, hlookup, hpresence, hcreated, hconv, hfield⟩

end Cmsg.Proxy
