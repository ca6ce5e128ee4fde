import Cmsg.Base.Lists
import Cmsg.Protoc.Validation
import Cmsg.Proxy.Service

/-! # The table of HTTP bindings that the generator writes

For each `google.api.http` option of a method the generator writes an entry of an array
that the proxy loads. The entry names the API of the service and the index of the method
by symbols of the generated header; the C compiler puts their values in. Where it accepts
the code, each entry leads to the method that has the option. -/
namespace Cmsg.Protoc.HttpProxy
open Cmsg.Base Cmsg.Protoc
open Cmsg.Proxy (HttpVerb MessageDescriptor ServiceInfo cstr)

/-! ## Services -/

/-- The oneof `pattern` of `google.api.HttpRule`. -/
inductive HttpPattern
  | notSet
  | get (url : CString)
  | put (url : CString)
  | post (url : CString)
  | delete (url : CString)
  | patch (url : CString)
  | custom (kind path : CString)
deriving DecidableEq

/-- `google.api.HttpRule`, without the bindings that are nested in it. -/
structure HttpRule where
  pattern : HttpPattern
  body : CString
deriving DecidableEq

/-! A field of the oneof that is not set reads as the empty string. -/

def HttpRule.get (r : HttpRule) : CString :=
  match r.pattern with
  | .get url => url
  | _ => []

def HttpRule.put (r : HttpRule) : CString :=
  match r.pattern with
  | .put url => url
  | _ => []

def HttpRule.post (r : HttpRule) : CString :=
  match r.pattern with
  | .post url => url
  | _ => []

def HttpRule.delete (r : HttpRule) : CString :=
  match r.pattern with
  | .delete url => url
  | _ => []

def HttpRule.patch (r : HttpRule) : CString :=
  match r.pattern with
  | .patch url => url
  | _ => []

/-- The option `google.api.http`. -/
structure HttpOption where
  rule : HttpRule
  additionalBindings : List HttpRule

/-- `ServiceSupportInfo` -/
structure ServiceSupportInfo where
  filePath : CString
  message : Option CString
  code : Option Int

structure MethodDescriptor where
  name : CString
  inputType : MessageDescriptor
  outputType : MessageDescriptor
  http : Option HttpOption
  fileResponse : Option CString
  disableServiceSupportCheck : Bool

structure ServiceDescriptor where
  fullName : CString
  methods : List MethodDescriptor
  serviceSupportCheck : Option ServiceSupportInfo

structure FileDescriptor where
  services : List ServiceDescriptor

/-! ## The API of a service -/

/-- `service_support_parameters` -/
structure ServiceSupportParameters where
  filename : CString
  msg : CString
  returnCode : Int

/-- `cmsg_method_client_extensions` -/
structure MethodClientExtensions where
  serviceSupport : Option ServiceSupportParameters
  responseFilename : Option CString

/-- `cmsg_api_descriptor` -/
structure ApiDescriptor where
  serviceDesc : ServiceDescriptor
  methodExtensions : List (Option MethodClientExtensions)

/-- `GenerateAtlApiServiceSupportCheck`, which asserts that there is a message and a code. -/
def generateAtlApiServiceSupportCheck (info : ServiceSupportInfo) :
    Option ServiceSupportParameters := do
  return ⟨info.filePath, ← info.message, ← info.code⟩

/-- `GenerateAtlApiMethodExtensionsPtr`, with the extensions that are pointed to. -/
def generateAtlApiMethodExtensionsPtr (support : Option ServiceSupportParameters)
    (m : MethodDescriptor) : Option MethodClientExtensions :=
  match m.fileResponse with
  | some filePath => some ⟨none, some filePath⟩
  | none =>
    match support with
    | some params => if m.disableServiceSupportCheck then none else some ⟨some params, none⟩
    | none => none

/-- `GenerateAtlApiImplementation` -/
def generateAtlApiImplementation (s : ServiceDescriptor) : Option ApiDescriptor :=
  let api := fun support =>
    ({ serviceDesc := s
       methodExtensions := s.methods.map (generateAtlApiMethodExtensionsPtr support) } :
      ApiDescriptor)
  match s.serviceSupportCheck with
  | none => some (api none)
  | some info => (generateAtlApiServiceSupportCheck info).map fun params => api (some params)

/-! ## Symbols -/

def apiFunction (s : ServiceDescriptor) (m : MethodDescriptor) : CString :=
  fullNameToLower s.fullName ++ cstr "_api_" ++ m.name

def indexMacro (s : ServiceDescriptor) (m : MethodDescriptor) : CString :=
  apiFunction s m ++ cstr "_index"

def apiDescriptorName (s : ServiceDescriptor) : CString :=
  fullNameToLower s.fullName ++ cstr "_cmsg_api_descriptor"

/-- The `#define` lines that `GenerateAtlApiDefinition` writes for a service. -/
def serviceDefines (s : ServiceDescriptor) : List (CString × Nat) :=
  s.methods.zipIdx.map fun (m, index) => (indexMacro s m, index)

def indexDefines (file : FileDescriptor) : List (CString × Nat) :=
  file.services.flatMap serviceDefines

/-- A macro stands for what it was defined as last. -/
def expand (defines : List (CString × Nat)) (name : CString) : Option Nat :=
  (defines.reverse.find? (·.1 == name)).map (·.2)

/-! ## The array -/

/-- An entry as it is written. -/
structure ArrayEntry where
  cmsgDesc : CString
  methodIndex : CString
  urlString : CString
  httpVerb : HttpVerb
  bodyString : CString

/-- `GenerateHttpProxyArrayEntry`, which asserts that there is a URL. -/
def generateHttpProxyArrayEntry (s : ServiceDescriptor) (m : MethodDescriptor) (rule : HttpRule) :
    Option ArrayEntry :=
  let entry := fun url verb => some
    ({ cmsgDesc := apiDescriptorName s
       methodIndex := indexMacro s m
       urlString := url
       httpVerb := verb
       bodyString := rule.body } : ArrayEntry)
  if rule.get ≠ [] then entry rule.get .get
  else if rule.put ≠ [] then entry rule.put .put
  else if rule.post ≠ [] then entry rule.post .post
  else if rule.delete ≠ [] then entry rule.delete .delete
  else if rule.patch ≠ [] then entry rule.patch .patch
  else none

/-- The rules of a method, the additional bindings after the first. -/
def MethodDescriptor.rules (m : MethodDescriptor) : List HttpRule :=
  match m.http with
  | some http => http.rule :: http.additionalBindings
  | none => []

/-- `GenerateHttpProxyArrayEntriesPerMethod` -/
def generateHttpProxyArrayEntriesPerMethod (s : ServiceDescriptor) (m : MethodDescriptor) :
    Option (List ArrayEntry) :=
  m.rules.mapM (generateHttpProxyArrayEntry s m)

/-- `GenerateHttpProxyArrayEntries` -/
def generateHttpProxyArrayEntries (s : ServiceDescriptor) : Option (List ArrayEntry) :=
  (s.methods.mapM (generateHttpProxyArrayEntriesPerMethod s)).map List.flatten

/-- `cmsg_service_info` -/
structure CmsgServiceInfo where
  cmsgDesc : ApiDescriptor
  methodIndex : Nat
  urlString : CString
  httpVerb : HttpVerb
  bodyString : CString

/-- The entry with the values of its symbols. -/
def compileEntry (file : FileDescriptor) (apis : List ApiDescriptor) (e : ArrayEntry) :
    Option CmsgServiceInfo := do
  let cmsgDesc ← apis.find? fun api => apiDescriptorName api.serviceDesc == e.cmsgDesc
  let methodIndex ← expand (indexDefines file) e.methodIndex
  return ⟨cmsgDesc, methodIndex, e.urlString, e.httpVerb, e.bodyString⟩

/-- `GenerateAtlHttpProxySource`: what `cmsg_proxy_array_get` of the compiled library
returns, if the code can be generated and compiled. -/
def cmsgProxyArrayGet (file : FileDescriptor) : Option (List CmsgServiceInfo) := do
  let apis ← file.services.mapM generateAtlApiImplementation
  let entries ← file.services.mapM generateHttpProxyArrayEntries
  entries.flatten.mapM (compileEntry file apis)

/-- No function and no variable of the generated code is defined twice. -/
structure Compiles (file : FileDescriptor) : Prop where
  functions : (file.services.flatMap fun s => s.methods.map (apiFunction s)).Nodup
  descriptors : (file.services.map fun s => fullNameToLower s.fullName).Nodup

/-- What the tree of the proxy keeps of an entry: its API is the one that the index
stands for. -/
def CmsgServiceInfo.info (e : CmsgServiceInfo) : Option ServiceInfo :=
  (e.cmsgDesc.serviceDesc.methods[e.methodIndex]?).map fun m =>
    { serviceName := e.cmsgDesc.serviceDesc.fullName
      inputDesc := m.inputType
      outputDesc := m.outputType
      urlString := e.urlString
      httpVerb := e.httpVerb
      bodyString := e.bodyString }

/-! ## What the options say -/

/-- A rule of a method of a service, with the URL and the verb that it names. -/
structure Binding where
  service : ServiceDescriptor
  index : Nat
  method : MethodDescriptor
  url : CString
  verb : HttpVerb
  body : CString

/-- The verb of a rule, with a URL that is not empty. -/
def HttpRule.target (rule : HttpRule) : Option (CString × HttpVerb) :=
  match rule.pattern with
  | .notSet | .custom _ _ => none
  | .get url => if url = [] then none else some (url, .get)
  | .put url => if url = [] then none else some (url, .put)
  | .post url => if url = [] then none else some (url, .post)
  | .delete url => if url = [] then none else some (url, .delete)
  | .patch url => if url = [] then none else some (url, .patch)

def methodBindings (s : ServiceDescriptor) (m : MethodDescriptor) (index : Nat) : List Binding :=
  m.rules.filterMap fun rule =>
    rule.target.map fun (url, verb) => ⟨s, index, m, url, verb, rule.body⟩

def serviceBindings (s : ServiceDescriptor) : List Binding :=
  s.methods.zipIdx.flatMap fun (m, index) => methodBindings s m index

def bindings (file : FileDescriptor) : List Binding := file.services.flatMap serviceBindings

/-- What the tree is to keep of a binding. -/
def Binding.info (b : Binding) : ServiceInfo where
  serviceName := b.service.fullName
  inputDesc := b.method.inputType
  outputDesc := b.method.outputType
  urlString := b.url
  httpVerb := b.verb
  bodyString := b.body

theorem mem_bindings {file : FileDescriptor} {b : Binding} : b ∈ bindings file ↔
    b.service ∈ file.services ∧ b.service.methods[b.index]? = some b.method ∧
      ∃ rule ∈ b.method.rules, rule.target = some (b.url, b.verb) ∧ rule.body = b.body := by
  simp only [bindings, serviceBindings, methodBindings, List.mem_flatMap, List.mem_filterMap,
    Option.map_eq_some_iff, Prod.exists, List.mem_zipIdx_iff_getElem?]
  constructor
  · rintro ⟨s, hs, m, index, hm, rule, hrule, url, verb, htarget, rfl⟩
    exact ⟨hs, hm, rule, hrule, htarget, rfl⟩
  · rintro ⟨hs, hm, rule, hrule, htarget, hbody⟩
    exact ⟨b.service, hs, b.method, b.index, hm, rule, hrule, b.url, b.verb, htarget,
      hbody ▸ rfl⟩

/-! ## What is written -/

/-- The entry that is written for a binding. -/
def Binding.written (b : Binding) : ArrayEntry where
  cmsgDesc := apiDescriptorName b.service
  methodIndex := indexMacro b.service b.method
  urlString := b.url
  httpVerb := b.verb
  bodyString := b.body

theorem generateHttpProxyArrayEntry_eq (s : ServiceDescriptor) (m : MethodDescriptor)
    (rule : HttpRule) (index : Nat) :
    generateHttpProxyArrayEntry s m rule = rule.target.map fun (url, verb) =>
      Binding.written ⟨s, index, m, url, verb, rule.body⟩ := by
  unfold generateHttpProxyArrayEntry HttpRule.target HttpRule.get HttpRule.put HttpRule.post
    HttpRule.delete HttpRule.patch
  cases rule.pattern with
  | notSet | custom => rfl
  | get url | put url | post url | delete url | patch url =>
    by_cases hurl : url = []
    · simp [hurl]
    · simp [hurl, Binding.written]

theorem perMethod_written {s : ServiceDescriptor} {m : MethodDescriptor} {es : List ArrayEntry}
    (h : generateHttpProxyArrayEntriesPerMethod s m = some es) (index : Nat) :
    es = (methodBindings s m index).map Binding.written := by
  rw [List.eq_filterMap_of_mapM h, methodBindings, List.map_filterMap]
  refine List.filterMap_congr fun rule _ => ?_
  rw [generateHttpProxyArrayEntry_eq s m rule index, Option.map_map]
  rfl

theorem entries_written {s : ServiceDescriptor} {es : List ArrayEntry}
    (h : generateHttpProxyArrayEntries s = some es) :
    es = (serviceBindings s).map Binding.written := by
  obtain ⟨ess, hess, rfl⟩ := Option.map_eq_some_iff.mp h
  have hmap := List.eq_map_of_mapM (g := fun m => (methodBindings s m 0).map Binding.written) hess
    fun m _ es hes => perMethod_written hes 0
  have hindex : ∀ (m : MethodDescriptor) (index : Nat),
      (methodBindings s m index).map Binding.written =
        (methodBindings s m 0).map Binding.written := by
    intro m index
    simp only [methodBindings, List.map_filterMap, Option.map_map]
    rfl
  rw [hmap, ← List.flatMap_def, serviceBindings, List.map_flatMap]
  simp only [hindex]
  conv_lhs => rw [← List.zipIdx_map_fst 0 s.methods, List.flatMap_map]

theorem file_written {file : FileDescriptor} {ess : List (List ArrayEntry)}
    (h : file.services.mapM generateHttpProxyArrayEntries = some ess) :
    ess.flatten = (bindings file).map Binding.written := by
  have hmap := List.eq_map_of_mapM (g := fun s => (serviceBindings s).map Binding.written) h
    fun s _ es hes => entries_written hes
  rw [hmap, ← List.flatMap_def, bindings, List.map_flatMap]

/-! ## What the symbols stand for -/

/-- The API of a service whose support check is complete. -/
def ServiceDescriptor.api (s : ServiceDescriptor) : ApiDescriptor :=
  (generateAtlApiImplementation s).getD ⟨s, []⟩

theorem api_serviceDesc (s : ServiceDescriptor) : s.api.serviceDesc = s := by
  unfold ServiceDescriptor.api generateAtlApiImplementation
  cases s.serviceSupportCheck with
  | none => rfl
  | some info =>
    dsimp only
    cases generateAtlApiServiceSupportCheck info <;> rfl

/-- The entry that a binding is compiled to. -/
def Binding.entry (b : Binding) : CmsgServiceInfo where
  cmsgDesc := b.service.api
  methodIndex := b.index
  urlString := b.url
  httpVerb := b.verb
  bodyString := b.body

section
variable {file : FileDescriptor}

theorem indexDefines_nodup (h : Compiles file) : ((indexDefines file).map Prod.fst).Nodup := by
  have hnames : (indexDefines file).map Prod.fst =
      (file.services.flatMap fun s => s.methods.map (apiFunction s)).map (· ++ cstr "_index") := by
    rw [indexDefines, List.map_flatMap, List.map_flatMap]
    refine List.flatMap_congr fun s _ => ?_
    conv_rhs => rw [← List.zipIdx_map_fst 0 s.methods]
    simp only [serviceDefines, List.map_map]
    rfl
  rw [hnames]
  exact h.functions.map fun _ _ => List.append_cancel_right

/-- The macro of a method stands for its index. -/
theorem expand_indexMacro (h : Compiles file) {b : Binding} (hb : b ∈ bindings file) :
    expand (indexDefines file) (indexMacro b.service b.method) = some b.index := by
  obtain ⟨hs, hm, -⟩ := mem_bindings.mp hb
  have hmem : (indexMacro b.service b.method, b.index) ∈ indexDefines file := by
    refine List.mem_flatMap.mpr ⟨b.service, hs, List.mem_map.mpr ⟨(b.method, b.index), ?_, rfl⟩⟩
    exact List.mem_zipIdx_iff_getElem?.mpr hm
  have hnodup : ((indexDefines file).reverse.map Prod.fst).Nodup := by
    rw [List.map_reverse, List.nodup_reverse]
    exact indexDefines_nodup h
  unfold expand
  rw [(List.find?_key_eq_some hnodup).mpr ⟨List.mem_reverse.mpr hmem, rfl⟩]
  rfl

theorem find_api (h : Compiles file) {s : ServiceDescriptor} (hs : s ∈ file.services) :
    ((file.services.map ServiceDescriptor.api).find? fun api =>
      apiDescriptorName api.serviceDesc == apiDescriptorName s) = some s.api := by
  have hnodup : ((file.services.map ServiceDescriptor.api).map
      fun api => apiDescriptorName api.serviceDesc).Nodup := by
    have hnames : (file.services.map ServiceDescriptor.api).map
        (fun api => apiDescriptorName api.serviceDesc) =
          (file.services.map fun s => fullNameToLower s.fullName).map
            (· ++ cstr "_cmsg_api_descriptor") := by
      rw [List.map_map, List.map_map]
      refine List.map_congr_left fun s _ => ?_
      simp only [Function.comp_apply, api_serviceDesc]
      rfl
    rw [hnames]
    exact h.descriptors.map fun _ _ => List.append_cancel_right
  exact (List.find?_key_eq_some hnodup).mpr ⟨List.mem_map_of_mem hs, by rw [api_serviceDesc]⟩

/-- **The compiled array** has the entries of the bindings, in their order. -/
theorem cmsgProxyArrayGet_eq (h : Compiles file) {entries : List CmsgServiceInfo}
    (hget : cmsgProxyArrayGet file = some entries) :
    entries = (bindings file).map Binding.entry := by
  unfold cmsgProxyArrayGet at hget
  obtain ⟨apis, hapis, hget⟩ := Option.bind_eq_some_iff.mp hget
  obtain ⟨ess, hess, hget⟩ := Option.bind_eq_some_iff.mp hget
  have hapi : apis = file.services.map ServiceDescriptor.api :=
    List.eq_map_of_mapM hapis fun s _ api hs => by rw [ServiceDescriptor.api, hs]; rfl
  have hcompile : ((bindings file).map Binding.written).mapM (compileEntry file apis) =
      some ((bindings file).map Binding.entry) := by
    rw [List.mapM_map]
    refine List.mapM_some_of_forall fun b hb => ?_
    have hfind := find_api h (mem_bindings.mp hb).1
    rw [← hapi] at hfind
    have hmacro := expand_indexMacro h hb
    show (compileEntry file apis b.written) = some b.entry
    unfold compileEntry
    dsimp only [Binding.written]
    rw [hfind, hmacro]
    rfl
  rw [file_written hess, hcompile] at hget
  exact (Option.some.inj hget).symm

theorem entry_info {b : Binding} (hb : b ∈ bindings file) : b.entry.info = some b.info := by
  obtain ⟨-, hm, -⟩ := mem_bindings.mp hb
  simp only [CmsgServiceInfo.info, Binding.entry, api_serviceDesc, hm]
  rfl

end

end Cmsg.Protoc.HttpProxy
