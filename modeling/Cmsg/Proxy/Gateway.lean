import Cmsg.Client.ApiInvoke
import Cmsg.Proxy.Clients
import Cmsg.Proxy.Hidden

/-! # From the options of a method to its call

The options of the methods are compiled to arrays, the arrays are loaded into the tree,
and a request is looked up there. What is called in the end is the API of the method whose
option says so. -/
namespace Cmsg.Proxy
open Cmsg.Base Cmsg.Base.Routes Cmsg.Client
open Cmsg.Protoc
open Cmsg.Protoc.HttpProxy (Binding CmsgServiceInfo Compiles FileDescriptor ServiceDescriptor
  api_serviceDesc bindings cmsgProxyArrayGet cmsgProxyArrayGet_eq generateAtlApiImplementation
  mem_bindings)

/-! ## The libraries of the files -/

/-- What the functions of the library of a file give. A file without services has none. -/
def libraryArray (file : FileDescriptor) : Option (List ServiceInfo) :=
  if file.services.isEmpty then none
  else (cmsgProxyArrayGet file).bind fun entries => entries.mapM CmsgServiceInfo.info

/-- All the bindings, in the order in which the libraries are loaded. -/
def allBindings (files : List FileDescriptor) : List Binding := files.flatMap bindings

/-- The libraries of the directory are those of the files. The code of the files compiles,
their URLs can be told apart, and no body string fails its check. -/
structure Deployed (dir : List DirEntry) (files : List FileDescriptor) : Prop where
  libraries : List.Forall₂ (fun entry file => entry.library = some (libraryArray file))
    (dir.filter DirEntry.isProxyDef) files
  compiles : ∀ file ∈ files, Compiles file ∧ (cmsgProxyArrayGet file).isSome
  unambiguous : Unambiguous tokenIsUrlParam (urlTable ((allBindings files).map Binding.info))
  bodies : ∀ b ∈ allBindings files, b.info.passes = true

def urlTemplate (b : Binding) : List CString := strtok slash b.url

/-- The binding of a verb and a template that is loaded last. -/
def lastBinding (bs : List Binding) (verb : HttpVerb) (template : List CString) :
    Option Binding :=
  bs.reverse.find? fun b => b.verb = verb && urlTemplate b = template

/-! ## The call -/

/-- The entry that the tree points to: of those of which it keeps the same the last. -/
def pointedTo (entries : List CmsgServiceInfo) (info : ServiceInfo) : Option CmsgServiceInfo :=
  entries.reverse.find? fun e => e.info = some info

/-- `cmsg_proxy_call_cmsg_api` with the client that was found, which makes an
`ANT_CODE_INTERNAL` of anything but success. -/
def callCmsgApi {In Out : Type} (backend : CString → ApiBackend In Out) (clients : ProxyClients)
    (serviceInfo : CmsgServiceInfo) (inputMsg : In) : ApiOutcome In Out :=
  let name := serviceInfo.cmsgDesc.serviceDesc.fullName
  cmsgApiInvoke (backend name) (if clients.findClientByService name then some name else none)
    serviceInfo.cmsgDesc serviceInfo.methodIndex (some inputMsg) true

/-! ## The array that is loaded -/

section
variable {dir : List DirEntry} {files : List FileDescriptor}

theorem libraryArray_eq {file : FileDescriptor} (h : Compiles file)
    (hsome : (cmsgProxyArrayGet file).isSome) :
    (libraryArray file).getD [] = (bindings file).map Binding.info := by
  unfold libraryArray
  cases hempty : file.services.isEmpty with
  | true =>
    have hnil : bindings file = [] := by
      rw [bindings, List.isEmpty_iff.mp hempty]
      rfl
    rw [hnil]
    rfl
  | false =>
    obtain ⟨entries, hentries⟩ := Option.isSome_iff_exists.mp hsome
    have hinfo : ((bindings file).map Binding.entry).mapM CmsgServiceInfo.info =
        some ((bindings file).map Binding.info) := by
      rw [List.mapM_map]
      exact List.mapM_some_of_forall fun b hb => HttpProxy.entry_info hb
    rw [hentries, cmsgProxyArrayGet_eq h hentries, if_neg Bool.false_ne_true, Option.bind_some,
      hinfo]
    rfl

theorem librariesArray_filter (dir : List DirEntry) :
    librariesArray (dir.filter DirEntry.isProxyDef) = librariesArray dir := by
  induction dir with
  | nil => rfl
  | cons entry dir ih =>
    cases hdef : entry.isProxyDef with
    | true =>
      rw [List.filter_cons_of_pos hdef]
      simp only [librariesArray, List.flatMap_cons] at ih ⊢
      rw [ih]
    | false =>
      rw [List.filter_cons_of_neg (by rw [hdef]; exact Bool.false_ne_true), ih]
      simp [librariesArray, hdef]

theorem librariesArray_of_libraries
    (h : List.Forall₂ (fun entry file => entry.library = some (libraryArray file)) dir files)
    (hdef : ∀ entry ∈ dir, entry.isProxyDef = true)
    (hcompiles : ∀ file ∈ files, Compiles file ∧ (cmsgProxyArrayGet file).isSome) :
    librariesArray dir = (allBindings files).map Binding.info := by
  induction h with
  | nil => rfl
  | @cons entry file dir files hlib _ ih =>
    obtain ⟨hfile, hget⟩ := hcompiles file (by simp)
    have hrest := ih (fun e he => hdef e (List.mem_cons_of_mem _ he))
      fun f hf => hcompiles f (List.mem_cons_of_mem _ hf)
    have hone := libraryArray_eq hfile hget
    rw [allBindings, List.flatMap_cons, List.map_append, ← hone]
    rw [allBindings] at hrest
    rw [librariesArray, List.flatMap_cons, hdef entry (by simp), hlib, ← hrest]
    cases libraryArray file <;> rfl

theorem Deployed.array_eq (h : Deployed dir files) :
    librariesArray dir = (allBindings files).map Binding.info := by
  rw [← librariesArray_filter]
  exact librariesArray_of_libraries h.libraries
    (fun entry hentry => (List.mem_filter.mp hentry).2) h.compiles

/-- All of them are accepted. -/
theorem Deployed.loaded_eq (h : Deployed dir files) :
    loadedInfos (librariesArray dir) = (allBindings files).map Binding.info := by
  have hpasses : ∀ info ∈ (allBindings files).map Binding.info, info.passes = true := by
    intro info hinfo
    obtain ⟨b, hb, rfl⟩ := List.mem_map.mp hinfo
    exact h.bodies b hb
  have hfail : NoFailingPrefix ((allBindings files).map Binding.info) := by
    intro info hinfo hcheck hne
    have hpass := hpasses info hinfo
    rw [ServiceInfo.passes, hcheck, Bool.false_or, List.isEmpty_iff] at hpass
    exact absurd hpass hne
  have hloaded := loaded_of_noFailingPrefix h.unambiguous hfail _ (fun _ hi => hi)
    represents_treeInit (by simp)
  rw [h.array_eq, loadedInfos, hloaded.2, List.filter_eq_self.mpr hpasses]

end

/-! ## The route of a request -/

section
variable {dir : List DirEntry} {files : List FileDescriptor} {b : Binding}

/-- A path that fits the URL of a binding leads to the binding of its verb and template
that is loaded last. -/
theorem Deployed.find (h : Deployed dir files) (hb : b ∈ allBindings files)
    (uriUnescape : CString → Option CString) {url : CString}
    (hfit : Instantiates tokenIsUrlParam (urlTemplate b) (strtok slash url)) :
    ∃ c, lastBinding (allBindings files) b.verb (urlTemplate b) = some c ∧
      findServiceFromUrlAndVerb uriUnescape (loadedTree (librariesArray dir)) url b.verb [] =
        (some c.info,
          (boundParameters uriUnescape (urlTemplate b) (strtok slash url)).reverse) := by
  have hmem : (urlTemplate b, b.info) ∈ urlTable (loadedInfos (librariesArray dir)) := by
    rw [h.loaded_eq, mem_urlTable]
    exact ⟨List.mem_map_of_mem hb, rfl⟩
  have hun : Unambiguous tokenIsUrlParam (urlTable (loadedInfos (librariesArray dir))) := by
    rw [h.loaded_eq]
    exact h.unambiguous
  have hroute := hun.route_eq hmem hfit
  have hfind := find_some uriUnescape (librariesArray dir) b.verb hroute []
  have hhere : here (after (urlTemplate b) (urlTable (loadedInfos (librariesArray dir)))) =
      ((allBindings files).filter fun c => urlTemplate c = urlTemplate b).map Binding.info := by
    rw [here_after_eq, h.loaded_eq, urlTable, List.map_map, List.filterMap_map,
      ← List.filterMap_eq_map, List.filterMap_filter]
    refine List.filterMap_congr fun c _ => ?_
    simp only [Function.comp_apply, decide_eq_true_eq]
    rfl
  rw [List.append_nil, hhere, ← List.map_reverse, List.find?_map, ← List.filter_reverse,
    List.find?_filter] at hfind
  have hlast : ((allBindings files).reverse.find? fun c =>
      decide (decide (urlTemplate c = urlTemplate b) = true ∧
        ((fun info : ServiceInfo => decide (info.httpVerb = b.verb)) ∘ Binding.info) c = true)) =
      lastBinding (allBindings files) b.verb (urlTemplate b) := by
    refine congrArg (fun p => (allBindings files).reverse.find? p) (funext fun c => ?_)
    simp only [Function.comp_apply, decide_eq_true_eq, Bool.decide_and]
    exact Bool.and_comm _ _
  rw [hlast] at hfind
  have hsome : (lastBinding (allBindings files) b.verb (urlTemplate b)).isSome := by
    rw [lastBinding, List.find?_isSome]
    exact ⟨b, List.mem_reverse.mpr hb, by simp⟩
  obtain ⟨c, hc⟩ := Option.isSome_iff_exists.mp hsome
  rw [hc] at hfind
  exact ⟨c, hc, hfind⟩

end

/-! ## The call of the method -/

section
variable {bs : List Binding} {verb : HttpVerb} {template : List CString} {b c : Binding}

theorem lastBinding_spec (h : lastBinding bs verb template = some c) :
    c ∈ bs ∧ c.verb = verb ∧ urlTemplate c = template := by
  have hp := List.find?_some h
  rw [Bool.and_eq_true, decide_eq_true_eq, decide_eq_true_eq] at hp
  exact ⟨List.mem_reverse.mp (List.mem_of_find?_eq_some h), hp.1, hp.2⟩

/-- The entry that the tree points to is that of the last binding. -/
theorem pointedTo_entry (hbs : ∀ d ∈ bs, d.entry.info = some d.info)
    (h : lastBinding bs verb template = some c) :
    pointedTo (bs.map Binding.entry) c.info = some c.entry := by
  obtain ⟨hmem, hverb, htemplate⟩ := lastBinding_spec h
  rw [lastBinding, List.find?_eq_some_iff_append] at h
  obtain ⟨-, later, earlier, hsplit, hlater⟩ := h
  rw [pointedTo, ← List.map_reverse, List.find?_map, hsplit, List.find?_append]
  have hnone : later.find? ((fun e : CmsgServiceInfo => decide (e.info = some c.info)) ∘
      Binding.entry) = none := by
    rw [List.find?_eq_none]
    intro d hd hsame
    have hdmem : d ∈ bs := List.mem_reverse.mp (hsplit ▸ List.mem_append_left _ hd)
    rw [Function.comp_apply, decide_eq_true_eq, hbs d hdmem, Option.some.injEq] at hsame
    -- what the tree keeps determines the verb and the template
    have hdverb : d.verb = verb := (congrArg ServiceInfo.httpVerb hsame).trans hverb
    have hdtemplate : urlTemplate d = template :=
      (congrArg (fun i : ServiceInfo => strtok slash i.urlString) hsame).trans htemplate
    have := hlater d hd
    simp [hdverb, hdtemplate] at this
  rw [hnone, Option.none_or, List.find?_cons_of_pos]
  · rfl
  · simp [hbs c hmem]

end

section
variable {dir : List DirEntry} {files : List FileDescriptor}

/-- The arrays of all the libraries. -/
def allEntries (files : List FileDescriptor) : List CmsgServiceInfo :=
  files.flatMap fun file => (cmsgProxyArrayGet file).getD []

theorem Deployed.entries_eq (h : Deployed dir files) :
    allEntries files = (allBindings files).map Binding.entry := by
  rw [allEntries, allBindings, List.map_flatMap]
  refine List.flatMap_congr fun file hfile => ?_
  obtain ⟨hcompiles, hget⟩ := h.compiles file hfile
  obtain ⟨entries, hentries⟩ := Option.isSome_iff_exists.mp hget
  rw [hentries, cmsgProxyArrayGet_eq hcompiles hentries]
  rfl

/-- The service of a binding has an API, which its entry refers to. -/
theorem Deployed.api (h : Deployed dir files) {c : Binding} (hc : c ∈ allBindings files) :
    generateAtlApiImplementation c.service = some c.service.api := by
  obtain ⟨file, hfile, hcfile⟩ := List.mem_flatMap.mp hc
  obtain ⟨entries, hentries⟩ := Option.isSome_iff_exists.mp (h.compiles file hfile).2
  obtain ⟨apis, hapis, -⟩ := Option.bind_eq_some_iff.mp hentries
  obtain ⟨api, -, hapi⟩ := List.mem_of_mapM hapis (mem_bindings.mp hcfile).1
  rw [hapi, ServiceDescriptor.api, hapi]
  rfl

theorem entry_info_of_mem {c : Binding} (hc : c ∈ allBindings files) :
    c.entry.info = some c.info := by
  obtain ⟨file, hfile, hcfile⟩ := List.mem_flatMap.mp hc
  exact HttpProxy.entry_info hcfile

end

/-- A request whose path fits the URL of an option, and whose verb is that of the option,
is never answered as unknown. Its input is made for the method whose option with that URL
and verb is loaded last, and that method is called: by its own index, with the client of
its own service, and answered by what its options say. -/
theorem gateway_calls_method {dir : List DirEntry} {files : List FileDescriptor}
    (h : Deployed dir files) {createUnix : Nat → Bool} (hcreate : ∀ k, createUnix k = true)
    {p : ProxyTree} (hp : proxyTreeInit createUnix dir = some p) {V Out : Type}
    (backend : CString → ApiBackend (InputMessage V) Out) {env : Environment V}
    (htree : env.tree = p.tree)
    (hclients : env.findClientByService = p.clients.findClientByService) {b : Binding}
    (hb : b ∈ allBindings files) {input : Input} (hverb : input.httpVerb = b.verb)
    (hfit : Instantiates tokenIsUrlParam (urlTemplate b) (strtok slash input.url)) :
    inputProcess env input ≠ .error unknownUrl ∧ inputProcess env input ≠ .error missingClient ∧
    ∃ c, lastBinding (allBindings files) b.verb (urlTemplate b) = some c ∧
      ∀ m, inputProcess env input = .ok m → m.serviceInfo = c.info ∧
        ∃ e, pointedTo (allEntries files) m.serviceInfo = some e ∧
          callCmsgApi backend p.clients e m =
            answer (backend c.service.fullName) c.service c.method c.index (some m) true := by
  obtain ⟨hptree, t, ht, rfl⟩ : p.tree = loadedTree (librariesArray dir) ∧
      ∃ t, clientsInit createUnix (loadedTree (librariesArray dir)) = some t ∧
        p = { libraryHandlesLoad dir with clients := t } := by
    obtain ⟨t, ht, rfl⟩ := Option.map_eq_some_iff.mp hp
    exact ⟨libraryHandlesLoad_tree dir, t, libraryHandlesLoad_tree dir ▸ ht, rfl⟩
  obtain ⟨t', ht', -, htried, hfailures⟩ := clientsInit_loadedTree (librariesArray dir) createUnix
  obtain rfl : t' = t := Option.some.inj (ht'.symm.trans ht)
  obtain ⟨c, hc, hfind⟩ := h.find hb env.text.uriUnescape hfit
  rw [← hverb, ← hptree, ← htree] at hfind
  have hclient : env.findClientByService c.info.serviceName = true := by
    rw [htree, hptree] at hfind
    have hname := (htried c.info.serviceName).mpr (offers_of_find _ hfind)
    rw [ProxyClients.Tried, hfailures hcreate] at hname
    rw [hclients]
    exact findClientByService_iff.mpr (by simpa using hname)
  refine ⟨fun herror => ?_, fun herror => ?_, c, hc, fun m hm => ?_⟩
  · have hnone := inputProcess_unknownUrl herror
    rw [hfind] at hnone
    cases hnone
  · obtain ⟨info, params, hinfo, hmissing⟩ := inputProcess_missingClient herror
    rw [hfind] at hinfo
    cases hinfo
    rw [hclient] at hmissing
    cases hmissing
  · obtain ⟨params, obj, values, hprocessed⟩ := inputProcess_ok hm
    have hlookup := hprocessed.lookup
    rw [getServiceAndParameters, hfind] at hlookup
    obtain ⟨hinfo, -⟩ := Prod.mk.inj (Option.some.inj hlookup)
    obtain ⟨hmem, -, -⟩ := lastBinding_spec hc
    refine ⟨hinfo.symm, c.entry, ?_, ?_⟩
    · rw [← hinfo, h.entries_eq]
      exact pointedTo_entry (fun d hd => entry_info_of_mem hd) hc
    · obtain ⟨file, hfile, hcfile⟩ := List.mem_flatMap.mp hmem
      have hfound : t'.findClientByService c.service.fullName = true := by
        rw [hclients] at hclient
        exact hclient
      unfold callCmsgApi
      rw [Binding.entry, api_serviceDesc]
      dsimp only
      rw [if_pos hfound]
      exact cmsgApiInvoke_generated (h.api hmem) (mem_bindings.mp hcfile).2.1 _ _

/-! A service with one method at two verbs of a URL. -/

def itemMethod : HttpProxy.MethodDescriptor where
  name := cstr "item"
  inputType := listItems.inputDesc
  outputType := listItems.outputDesc
  http := some ⟨⟨.get (cstr "/items/{kind}"), []⟩, [⟨.delete (cstr "/items/{kind}"), []⟩]⟩
  fileResponse := none
  disableServiceSupportCheck := false

def itemsFile : FileDescriptor := ⟨[⟨cstr "test.items", [itemMethod], none⟩]⟩

def itemsDir : List DirEntry :=
  [⟨true, cstr "libitems_proto_proxy_def.so", some (libraryArray itemsFile)⟩]

def itemBinding : Binding where
  service := ⟨cstr "test.items", [itemMethod], none⟩
  index := 0
  method := itemMethod
  url := cstr "/items/{kind}"
  verb := .delete
  body := []

theorem itemsDir_deployed : Deployed itemsDir [itemsFile] where
  libraries := by
    have hdef : itemsDir.filter DirEntry.isProxyDef = itemsDir :=
      List.filter_cons_of_pos (by decide +kernel)
    rw [hdef]
    exact .cons rfl .nil
  compiles := by
    intro file hfile
    cases List.mem_singleton.mp hfile
    exact ⟨⟨by decide +kernel, by decide +kernel⟩, by decide +kernel⟩
  unambiguous := by
    intro e he e' he'
    have hone : ∀ e ∈ urlTable ((allBindings [itemsFile]).map Binding.info),
        e.1 = urlTemplate itemBinding := by decide +kernel
    rw [hone e he, hone e' he']
    exact not_clashes_self _
  bodies := by decide +kernel

/-- A server whose replies are empty. -/
def itemBackend (_ : CString) : ApiBackend (InputMessage Json) Unit where
  accessible _ := true
  getMsgFromFile _ _ := none
  createAntResponse _ _ _ := none
  messageInit _ := ⟨listItems, none, false, fun _ => none⟩
  invoke _ _ := (.ok, none)
  nFields _ := 0

def gatewayEnvironment (p : ProxyTree) : Environment Json :=
  { itemsEnvironment with
    tree := p.tree, findClientByService := p.clients.findClientByService }

def deleteRequest : Input :=
  { itemsRequest none with url := cstr "/items/disk", httpVerb := .delete }

theorem gateway_calls_method_item : ∃ p, proxyTreeInit (fun _ => true) itemsDir = some p ∧
    inputProcess (gatewayEnvironment p) deleteRequest ≠ .error unknownUrl ∧
    inputProcess (gatewayEnvironment p) deleteRequest ≠ .error missingClient ∧
    ∃ c, lastBinding (allBindings [itemsFile]) .delete (urlTemplate itemBinding) = some c ∧
      ∀ m, inputProcess (gatewayEnvironment p) deleteRequest = .ok m → m.serviceInfo = c.info ∧
        ∃ e, pointedTo (allEntries [itemsFile]) m.serviceInfo = some e ∧
          callCmsgApi itemBackend p.clients e m =
            answer (itemBackend c.service.fullName) c.service c.method c.index (some m) true := by
  obtain ⟨t, ht, -⟩ := clientsInit_loadedTree (librariesArray itemsDir) fun _ => true
  have hp : proxyTreeInit (fun _ => true) itemsDir =
      some { libraryHandlesLoad itemsDir with clients := t } := by
    rw [proxyTreeInit, libraryHandlesLoad_tree, ht]
    rfl
  have hb : itemBinding ∈ allBindings [itemsFile] := by
    refine List.mem_flatMap.mpr ⟨itemsFile, List.mem_singleton_self _, mem_bindings.mpr ?_⟩
    exact ⟨List.mem_singleton_self _, rfl, ⟨.delete (cstr "/items/{kind}"), []⟩,
      List.mem_cons_of_mem _ (List.mem_singleton_self _), by decide +kernel, rfl⟩
  have hfit : Instantiates tokenIsUrlParam (urlTemplate itemBinding)
      (strtok slash deleteRequest.url) := by
    have htemplate : urlTemplate itemBinding = [cstr "items", cstr "{kind}"] := by decide +kernel
    have hpath : strtok slash deleteRequest.url = [cstr "items", cstr "disk"] := by decide +kernel
    rw [htemplate, hpath]
    exact .cons (.inl rfl) (.cons (.inr (by decide +kernel)) .nil)
  exact ⟨_, hp, gateway_calls_method itemsDir_deployed (fun _ => rfl) hp itemBackend rfl rfl hb rfl
    hfit⟩

end Cmsg.Proxy
