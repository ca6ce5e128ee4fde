import Cmsg.Base.Lists
import Cmsg.Proxy.Service

/-! # The tree of URLs

The nodes of a path carry one token of a URL each. The information about what a
URL offers is a leaf, the first child of the node of its last token. -/
namespace Cmsg.Proxy
open Cmsg.Base

/-- `cmsg_proxy_api_info`: the service of each verb. -/
structure ApiInfo where
  cmsgHttpGet : Option ServiceInfo := none
  cmsgHttpPut : Option ServiceInfo := none
  cmsgHttpPost : Option ServiceInfo := none
  cmsgHttpDelete : Option ServiceInfo := none
  cmsgHttpPatch : Option ServiceInfo := none

inductive NodeData
  | token (s : CString)
  | apiInfo (info : ApiInfo)

inductive GNode
  | node (data : NodeData) (children : List GNode)

def GNode.data : GNode → NodeData
  | .node data _ => data

def GNode.children : GNode → List GNode
  | .node _ children => children

def GNode.withChildren : GNode → List GNode → GNode
  | .node data _, children => .node data children

@[simp] theorem GNode.data_withChildren (n : GNode) (cs : List GNode) :
    (n.withChildren cs).data = n.data := by
  cases n
  rfl

@[simp] theorem GNode.children_withChildren (n : GNode) (cs : List GNode) :
    (n.withChildren cs).children = cs := by
  cases n
  rfl

def GNode.isLeaf (n : GNode) : Bool := n.children.isEmpty

/-- The data of the node compares equal to the token. -/
def GNode.named (n : GNode) (s : CString) : Bool :=
  match n.data with
  | .token t => t == s
  | .apiInfo _ => false

/-- Whether the token is a parameter of the URL, such as `{id}`. -/
def tokenIsUrlParam (token : CString) : Bool :=
  token.head? == some openBrace && token.getLast? == some closeBrace

/-- The token of the node where it is a parameter of the URL. Information about
an API, read as a string, starts with a byte of an aligned pointer and is none. -/
def GNode.urlParam? (n : GNode) : Option CString :=
  match n.data with
  | .token t => if tokenIsUrlParam t then some t else none
  | .apiInfo _ => none

/-! ## Adding services -/

/-- `cmsg_proxy_api_info_node_set`. -/
def ApiInfo.set (api : ApiInfo) (info : ServiceInfo) : ApiInfo :=
  match info.httpVerb with
  | .get => { api with cmsgHttpGet := some info }
  | .put => { api with cmsgHttpPut := some info }
  | .post => { api with cmsgHttpPost := some info }
  | .delete => { api with cmsgHttpDelete := some info }
  | .patch => { api with cmsgHttpPatch := some info }

/-- `cmsg_proxy_api_info_node_new`, which puts the leaf of a URL in front of the
other children unless it is there, and the setting of the service in that leaf. -/
def apiInfoNodeNew (lastNode : GNode) (info : ServiceInfo) : GNode :=
  match lastNode.children with
  | first :: rest =>
    if first.isLeaf then
      match first.data with
      | .apiInfo api => lastNode.withChildren (.node (.apiInfo (api.set info)) [] :: rest)
      | .token _ => lastNode
    else lastNode.withChildren (.node (.apiInfo (({} : ApiInfo).set info)) [] :: first :: rest)
  | [] => lastNode.withChildren [.node (.apiInfo (({} : ApiInfo).set info)) []]

/-- `cmsg_proxy_service_info_conflicts`: only the first child that is no leaf is
looked at. -/
def serviceInfoConflicts (parent : GNode) (token : CString) : Bool :=
  match parent.children.find? fun n => !n.isLeaf with
  | some n => tokenIsUrlParam token || n.urlParam?.isSome
  | none => false

def allowedConflicts (url : CString) : Bool := strstr url (cstr "/v0.1/statistics/interfaces")

/-- `cmsg_proxy_body_string_check`: an API with body string `*` has a field for
the body to fill. -/
def bodyStringCheck (info : ServiceInfo) : Bool :=
  if info.bodyString = cstr "*" then
    if msgHasFile info.inputDesc then true
    else
      let urlParameters : Int := ((strtok slash info.urlString).filter tokenIsUrlParam).length
      let expectedFields : Int := (info.inputDesc.fields.length : Int) - urlParameters
        - (hiddenFields info.inputDesc).length
      expectedFields != 0
  else true

/-- The walk of `cmsg_proxy_service_info_add` from a parent node along the rest of
the URL: whether the service was added, and the node as the walk leaves it. -/
def serviceInfoAddFrom (info : ServiceInfo) : List CString → GNode → Bool × GNode
  | [], parent => (true, apiInfoNodeNew parent info)
  | token :: rest, parent =>
    match parent.children.splitFirst fun n => !n.isLeaf && n.named token with
    | some (before, node, after) =>
      let (ok, node) := serviceInfoAddFrom info rest node
      (ok, parent.withChildren (before ++ node :: after))
    | none =>
      if serviceInfoConflicts parent token && !allowedConflicts info.urlString then (false, parent)
      else if !bodyStringCheck info then (false, parent)
      else
        let (ok, node) := serviceInfoAddFrom info rest (.node (.token token) [])
        (ok, parent.withChildren (parent.children ++ [node]))

def serviceInfoAdd (tree : GNode) (info : ServiceInfo) : Bool × GNode :=
  serviceInfoAddFrom info (strtok slash info.urlString) tree

/-- The tree after the services of an array, or of several, were loaded. -/
def serviceInfoInit (tree : GNode) (array : List ServiceInfo) : GNode :=
  array.foldl (fun tree info => (serviceInfoAdd tree info).2) tree

/-- The services of the array that were added to the tree, in order. -/
def serviceInfosLoaded : GNode → List ServiceInfo → List ServiceInfo
  | _, [] => []
  | tree, info :: array =>
    let (ok, tree) := serviceInfoAdd tree info
    if ok then info :: serviceInfosLoaded tree array else serviceInfosLoaded tree array

/-- The tree that `cmsg_proxy_tree_init` starts from. -/
def treeInit : GNode := .node (.token (cstr "CMSG-API")) []

/-! ## Looking up a URL -/

/-- `cmsg_proxy_create_url_parameter`, over the unescaping of GLib. -/
def createUrlParameter (uriUnescape : CString → Option CString) (key value : CString) :
    UrlParameter :=
  { key := if key.head? = some openBrace then (key.drop 1).take (key.length - 2) else key
    value := uriUnescape value }

/-- `cmsg_proxy_service_info_get`. -/
def ApiInfo.get (api : ApiInfo) : HttpVerb → Option ServiceInfo
  | .get => api.cmsgHttpGet
  | .put => api.cmsgHttpPut
  | .post => api.cmsgHttpPost
  | .delete => api.cmsgHttpDelete
  | .patch => api.cmsgHttpPatch

/-- The child that a segment of the URL leads to, with the token of the parameter
that the segment is the value of, if it is. -/
def lookupSegment (segment : CString) : List GNode → Option (GNode × Option CString)
  | [] => none
  | n :: ns =>
    if !n.isLeaf && n.named segment then some (n, none)
    else
      match n.urlParam? with
      | some key => some (n, some key)
      | none => lookupSegment segment ns

/-- The walk of the lookup; the parameters found are put in front of the list. -/
def lookupSegments (uriUnescape : CString → Option CString) :
    List CString → GNode → List UrlParameter → Option GNode × List UrlParameter
  | [], parent, params => (some parent, params)
  | segment :: rest, parent, params =>
    match lookupSegment segment parent.children with
    | none => (none, params)
    | some (node, none) => lookupSegments uriUnescape rest node params
    | some (node, some key) =>
      lookupSegments uriUnescape rest node (createUrlParameter uriUnescape key segment :: params)

def findServiceFromUrlAndVerb (uriUnescape : CString → Option CString) (tree : GNode)
    (url : CString) (verb : HttpVerb) (urlParameters : List UrlParameter) :
    Option ServiceInfo × List UrlParameter :=
  match lookupSegments uriUnescape (strtok slash url) tree urlParameters with
  | (none, params) => (none, params)
  | (some parent, params) =>
    match parent.children with
    | .node (.apiInfo api) [] :: _ => (api.get verb, params)
    | _ => (none, params)

end Cmsg.Proxy
