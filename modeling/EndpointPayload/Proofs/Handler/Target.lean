import EndpointPayload.Handler.Context
import EndpointPayload.Proofs.Route.Detection
import EndpointPayload.Proofs.Source.Meanings
import EndpointPayload.Proofs.Source.Names

/-!
# Where the handler of a route is looked for

The last argument of a registration offers a handler: itself or, if it is a call, the first of its
arguments.  A name is looked for in the script of the route, unless it is the name of handlers that
have none, and then under its import.  A member of an imported object is looked for in the file of
the import alone.
-/

namespace EndpointPayload

open Source

namespace Source
namespace Tree

/-- What an argument stands for as a handler: itself, or the first argument if it is a call. -/
inductive Offers : Tree → Tree → Prop where
  | itself (t : Tree) : Offers t t
  | wrapped
      {t callee argument : Tree}
      {rest : List Tree}
      (h : t.meaning? = some (.call callee (argument :: rest))) :
      Offers t argument

/-- What a node of a tree offers is a node of the tree. -/
theorem mem_preorder_of_offers
    {tree t argument : Tree}
    (ht : t ∈ tree.preorder)
    (h : t.Offers argument) :
    argument ∈ tree.preorder := by
  cases h with
  | itself => exact ht
  | wrapped h =>
      refine mem_preorder_of_argument ht ?_
      rw [← (meaning?_eq_call_iff.mp h).2.2]
      exact List.mem_cons_self

end Tree
end Source

namespace HandlerMention

variable {imports : Imports} {last argument : Tree} {m : HandlerMention}

/-- What the last argument says is what the handler says that it offers. -/
theorem ofTree_of_offers
    (h : last.Offers argument)
    (hdirect : direct? imports argument = some m) :
    ofTree imports last = m := by
  cases h with
  | itself => rw [ofTree, hdirect]
  | wrapped h =>
      have hcall : direct? imports last = none := by simp [direct?, h]
      simp [ofTree, hcall, h, hdirect]

/-- A name says itself, and what is imported under it. -/
theorem direct?_of_name
    {name : String}
    (h : argument.meaning? = some (.name name)) :
    direct? imports argument =
      some ⟨name, (imports.item? name).map Export.file, (imports.item? name).map Export.name,
        none⟩ := by
  simp [direct?, h]

/-- A member says the object and its own name, and the file that the object comes from. -/
theorem direct?_of_member
    {object property : Tree}
    {owner name : String}
    (h : argument.meaning? = some (.member object property))
    (hobject : object.name? = some owner)
    (hproperty : property.name? = some name) :
    direct? imports argument =
      some ⟨owner ++ "." ++ name, imports.file? owner, (imports.file? owner).map fun _ => name,
        none⟩ := by
  simp [direct?, Tree.simpleMember?, h, hobject, hproperty]

end HandlerMention

namespace HandlerContext

variable {files : FileSystem} {route : Route} {path name : String} {script : Script}

theorem inFile?_of_read? (h : Script.read? files path = some script) :
    inFile? files route path name =
      (Handler.location? script.tree name).map (ofSpan route script name) := by
  rw [inFile?, h]

/-- What is found in a file is in that file and has the name that was looked for. -/
theorem target_of_inFile?
    {context : HandlerContext}
    (h : inFile? files route path name = some context) :
    context.filePath = path ∧ context.functionName = name := by
  unfold inFile? at h
  split at h
  · cases h
  · rename_i script hscript
    obtain ⟨span, -, rfl⟩ := Option.map_eq_some_iff.mp h
    exact ⟨Script.path_of_read? hscript, rfl⟩

/-- A name without a point is looked for in the script of the route unless it is the name of
handlers that have none. -/
theorem localName?_of_point_notMem (h : '.' ∉ route.handler.toList) :
    localName? route =
      if route.handler = Route.anonymous then none else some route.handler := by
  have hpoint : afterLastPoint? route.handler = none := by simp [afterLastPoint?, h]
  rw [localName?, hpoint]

/-- A member of an imported object is not looked for in the script of the route. -/
theorem localName?_of_point_mem
    {file : String}
    (h : '.' ∈ route.handler.toList)
    (hfile : route.controllerFile = some file) :
    localName? route = none := by
  unfold localName?
  split
  · rfl
  · simp [afterLastPoint?, h, hfile]

end HandlerContext

namespace Registration

variable {files : FileSystem} {script : Script} {node last argument : Tree} {r : Registration}

/-- The handler that a registration offers is a node of the script. -/
theorem IsAt.mem_nodes_of_offers
    (h : r.IsAt files script node last)
    (hoffers : last.Offers argument) :
    argument ∈ script.nodes :=
  Tree.mem_preorder_of_offers
    (Tree.mem_preorder_of_argument h.mem_nodes (List.mem_of_getLast? h.getLast_eq)) hoffers

/-- A handler that is a name is looked for in the script of the route and then under its import. -/
theorem IsAt.ofRoute?_of_name
    {name : String}
    (h : r.IsAt files script node last)
    (hoffers : last.Offers argument)
    (hname : argument.meaning? = some (.name name))
    (mount : Option String) :
    HandlerContext.ofRoute? files (r.mounted mount) =
      (if name = Route.anonymous then none
        else (Handler.location? script.tree name).map
          (HandlerContext.ofSpan (r.mounted mount) script name)).or
        (((Imports.ofScript files script).item? name).bind fun item =>
          HandlerContext.inFile? files (r.mounted mount) item.file item.name) := by
  have hmentions := h.mentions mount
  rw [HandlerMention.ofTree_of_offers hoffers (HandlerMention.direct?_of_name hname)] at hmentions
  obtain ⟨hpath, hhandler, hfile, hfunction, hspan⟩ := hmentions
  have hpoint : '.' ∉ (r.mounted mount).handler.toList := by
    rw [hhandler]
    exact Script.point_notMem_name h.read_eq (h.mem_nodes_of_offers hoffers)
      (Tree.meaning?_eq_name_iff.mp hname)
  have hlocal := HandlerContext.localName?_of_point_notMem hpoint
  rw [hhandler] at hlocal
  have himported : HandlerContext.imported? files (r.mounted mount) =
      ((Imports.ofScript files script).item? name).bind fun item =>
        HandlerContext.inFile? files (r.mounted mount) item.file item.name := by
    rw [HandlerContext.imported?, hfile, hfunction]
    cases (Imports.ofScript files script).item? name <;> rfl
  rw [HandlerContext.ofRoute?, hspan, hlocal, himported]
  by_cases hanonymous : name = Route.anonymous
  · simp [hanonymous]
  · simp only [hanonymous, if_false, Option.bind_some, hpath,
      HandlerContext.inFile?_of_read? h.read_eq]
    cases Handler.location? script.tree name <;> rfl

/-- A handler that is a member of an imported object is looked for in the file of the import. -/
theorem IsAt.ofRoute?_of_member
    {object property : Tree}
    {owner name file : String}
    (h : r.IsAt files script node last)
    (hoffers : last.Offers argument)
    (hmember : argument.meaning? = some (.member object property))
    (hobject : object.name? = some owner)
    (hproperty : property.name? = some name)
    (hfile : (Imports.ofScript files script).file? owner = some file)
    (mount : Option String) :
    HandlerContext.ofRoute? files (r.mounted mount) =
      HandlerContext.inFile? files (r.mounted mount) file name := by
  have hmentions := h.mentions mount
  rw [HandlerMention.ofTree_of_offers hoffers
    (HandlerMention.direct?_of_member hmember hobject hproperty), hfile] at hmentions
  obtain ⟨-, hhandler, hcontroller, hfunction, hspan⟩ := hmentions
  dsimp only [Option.map_some] at hhandler hcontroller hfunction hspan
  have hpoint : '.' ∈ (r.mounted mount).handler.toList := by simp [hhandler]
  have hlocal := HandlerContext.localName?_of_point_mem hpoint hcontroller
  simp [HandlerContext.ofRoute?, hspan, hlocal, HandlerContext.imported?, hcontroller, hfunction]

end Registration
end EndpointPayload
