import EndpointPayload.Proofs.Route.Lookup
import EndpointPayload.Proofs.Route.Refinement
import EndpointPayload.Proofs.Source.Meanings

/-!
# Registrations and what their last argument says

A route comes from a call in a script, and the last argument of the call is its handler.
`Registration.IsAt` names the script, the node and the last argument of a registration.  What the
argument says about the handler is in the route as its file shows it and as a project shows it,
under any mount.
-/

namespace EndpointPayload

open Source

theorem Source.Script.path_of_read?
    {files : FileSystem}
    {path : String}
    {script : Script}
    (h : read? files path = some script) :
    script.path = path := by
  obtain ⟨dialect, text, tree, -, -, -, rfl⟩ := read?_eq_some_iff.mp h
  rfl

/-- A route whose handler is as an argument in a file says. -/
structure Route.Mentions (route : Route) (file : String) (handler : HandlerMention) : Prop where
  filePath_eq : route.filePath = file
  handler_eq : route.handler = handler.name
  controllerFile_eq : route.controllerFile = handler.file
  controllerFunction_eq : route.controllerFunction = handler.function
  inlineSpan_eq : route.inlineSpan = handler.span

/-- A registration that a node of a script is, with its last argument. -/
structure Registration.IsAt
    (files : FileSystem)
    (script : Script)
    (node last : Tree)
    (r : Registration) : Prop where
  read_eq : Script.read? files script.path = some script
  mem_nodes : node ∈ script.nodes
  getLast_eq : node.argumentsOf.getLast? = some last
  at_eq :
    at? script (Imports.ofScript files script) (Mounts.ofScript files script) node = some r

namespace Registration

variable {files : FileSystem} {script : Script} {node last : Tree} {r : Registration}

theorem arguments_of_methodCall?
    {call : MethodCall}
    (h : node.methodCall? = some call) :
    call.arguments = node.argumentsOf := by
  obtain ⟨callee, hcall⟩ := Tree.methodCall?_eq_some_iff.mp h
  exact hcall.arguments_eq.symm

/-- The arguments after the path end as all arguments do. -/
theorem getLast?_of_parts?
    {call : MethodCall}
    {literal : String}
    {receiver : Option String}
    {arguments : List Tree}
    (h : parts? call = some (literal, receiver, arguments))
    (hlast : arguments.getLast? = some last) :
    call.arguments.getLast? = some last := by
  unfold parts? at h
  split at h
  · rename_i first rest hcall
    split at h
    · cases h
      rw [hcall, List.getLast?_cons, hlast]
      rfl
    · obtain ⟨found, -, hfound⟩ := Option.map_eq_some_iff.mp h
      cases hfound
      exact hlast
  · obtain ⟨found, -, hfound⟩ := Option.map_eq_some_iff.mp h
    cases hfound
    cases hlast

/-- A registration has a last argument, and the handler of its route is as this says. -/
theorem exists_last_of_at?
    {imports : Imports}
    {mounts : Mounts}
    (h : at? script imports mounts node = some r) :
    ∃ last, node.argumentsOf.getLast? = some last ∧
      r.route.Mentions script.path (HandlerMention.ofTree imports last) := by
  unfold at? at h
  split at h
  · cases h
  · rename_i call hcall
    split at h
    · rename_i verb literal receiver arguments hverb hparts
      split at h
      · rename_i last hpath hlast
        cases h
        refine ⟨last, ?_, rfl, rfl, rfl, rfl, rfl⟩
        rw [← arguments_of_methodCall? hcall]
        exact getLast?_of_parts? hparts hlast
      · cases h
    · cases h

/-- The route of a registration, under the mount of its file or under none, has the handler that its
last argument says. -/
theorem IsAt.mentions
    (h : r.IsAt files script node last)
    (mount : Option String) :
    (r.mounted mount).Mentions script.path
      (HandlerMention.ofTree (Imports.ofScript files script) last) := by
  obtain ⟨found, hfound, hmentions⟩ := exists_last_of_at? h.at_eq
  obtain rfl : found = last := Option.some.inj (hfound.symm.trans h.getLast_eq)
  have hmount := isUnderMount_mounted (isLocal_of_at? h.at_eq) mount
  exact ⟨hmount.filePath_eq.trans hmentions.filePath_eq,
    hmount.handler_eq.trans hmentions.handler_eq,
    hmount.controllerFile_eq.trans hmentions.controllerFile_eq,
    hmount.controllerFunction_eq.trans hmentions.controllerFunction_eq,
    hmount.inlineSpan_eq.trans hmentions.inlineSpan_eq⟩

@[simp]
theorem mounted_none (r : Registration) : r.mounted none = r.route := by
  simp [mounted]

theorem mem_registrations_iff
    {path : String}
    {f : FileRoutes}
    (hread : FileRoutes.read? files path = some f) :
    r ∈ f.registrations ↔
      ∃ script node last, script.path = path ∧ r.IsAt files script node last := by
  obtain ⟨script, hscript, rfl⟩ := Option.map_eq_some_iff.mp hread
  have hpath := Script.path_of_read? hscript
  constructor
  · intro hr
    obtain ⟨node, hnode, hat⟩ := List.mem_filterMap.mp hr
    obtain ⟨last, hlast, -⟩ := exists_last_of_at? hat
    exact ⟨script, node, last, hpath, hpath ▸ hscript, hnode, hlast, hat⟩
  · rintro ⟨other, node, last, hother, h⟩
    obtain rfl : other = script := by
      have hsame := h.read_eq
      rw [hother, hscript] at hsame
      exact (Option.some.inj hsame).symm
    exact List.mem_filterMap.mpr ⟨node, h.mem_nodes, h.at_eq⟩

/-- Whether a script has a registration with such a last argument. -/
def offers (files : FileSystem) (script : Script) (p : Tree → Bool) : Bool :=
  script.nodes.any fun node => node.argumentsOf.getLast?.any p &&
    (at? script (Imports.ofScript files script) (Mounts.ofScript files script) node).isSome

theorem exists_isAt_of_offers
    {path : String}
    {p : Tree → Bool}
    (hread : Script.read? files path = some script)
    (h : offers files script p = true) :
    ∃ node last r, IsAt files script node last r ∧ p last = true := by
  obtain ⟨node, hnode, hboth⟩ := List.any_eq_true.mp h
  rw [Bool.and_eq_true, Option.any_eq_true, Option.isSome_iff_exists] at hboth
  obtain ⟨⟨last, hlast, hp⟩, r, hr⟩ := hboth
  exact ⟨node, last, r, ⟨Script.path_of_read? hread ▸ hread, hnode, hlast, hr⟩, hp⟩

end Registration

namespace Workspace

variable {w : Workspace} {route : Route}

/-- The routes of a project are those of the registrations in its files, under their mounts. -/
theorem mem_routes_iff_isAt :
    route ∈ w.routes ↔
      ∃ script node last r, script.path ∈ w.candidates ∧
        Registration.IsAt w.files script node last r ∧
          route = r.mounted (w.mountOf? script.path) := by
  constructor
  · intro h
    obtain ⟨f, hf, hroute⟩ := List.mem_flatMap.mp h
    obtain ⟨r, hr, rfl⟩ := List.mem_map.mp hroute
    obtain ⟨path, hpath, hread⟩ := List.mem_filterMap.mp hf
    obtain ⟨script, node, last, hscript, hat⟩ := (Registration.mem_registrations_iff hread).mp hr
    refine ⟨script, node, last, r, hscript ▸ hpath, hat, ?_⟩
    rw [hscript, ← FileRoutes.path_of_read? hread]
    rfl
  · rintro ⟨script, node, last, r, hpath, hat, rfl⟩
    have hread : FileRoutes.read? w.files script.path =
        some (FileRoutes.ofScript w.files script) := by
      rw [FileRoutes.read?, hat.read_eq, Option.map_some]
    refine List.mem_flatMap.mpr ⟨_, List.mem_filterMap.mpr ⟨script.path, hpath, hread⟩, ?_⟩
    refine List.mem_map.mpr ⟨r, ?_, rfl⟩
    exact (Registration.mem_registrations_iff hread).mpr ⟨script, node, last, rfl, hat⟩

/-- The routes that one file shows are those of its registrations, under no mount. -/
theorem mem_routesIn_iff_isAt {name : String} :
    route ∈ w.routesIn name ↔
      ∃ script node last r, script.path = w.fileOf name ∧
        Registration.IsAt w.files script node last r ∧ route = r.mounted none := by
  rw [mem_routesIn_iff]
  constructor
  · rintro ⟨f, hread, r, hr, rfl⟩
    obtain ⟨script, node, last, hscript, hat⟩ := (Registration.mem_registrations_iff hread).mp hr
    exact ⟨script, node, last, r, hscript, hat, r.mounted_none.symm⟩
  · rintro ⟨script, node, last, r, hscript, hat, rfl⟩
    have hread : FileRoutes.read? w.files (w.fileOf name) =
        some (FileRoutes.ofScript w.files script) := by
      rw [FileRoutes.read?, ← hscript, hat.read_eq, Option.map_some]
    refine ⟨_, hread, r, ?_, r.mounted_none.symm⟩
    exact (Registration.mem_registrations_iff hread).mpr ⟨script, node, last, hscript, hat⟩

end Workspace
end EndpointPayload
