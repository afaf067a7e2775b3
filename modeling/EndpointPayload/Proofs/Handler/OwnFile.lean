import EndpointPayload.Proofs.Handler.Definition
import EndpointPayload.Proofs.Handler.Target

/-!
# Handlers declared in the file of their route

A function declaration is always found under its name, and the handler of a route is looked for
first in the script that registers it.  So a route whose handler its own file declares has a context
there.  The one name for which this fails is that of handlers without a name: a function that is
really called so is never looked for in its own script, and only an import of the file by itself
leads back to it.
-/

namespace EndpointPayload

open Source

/-- A function that a script declares is found under its name. -/
theorem Handler.exists_location?_of_function
    {tree d : Tree}
    {name : String}
    (hd : d ∈ tree.preorder)
    (hname : d.meaning? = some (.function name)) :
    ∃ span, location? tree name = some span := by
  obtain ⟨hkind, target, htarget, htext⟩ := Tree.meaning?_eq_function_iff.mp hname
  have hdefines : Handler.Defines name d .statement := .function hkind htarget htext
  exact Option.isSome_iff_exists.mp
    (Handler.isSome_location?_iff.mpr ⟨d, hd, .statement, hdefines⟩)

namespace Registration

variable {files : FileSystem} {script : Script} {node last d : Tree} {r : Registration} {f : String}

/-- In every script, a handler that the script declares as a function is found in it, under its
name, exactly if this is not the name of handlers without a name or the script imports the function
from itself. -/
theorem context_of_own_function_iff
    (hr : r.IsAt files script node last)
    (hlast : last.meaning? = some (.name f))
    (hd : d ∈ script.nodes)
    (hfunction : d.meaning? = some (.function f))
    (mount : Option String) :
    (∃ context, HandlerContext.ofRoute? files (r.mounted mount) = some context ∧
      context.filePath = script.path ∧ context.functionName = f) ↔
      f ≠ Route.anonymous ∨
        (Imports.ofScript files script).item? f = some ⟨script.path, f⟩ := by
  obtain ⟨span, hspan⟩ := Handler.exists_location?_of_function hd hfunction
  have hfound := hr.ofRoute?_of_name (.itself last) hlast mount
  rw [hspan] at hfound
  by_cases hanonymous : f = Route.anonymous
  · rw [if_pos hanonymous, Option.none_or] at hfound
    rw [hfound]
    constructor
    · rintro ⟨context, hcontext, hpath, hname⟩
      obtain ⟨item, hitem, hin⟩ := Option.bind_eq_some_iff.mp hcontext
      obtain ⟨hfile, hexported⟩ := HandlerContext.target_of_inFile? hin
      right
      rw [hitem, ← hpath, ← hname, hfile, hexported]
    · rintro (hne | hitem)
      · exact absurd hanonymous hne
      · rw [hitem, Option.bind_some, HandlerContext.inFile?_of_read? hr.read_eq, hspan]
        exact ⟨_, rfl, rfl, rfl⟩
  · rw [if_neg hanonymous, Option.map_some, Option.some_or] at hfound
    exact ⟨fun _ => .inl hanonymous, fun _ => ⟨_, hfound, rfl, rfl⟩⟩

namespace Declared

/-- A file that registers a function of the given name and declares it. -/
def project (name : String) : FileSystem :=
  ⟨.directory [("routes.js",
    .file (some ("r.get('/x', " ++ name ++ "); function " ++ name ++ "() \x7b\x7d")))], []⟩

def functionName? (t : Tree) : Option String :=
  match t.meaning? with
  | some (.function name) => some name
  | _ => none

/-- Whether the file registers the function, declares it and imports nothing under its name. -/
def isShown (name : String) (script : Script) : Bool :=
  offers (project name) script (fun t => t.name? = some name) &&
    script.nodes.any (fun t => functionName? t = some name) &&
      ((Imports.ofScript (project name) script).item? name).isNone

theorem exists_shown
    {name : String}
    (h : (Script.read? (project name) "/routes.js").any (isShown name) = true) :
    ∃ script node last r, IsAt (project name) script node last r ∧
      last.meaning? = some (.name name) ∧
      (∃ d ∈ script.nodes, d.meaning? = some (.function name)) ∧
      (Imports.ofScript (project name) script).item? name = none := by
  rw [Option.any_eq_true] at h
  obtain ⟨script, hread, hshown⟩ := h
  simp only [isShown, Bool.and_eq_true, List.any_eq_true, Option.isNone_iff_eq_none,
    decide_eq_true_eq] at hshown
  obtain ⟨⟨hoffers, d, hd, hfunction⟩, hitem⟩ := hshown
  obtain ⟨node, last, r, hr, hlast⟩ := exists_isAt_of_offers hread hoffers
  refine ⟨script, node, last, r, hr, Tree.meaning?_eq_name_iff.mpr (of_decide_eq_true hlast),
    ⟨d, hd, ?_⟩, hitem⟩
  unfold functionName? at hfunction
  split at hfunction
  · simp_all
  · cases hfunction

theorem isShown_list :
    (Script.read? (project "list") "/routes.js").any (isShown "list") = true := by
  decide +kernel

theorem isShown_anonymous :
    (Script.read? (project "anonymous") "/routes.js").any (isShown "anonymous") = true := by
  decide +kernel

end Declared

/-- The context of a declared function in the file that registers it. -/
theorem context_of_declared_list :
    ∃ script node last r d, IsAt (Declared.project "list") script node last r ∧
      last.meaning? = some (.name "list") ∧ d ∈ script.nodes ∧
      d.meaning? = some (.function "list") ∧
      ∃ context, HandlerContext.ofRoute? (Declared.project "list") (r.mounted none) =
        some context ∧ context.filePath = script.path ∧ context.functionName = "list" := by
  obtain ⟨script, node, last, r, hr, hlast, ⟨d, hd, hfunction⟩, -⟩ :=
    Declared.exists_shown Declared.isShown_list
  exact ⟨script, node, last, r, d, hr, hlast, hd, hfunction,
    (context_of_own_function_iff hr hlast hd hfunction none).mpr (.inl (by decide))⟩

/-- Not every handler that its own file declares is found. -/
theorem not_forall_exists_context :
    ¬ ∀ (files : FileSystem) (script : Script) (node last d : Tree) (r : Registration) (f : String),
      IsAt files script node last r →
      last.meaning? = some (.name f) →
      d ∈ script.nodes →
      d.meaning? = some (.function f) →
      ∃ context, HandlerContext.ofRoute? files r.route = some context ∧
        context.filePath = script.path ∧ context.functionName = f := by
  intro hall
  obtain ⟨script, node, last, r, hr, hlast, ⟨d, hd, hfunction⟩, hitem⟩ :=
    Declared.exists_shown Declared.isShown_anonymous
  obtain ⟨context, hcontext, -⟩ := hall _ script node last d r _ hr hlast hd hfunction
  have hnone := hr.ofRoute?_of_name (.itself last) hlast none
  have hanonymous : "anonymous" = Route.anonymous := rfl
  rw [if_pos hanonymous, hitem, mounted_none, hcontext] at hnone
  cases hnone

end Registration
end EndpointPayload
