import EndpointPayload.Proofs.Handler.Target
import EndpointPayload.Proofs.Route.Bindings

/-!
# Handlers imported from another file

A handler leads to an export of a file if it is a name bound to the export that the script of the
route does not define itself, or a member of a name bound to the whole file.  Whatever the form of
the import, and whether or not a call stands around the handler, the route then has the context of
the export: the file, the name there and the lines of its definition.
-/

namespace EndpointPayload

open Source

/-- A handler that leads to an export of another file. -/
inductive Imports.LeadsTo (files : FileSystem) (script : Script) : Tree → Export → Prop where
  | name
      {argument : Tree}
      {name : String}
      {item : Export}
      (hargument : argument.meaning? = some (.name name))
      (hbinds : Binds files script (.item name item))
      (hlocal : Handler.location? script.tree name = none) :
      LeadsTo files script argument item
  | member
      {argument object property : Tree}
      {owner name file : String}
      (hargument : argument.meaning? = some (.member object property))
      (hobject : object.name? = some owner)
      (hproperty : property.name? = some name)
      (hbinds : Binds files script (.file owner file)) :
      LeadsTo files script argument ⟨file, name⟩

namespace Registration

variable {files : FileSystem} {script source : Script} {node last argument : Tree}
variable {r : Registration} {item : Export} {span : LineSpan}

/-- A handler that leads to an export is looked for there. -/
theorem IsAt.ofRoute?_of_leadsTo
    (hr : r.IsAt files script node last)
    (hoffers : last.Offers argument)
    (hleads : Imports.LeadsTo files script argument item)
    (mount : Option String) :
    HandlerContext.ofRoute? files (r.mounted mount) =
      HandlerContext.inFile? files (r.mounted mount) item.file item.name := by
  cases hleads with
  | name hargument hbinds hlocal =>
      rw [hr.ofRoute?_of_name hoffers hargument, hlocal, hbinds.item?_eq, Option.map_none, ite_self,
        Option.none_or, Option.bind_some]
  | member hargument hobject hproperty hbinds =>
      exact hr.ofRoute?_of_member hoffers hargument hobject hproperty hbinds.file?_eq mount

/-- In every script, a handler that leads to an export of a file, itself or as the first argument of
the call around it, has the context of the function that the file defines under the exported name:
its file, its name there and its lines. -/
theorem context_of_import
    (hr : r.IsAt files script node last)
    (hoffers : last.Offers argument)
    (hleads : Imports.LeadsTo files script argument item)
    (hsource : Script.read? files item.file = some source)
    (hspan : Handler.location? source.tree item.name = some span)
    (mount : Option String) :
    ∃ context, HandlerContext.ofRoute? files (r.mounted mount) = some context ∧
      context.filePath = item.file ∧ context.functionName = item.name ∧ context.span = span ∧
        context = HandlerContext.ofSpan (r.mounted mount) source item.name span := by
  have hfound := hr.ofRoute?_of_leadsTo hoffers hleads mount
  rw [HandlerContext.inFile?_of_read? hsource, hspan, Option.map_some] at hfound
  exact ⟨_, hfound, Script.path_of_read? hsource, rfl, rfl, rfl⟩

namespace Bound

/-- A file that registers a function of another file under a name of its own, with a call around it,
and as a member of the whole file. -/
def project : FileSystem :=
  ⟨.directory [
    ("c.js", .file (some "function a() \x7b\x7d")),
    ("routes.js", .file (some
      ("import \x7b a as b \x7d from './c'; const m = require('./c'); " ++
        "r.get('/x', w(b)); r.get('/y', m.a)")))], []⟩

def bindings : List Binding := [.item "b" ⟨"/c.js", "a"⟩, .file "m" "/c.js"]

/-- The name that is the first argument of a call. -/
def wrapped? (t : Tree) : Option String :=
  match t.meaning? with
  | some (.call _ (argument :: _)) => argument.name?
  | _ => none

def isShown (script : Script) : Bool :=
  offers project script (fun t => wrapped? t = some "b") &&
    offers project script (fun t => t.simpleMember? = some ("m", "a")) &&
      ((Imports.ofScript project script).bindings = bindings &&
        Handler.location? script.tree "b" = none)

theorem isShown_routes : (Script.read? project "/routes.js").any isShown = true := by
  decide +kernel

theorem location?_source :
    (Script.read? project "/c.js").any
      (fun source => Handler.location? source.tree "a" = some ⟨1, 1⟩) = true := by
  decide +kernel

/-- The name in the call leads to the function. -/
theorem leadsTo_wrapped
    (hbindings : (Imports.ofScript project script).bindings = bindings)
    (hlocal : Handler.location? script.tree "b" = none)
    (h : wrapped? last = some "b") :
    ∃ argument, last.Offers argument ∧ Imports.LeadsTo project script argument ⟨"/c.js", "a"⟩ := by
  unfold wrapped? at h
  split at h
  · rename_i callee argument rest hcall
    refine ⟨argument, .wrapped hcall, .name (Tree.meaning?_eq_name_iff.mpr h) ?_ hlocal⟩
    rw [Imports.binds_iff, hbindings]
    decide
  · cases h

/-- The member of the whole file leads to the function. -/
theorem leadsTo_member
    (hbindings : (Imports.ofScript project script).bindings = bindings)
    (h : last.simpleMember? = some ("m", "a")) :
    Imports.LeadsTo project script last ⟨"/c.js", "a"⟩ := by
  unfold Tree.simpleMember? at h
  split at h
  · rename_i object property hmember
    split at h
    · rename_i owner name hobject hproperty
      cases h
      refine .member hmember hobject hproperty ?_
      rw [Imports.binds_iff, hbindings]
      decide
    · cases h
  · cases h

end Bound

/-- The function of the other file, by a renamed import with a call around it and as a member of the
required file. -/
theorem context_of_bound_functions :
    ∃ script nodeX lastX x argument nodeY lastY y,
      IsAt Bound.project script nodeX lastX x ∧ lastX.Offers argument ∧
      Imports.LeadsTo Bound.project script argument ⟨"/c.js", "a"⟩ ∧
      IsAt Bound.project script nodeY lastY y ∧
      Imports.LeadsTo Bound.project script lastY ⟨"/c.js", "a"⟩ ∧
      (∃ context, HandlerContext.ofRoute? Bound.project (x.mounted none) = some context ∧
        context.filePath = "/c.js" ∧ context.functionName = "a" ∧ context.span = ⟨1, 1⟩) ∧
      ∃ context, HandlerContext.ofRoute? Bound.project (y.mounted (some "/api")) = some context ∧
        context.filePath = "/c.js" ∧ context.functionName = "a" ∧ context.span = ⟨1, 1⟩ := by
  obtain ⟨script, hread, hshown⟩ := (Option.any_eq_true _ _).mp Bound.isShown_routes
  obtain ⟨source, hsource, hspan⟩ := (Option.any_eq_true _ _).mp Bound.location?_source
  simp only [Bound.isShown, Bool.and_eq_true, decide_eq_true_eq] at hshown hspan
  obtain ⟨⟨hwrapped, hmember⟩, hbindings, hlocal⟩ := hshown
  obtain ⟨nodeX, lastX, x, hx, hlastX⟩ := exists_isAt_of_offers hread hwrapped
  obtain ⟨nodeY, lastY, y, hy, hlastY⟩ := exists_isAt_of_offers hread hmember
  obtain ⟨argument, hoffers, hleadsX⟩ :=
    Bound.leadsTo_wrapped hbindings hlocal (of_decide_eq_true hlastX)
  have hleadsY := Bound.leadsTo_member hbindings (of_decide_eq_true hlastY)
  obtain ⟨contextX, hcontextX, hfileX, hnameX, hspanX, -⟩ :=
    context_of_import hx hoffers hleadsX hsource hspan none
  obtain ⟨contextY, hcontextY, hfileY, hnameY, hspanY, -⟩ :=
    context_of_import hy (.itself lastY) hleadsY hsource hspan (some "/api")
  exact ⟨script, nodeX, lastX, x, argument, nodeY, lastY, y, hx, hoffers, hleadsX, hy, hleadsY,
    ⟨contextX, hcontextX, hfileX, hnameX, hspanX⟩, contextY, hcontextY, hfileY, hnameY, hspanY⟩

end Registration
end EndpointPayload
