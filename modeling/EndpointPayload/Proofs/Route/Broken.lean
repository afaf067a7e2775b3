import EndpointPayload.Proofs.Files.Texts
import EndpointPayload.Proofs.Route.Refinement

/-!
# Files that cannot be parsed

A file with a syntax error is passed over, an empty file is read and says nothing: to the project
both are the same.  Imports are found by the paths alone, so the other files mean the same files
either way, and a broken file in the middle of a chain of mounts ends it as an empty one does.
-/

namespace EndpointPayload

open Source

namespace FileSystem

variable {files : FileSystem} {path name : String} {names : List String}

/-- A way that ends with a name leads to something of that name. -/
theorem head?_of_follow
    {tree : Entry} :
    ∀ {cs : List Component} {names found : List String},
      follow tree names cs = some found → cs.getLast? = some (.name name) →
      found.head? = some name
  | [], _, _, _, hlast => by cases hlast
  | [c], names, found, hfound, hlast => by
      obtain rfl : c = .name name := by simpa using hlast
      rw [follow] at hfound
      split at hfound
      · dsimp only at hfound
        split at hfound
        · rw [follow] at hfound
          split at hfound
          · cases hfound
            rfl
          · cases hfound
        · cases hfound
      · cases hfound
  | c :: d :: cs, names, found, hfound, hlast => by
      have hrest : (d :: cs).getLast? = some (.name name) := by simpa using hlast
      rw [follow] at hfound
      split at hfound
      · cases c with
        | name n =>
            dsimp only at hfound
            split at hfound
            · exact head?_of_follow hfound hrest
            · cases hfound
        | _ => exact head?_of_follow hfound hrest
      · cases hfound

/-- What is found at a path with a file name has that name. -/
theorem getLast?_of_locate?
    (hfound : files.locate? path = some names)
    (hname : Path.fileName? path = some name) :
    names.getLast? = some name := by
  have hlast : (Path.components path).getLast? = some (.name name) := by
    rw [Path.fileName?] at hname
    split at hname
    · rename_i n hn
      cases hname
      exact hn
    · cases hname
  have hfollow : ∃ found, follow files.tree files.here.reverse (Path.components path) = some found ∧
      names = found.reverse := by
    rw [locate?] at hfound
    split at hfound
    · cases hfound
    · split at hfound
      · cases hfound
      · rename_i found hfollow
        refine ⟨found, hfollow, ?_⟩
        split at hfound
        · split at hfound
          · cases hfound
          · exact (Option.some.inj hfound).symm
        · exact (Option.some.inj hfound).symm
  obtain ⟨found, hfollow, rfl⟩ := hfollow
  rw [List.getLast?_reverse]
  exact head?_of_follow hfollow hlast

end FileSystem

/-- The dialect that the last name on the way to a file tells. -/
def Source.Script.dialectOfName? (name : String) : Option Dialect :=
  (Path.splitName name).2.bind Dialect.ofExtension?

/-- A text with a syntax error in the dialect of its file. -/
def IsBroken (names : List String) (text : String) : Prop :=
  ∃ name dialect line, names.getLast? = some name ∧
    Script.dialectOfName? name = some dialect ∧ Tree.ofText dialect text = .error line

/-- New texts that cannot be parsed. -/
def AreBroken (texts : List String → Option String) : Prop :=
  ∀ names text, texts names = some text → IsBroken names text

/-- Blank texts for the same files. -/
def blanked (texts : List String → Option String) (names : List String) : Option String :=
  (texts names).map fun _ => ""

namespace AreBroken

variable {texts : List String → Option String}

/-- A file whose name tells no dialect has no broken text. -/
theorem eq_none
    (h : AreBroken texts)
    {name : String}
    (hname : Script.dialectOfName? name = none)
    {names : List String}
    (hlast : names.getLast? = some name) :
    texts names = none := by
  rw [Option.eq_none_iff_forall_ne_some]
  intro text htext
  obtain ⟨name', dialect, line, hlast', hdialect, -⟩ := h names text htext
  rw [hlast, Option.some.injEq] at hlast'
  rw [← hlast', hname] at hdialect
  cases hdialect

theorem sparesIgnoreFiles (h : AreBroken texts) : SparesIgnoreFiles texts where
  plain names :=
    h.eq_none (show Script.dialectOfName? ".ignore" = none by decide +kernel) (by simp)
  git names :=
    h.eq_none (show Script.dialectOfName? ".gitignore" = none by decide +kernel) (by simp)
  exclude names :=
    h.eq_none (show Script.dialectOfName? "exclude" = none by decide +kernel) (by simp)

end AreBroken

theorem SparesIgnoreFiles.blanked
    {texts : List String → Option String}
    (h : SparesIgnoreFiles texts) :
    SparesIgnoreFiles (blanked texts) where
  plain names := by simp [EndpointPayload.blanked, h.plain]
  git names := by simp [EndpointPayload.blanked, h.git]
  exclude names := by simp [EndpointPayload.blanked, h.exclude]

namespace FileRoutes

variable {files others : FileSystem} {texts : List String → Option String}
  {path text : String} {names : List String} {script : Script} {f : FileRoutes}

/-- What a script says depends on the files only by what its imports find. -/
theorem ofScript_congr (h : files.imported? = others.imported?) (script : Script) :
    ofScript files script = ofScript others script := by
  have hrequired : Imports.requiredFile? files = Imports.requiredFile? others := by
    funext path call
    rw [Imports.requiredFile?, Imports.requiredFile?, h]
  have htarget : Imports.requireTarget? files = Imports.requireTarget? others := by
    funext path value
    rw [Imports.requireTarget?, Imports.requireTarget?, hrequired]
  have himports : Imports.bindingsAt files = Imports.bindingsAt others := by
    funext path node
    rw [Imports.bindingsAt, Imports.bindingsAt, h, htarget]
  have hmounted : Mounts.target? files = Mounts.target? others := by
    funext path argument
    rw [Mounts.target?, Mounts.target?, hrequired]
  have hmounts : Mounts.mountAt? files = Mounts.mountAt? others := by
    funext path node
    rw [Mounts.mountAt?, Mounts.mountAt?, hmounted]
  rw [ofScript, ofScript, Imports.ofScript, Imports.ofScript, himports, Mounts.ofScript,
    Mounts.ofScript, hmounts]

/-- What a file says depends on its text and on what imports find. -/
theorem read?_congr
    (htext : files.readText? path = others.readText? path)
    (himport : files.imported? = others.imported?) :
    read? files path = read? others path := by
  have hscript : Script.read? files path = Script.read? others path := by
    rw [Script.read?, Script.read?, Script.read, Script.read, htext]
  have hsays : ofScript files = ofScript others := funext fun s => ofScript_congr himport s
  rw [read?, read?, hscript, hsays]

/-- A broken file says nothing. -/
theorem read?_eq_none_of_broken
    (h : AreBroken texts)
    (hfound : files.locate? path = some names)
    (htext : texts names = some text) :
    read? (files.withTexts texts) path = none := by
  rw [read?, Option.map_eq_none_iff, Option.eq_none_iff_forall_ne_some]
  intro script hscript
  obtain ⟨dialect, found, tree, hdialect, hread, hparse, -⟩ :=
    Script.read?_eq_some_iff.mp hscript
  obtain ⟨name, other, line, hlast, hother, herror⟩ := h names text htext
  have hsame : other = dialect := by
    obtain ⟨extension, hextension, hof⟩ := Option.bind_eq_some_iff.mp hdialect
    obtain ⟨last, hname, hsplit⟩ := Option.bind_eq_some_iff.mp hextension
    rw [FileSystem.getLast?_of_locate? hfound hname, Option.some.injEq] at hlast
    subst hlast
    rw [Script.dialectOfName?, hsplit, Option.bind_some, hof, Option.some.injEq] at hother
    exact hother.symm
  have hnew : found = text := by
    rw [FileSystem.readText?_withTexts, hfound, Option.bind_some, htext] at hread
    split at hread
    · exact (Option.some.inj hread).symm
    · cases hread
  rw [hnew, ← hsame, herror] at hparse
  cases hparse

/-- An empty text is a script without calls. -/
theorem methodCall?_of_blank
    {dialect : Dialect}
    {tree : Tree}
    (h : Tree.ofText dialect "" = .ok tree) :
    ∀ node ∈ tree.preorder, node.methodCall? = none := by
  have hnone : ((Tree.ofText dialect "").toOption.all fun tree =>
      tree.preorder.all fun node => node.methodCall?.isNone) = true := by
    cases dialect <;> decide +kernel
  rw [h, Except.toOption, Option.all_some] at hnone
  intro node hnode
  exact Option.isNone_iff_eq_none.mp (List.all_eq_true.mp hnone node hnode)

/-- An empty file is said to have neither mounts nor registrations. -/
theorem eq_nil_of_blank
    (hfound : files.locate? path = some names)
    (htext : texts names = some "")
    (hread : read? (files.withTexts texts) path = some f) :
    f.mounts.uses = [] ∧ f.registrations = [] := by
  obtain ⟨script, hscript, rfl⟩ := Option.map_eq_some_iff.mp hread
  obtain ⟨dialect, found, tree, -, hnew, hparse, rfl⟩ := Script.read?_eq_some_iff.mp hscript
  have hblank : found = "" := by
    rw [FileSystem.readText?_withTexts, hfound, Option.bind_some, htext] at hnew
    split at hnew
    · exact (Option.some.inj hnew).symm
    · cases hnew
  subst hblank
  have hcalls := methodCall?_of_blank hparse
  constructor
  · refine List.filterMap_eq_nil_iff.mpr fun node hnode => ?_
    rw [Mounts.mountAt?, hcalls node hnode]
  · refine List.filterMap_eq_nil_iff.mpr fun node hnode => ?_
    rw [Registration.at?, hcalls node hnode]

/-- A file says the same whether the broken files are broken or blank, or else it is one of them. -/
theorem read?_broken_or_blank
    (h : AreBroken texts)
    (files : FileSystem)
    (path : String) :
    read? (files.withTexts texts) path = read? (files.withTexts (blanked texts)) path ∨
      read? (files.withTexts texts) path = none ∧
        ∀ f, read? (files.withTexts (blanked texts)) path = some f →
          f.mounts.uses = [] ∧ f.registrations = [] := by
  cases htext : (files.locate? path).bind texts with
  | none =>
      have hblank : (files.locate? path).bind (blanked texts) = none := by
        rw [Option.bind_eq_none_iff] at htext ⊢
        intro names hnames
        rw [blanked, htext names hnames, Option.map_none]
      refine .inl (read?_congr ?_ ?_)
      · rw [FileSystem.readText?_withTexts, FileSystem.readText?_withTexts, htext, hblank]
      · rw [FileSystem.imported?_withTexts, FileSystem.imported?_withTexts]
  | some text =>
      obtain ⟨names, hfound, hnames⟩ := Option.bind_eq_some_iff.mp htext
      refine .inr ⟨read?_eq_none_of_broken h hfound hnames, fun f hf => ?_⟩
      have hblank : blanked texts names = some "" := by rw [blanked, hnames, Option.map_some]
      exact eq_nil_of_blank hfound hblank hf

end FileRoutes

section Lists

variable {α β γ : Type} {read read' : α → Option β} {tell : β → List γ}

/-- Leaving out items that say nothing changes nothing. -/
theorem flatMap_filterMap_congr :
    ∀ {items : List α},
      (∀ a ∈ items, read a = read' a ∨ read a = none ∧ ∀ b, read' a = some b → tell b = []) →
      (items.filterMap read).flatMap tell = (items.filterMap read').flatMap tell
  | [], _ => rfl
  | a :: items, h => by
      have hrest := flatMap_filterMap_congr fun b hb => h b (List.mem_cons_of_mem _ hb)
      rcases h a List.mem_cons_self with hsame | ⟨hnone, hsilent⟩
      · cases hread : read' a with
        | none =>
            rw [List.filterMap_cons_none (hsame.trans hread), List.filterMap_cons_none hread, hrest]
        | some b =>
            rw [List.filterMap_cons_some (hsame.trans hread), List.filterMap_cons_some hread,
              List.flatMap_cons, List.flatMap_cons, hrest]
      · cases hread : read' a with
        | none => rw [List.filterMap_cons_none hnone, List.filterMap_cons_none hread, hrest]
        | some b =>
            rw [List.filterMap_cons_none hnone, List.filterMap_cons_some hread, List.flatMap_cons,
              hsilent b hread, List.nil_append, hrest]

end Lists

namespace Workspace

variable {w : Workspace} {texts : List String → Option String}

/-- The project with new texts for some of its files. -/
def withTexts (w : Workspace) (texts : List String → Option String) : Workspace :=
  { w with files := w.files.withTexts texts }

/-- The files that may hold routes are told by their paths. -/
theorem candidates_withTexts (h : SparesIgnoreFiles texts) :
    (w.withTexts texts).candidates = w.candidates := by
  have hvisible := FileSystem.visibleFiles_withTexts h w.files w.root
  rw [candidates, candidates]
  simp only [withTexts, hvisible]

/-- What all readable files say, taken together, is the same for broken and for blank files. -/
theorem flatMap_readable_broken
    {γ : Type}
    {tell : FileRoutes → List γ}
    (h : AreBroken texts)
    (htell : ∀ f : FileRoutes, f.mounts.uses = [] → f.registrations = [] → tell f = []) :
    (w.withTexts texts).readable.flatMap tell =
      (w.withTexts (blanked texts)).readable.flatMap tell := by
  rw [readable, readable, candidates_withTexts h.sparesIgnoreFiles,
    candidates_withTexts h.sparesIgnoreFiles.blanked]
  refine flatMap_filterMap_congr fun path _ => ?_
  rcases FileRoutes.read?_broken_or_blank h w.files path with hsame | ⟨hnone, hblank⟩
  · exact .inl hsame
  · exact .inr ⟨hnone, fun f hf => htell f (hblank f hf).1 (hblank f hf).2⟩

/-- Broken files bring the same routes to a project as empty ones. -/
theorem routes_withTexts_blanked (h : AreBroken texts) :
    (w.withTexts texts).routes = (w.withTexts (blanked texts)).routes := by
  have hedges : FileRoutes.edges (w.withTexts texts).readable =
      FileRoutes.edges (w.withTexts (blanked texts)).readable :=
    flatMap_readable_broken h fun f huses _ => by rw [huses, List.filterMap_nil]
  rw [routes, routes]
  dsimp only
  rw [hedges]
  exact flatMap_readable_broken h fun f _ hnone => by rw [hnone, List.map_nil]

/-- Broken files are isolated: a project lists the same routes as with empty files in their place,
so any two projects with the same paths and the same texts elsewhere list the same routes. -/
theorem routes_of_broken_files
    (w : Workspace)
    (texts : List String → Option String)
    (h : AreBroken texts) :
    (w.withTexts texts).routes = (w.withTexts (blanked texts)).routes ∧
      ∀ (other : Workspace) (others : List String → Option String),
        AreBroken others →
        other.withTexts (blanked others) = w.withTexts (blanked texts) →
        (other.withTexts others).routes = (w.withTexts texts).routes := by
  refine ⟨routes_withTexts_blanked h, fun other others hothers hsame => ?_⟩
  rw [routes_withTexts_blanked hothers, routes_withTexts_blanked h, hsame]

namespace Nested

/-- A text that breaks off in place of the file with the two routers. -/
def damage (names : List String) : Option String :=
  if names = ["routes", "a.js"] then some "r.use('/in', s" else none

theorem areBroken_damage : AreBroken damage := by
  intro names text htext
  unfold damage at htext
  split at htext
  · rename_i hnames
    cases htext
    have herror : (Tree.ofText .javascript "r.use('/in', s").toBool = false := by
      decide +kernel
    cases hparse : Tree.ofText .javascript "r.use('/in', s" with
    | ok tree => simp [hparse, Except.toBool] at herror
    | error line =>
        refine ⟨"a.js", .javascript, line, ?_, by decide +kernel, hparse⟩
        rw [hnames]
        rfl
  · cases htext

/-- The damaged file lies between the application and the third file. -/
theorem readable_damaged :
    ∃ application leaf : FileRoutes,
      (project.withTexts damage).readable = [application, leaf] ∧
        shown application = ⟨"/app.js", [], [("/routes/a.js", some "/app.js", "/api")], [], []⟩ ∧
        shown leaf = ⟨"/routes/b.js", [], [], ["/z"], ["/api/in/b/z"]⟩ := by
  have hshown : ["/app.js", "/routes/a.js", "/routes/b.js"].map
      (fun p => (FileRoutes.read? (project.files.withTexts damage) p).map shown) = [
        some ⟨"/app.js", [], [("/routes/a.js", some "/app.js", "/api")], [], []⟩,
        none,
        some ⟨"/routes/b.js", [], [], ["/z"], ["/api/in/b/z"]⟩] := by
    decide +kernel
  simp only [List.map_cons, List.map_nil, List.cons.injEq, Option.map_eq_some_iff,
    Option.map_eq_none_iff, and_true] at hshown
  obtain ⟨⟨application, happlication, hshownApplication⟩, hrouters, leaf, hleaf, hshownLeaf⟩ :=
    hshown
  refine ⟨application, leaf, ?_, hshownApplication, hshownLeaf⟩
  rw [readable, candidates_withTexts areBroken_damage.sparesIgnoreFiles, candidates_eq, withTexts,
    List.filterMap_cons_some happlication, List.filterMap_cons_none hrouters,
    List.filterMap_cons_some hleaf, List.filterMap_nil]

/-- The third file is found without a mount, since the chain breaks off before it. -/
theorem paths_damaged : (project.withTexts damage).routes.map Route.path = ["/z"] := by
  obtain ⟨application, leaf, hreadable, happlication, hleaf⟩ := readable_damaged
  simp only [shown, Shown.mk.injEq, List.map_eq_nil_iff] at happlication hleaf
  obtain ⟨-, -, happlicationMounts, happlicationNone, -⟩ := happlication
  obtain ⟨hleafPath, -, hleafMounts, hleafAlone, -⟩ := hleaf
  have hedges : FileRoutes.edges (project.withTexts damage).readable =
      [⟨"/routes/a.js", some "/app.js", "/api"⟩] := by
    rw [hreadable, FileRoutes.edges]
    simp only [List.flatMap_cons, List.flatMap_nil, eq_of_map_parts happlicationMounts, hleafMounts]
    rfl
  have hmount : MountEdge.fullPath? (FileRoutes.edges (project.withTexts damage).readable)
      leaf.path = none := by
    rw [hedges, hleafPath]
    exact MountEdge.fullPath?_eq_none (by decide)
  have hroutes : (project.withTexts damage).routes =
      leaf.registrations.map fun r => r.mounted none := by
    rw [hreadable] at hmount
    simp [routes, hreadable, happlicationNone, hmount]
  have hkept : ∀ r : Registration, (r.mounted none).path = r.route.path := by
    intro r
    simp [Registration.mounted]
  rw [hroutes, List.map_map, ← hleafAlone]
  exact List.map_congr_left fun r _ => hkept r

end Nested

/-- In place of the file with the two routers, a broken text brings the same routes as none at all:
the third file keeps its route, which no mount reaches any more. -/
theorem routes_of_damaged_project :
    AreBroken Nested.damage ∧
      (Nested.project.withTexts Nested.damage).routes =
        (Nested.project.withTexts (blanked Nested.damage)).routes ∧
      (Nested.project.withTexts (blanked Nested.damage)).routes.map Route.path = ["/z"] := by
  obtain ⟨hsame, -⟩ := routes_of_broken_files Nested.project Nested.damage Nested.areBroken_damage
  exact ⟨Nested.areBroken_damage, hsame, hsame ▸ Nested.paths_damaged⟩

end Workspace
end EndpointPayload
