import EndpointPayload.Proofs.Files.Path
import EndpointPayload.Proofs.Route.Mounted

/-!
# Routes of a project against routes of its files

The routes of a project are what its files show one by one, in the order of the files: none is lost,
doubled or moved.  Of a route that its file shows alone, the project changes nothing but the path
and the prefix, and these only by the mount of the file.
-/

namespace EndpointPayload

/-- A route of a project against the same route as its file shows it alone. -/
structure Route.IsUnderMount (mount : Option String) (alone route : Route) : Prop where
  verb_eq : route.verb = alone.verb
  filePath_eq : route.filePath = alone.filePath
  line_eq : route.line = alone.line
  middlewares_eq : route.middlewares = alone.middlewares
  handler_eq : route.handler = alone.handler
  controllerFile_eq : route.controllerFile = alone.controllerFile
  controllerFunction_eq : route.controllerFunction = alone.controllerFunction
  inlineSpan_eq : route.inlineSpan = alone.inlineSpan
  /-- Path and prefix are kept, or both are those under the mount. -/
  kept_or_mounted :
    route.path = alone.path ∧ route.routerPrefix = alone.routerPrefix ∨
      ∃ above, mount = some above ∧ alone.routerPrefix = none ∧
        route.path = RoutePath.join above alone.path ∧ route.routerPrefix = some above

/-- The mount of a file changes a registration in its path and its prefix alone. -/
theorem Registration.isUnderMount_mounted
    {r : Registration}
    (hr : r.IsLocal)
    (mount : Option String) :
    Route.IsUnderMount mount r.route (r.mounted mount) := by
  cases hlocal : r.locallyMounted with
  | true =>
      have hkept : r.mounted mount = r.route := by simp [mounted, hlocal]
      rw [hkept]
      exact ⟨rfl, rfl, rfl, rfl, rfl, rfl, rfl, rfl, .inl ⟨rfl, rfl⟩⟩
  | false =>
      have hprefix : r.route.routerPrefix = none := by
        simpa [hlocal] using hr.locallyMounted_eq
      cases mount with
      | none =>
          have hkept : r.mounted none = r.route := by simp [mounted]
          rw [hkept]
          exact ⟨rfl, rfl, rfl, rfl, rfl, rfl, rfl, rfl, .inl ⟨rfl, rfl⟩⟩
      | some above =>
          have hmounted : r.mounted (some above) =
              { r.route with
                path := RoutePath.join above r.route.path, routerPrefix := some above } := by
            simp [mounted, hlocal]
          rw [hmounted]
          exact ⟨rfl, rfl, rfl, rfl, rfl, rfl, rfl, rfl, .inr ⟨above, rfl, hprefix, rfl, rfl⟩⟩

/-- A file is a script if it has a dialect and a text that can be parsed in it. -/
theorem Source.Script.read?_eq_some_iff
    {files : FileSystem}
    {path : String}
    {script : Source.Script} :
    read? files path = some script ↔
      ∃ dialect text tree, dialectOf? path = some dialect ∧ files.readText? path = some text ∧
        Tree.ofText dialect text = .ok tree ∧ script = ⟨path, text, dialect, tree⟩ := by
  simp only [read?, read]
  cases dialectOf? path with
  | none => simp [Except.toOption]
  | some dialect =>
      cases files.readText? path with
      | none => simp [Except.toOption]
      | some text =>
          cases hparse : Tree.ofText dialect text with
          | error line => simp [ofText, hparse, Except.toOption]
          | ok tree => simp [ofText, hparse, Except.toOption, eq_comm]

theorem FileRoutes.path_of_read?
    {files : FileSystem}
    {path : String}
    {f : FileRoutes}
    (h : read? files path = some f) :
    f.path = path := by
  obtain ⟨script, hscript, rfl⟩ := Option.map_eq_some_iff.mp h
  obtain ⟨dialect, text, tree, -, -, -, rfl⟩ := Source.Script.read?_eq_some_iff.mp hscript
  rfl

namespace Workspace

variable {w : Workspace} {f name : String}

/-- The file that a name means to the scan of one file. -/
def fileOf (w : Workspace) (name : String) : String := Path.normalize (Path.join w.root name)

/-- The mount that the project finds for a file. -/
def mountOf? (w : Workspace) (f : String) : Option String :=
  MountEdge.fullPath? (FileRoutes.edges w.readable) f

/-- The routes of the project that come from one file. -/
def part (w : Workspace) (f : String) : List Route :=
  ((FileRoutes.read? w.files f).map fun found =>
    found.registrations.map fun r => r.mounted (w.mountOf? f)).getD []

theorem routesIn_eq (w : Workspace) (name : String) :
    w.routesIn name = ((FileRoutes.read? w.files (w.fileOf name)).map fun found =>
      found.registrations.map Registration.route).getD [] := by
  unfold routesIn fileOf
  dsimp only
  generalize FileRoutes.read? w.files (Path.normalize (Path.join w.root name)) = found
  cases found <;> rfl

/-- The routes of a project are those of its files in order. -/
theorem routes_eq_flatten (w : Workspace) : w.routes = (w.candidates.map w.part).flatten := by
  rw [routes]
  change (w.candidates.filterMap (FileRoutes.read? w.files)).flatMap
    (fun found => found.registrations.map fun r => r.mounted (w.mountOf? found.path)) = _
  induction w.candidates with
  | nil => rfl
  | cons f rest ih =>
      rw [List.map_cons, List.flatten_cons, ← ih, part]
      cases hread : FileRoutes.read? w.files f with
      | none =>
          rw [List.filterMap_cons_none hread]
          rfl
      | some found =>
          rw [List.filterMap_cons_some hread, List.flatMap_cons, FileRoutes.path_of_read? hread]
          rfl

/-- What one file brings to the project agrees with what it shows alone. -/
theorem forall₂_routesIn_part (h : w.fileOf name = f) :
    List.Forall₂ (Route.IsUnderMount (w.mountOf? f)) (w.routesIn name) (w.part f) := by
  rw [routesIn_eq, h, part]
  cases hread : FileRoutes.read? w.files f with
  | none => exact .nil
  | some found =>
      rw [Option.map_some, Option.map_some, Option.getD_some, Option.getD_some,
        List.forall₂_map_left_iff, List.forall₂_map_right_iff, List.forall₂_same]
      intro r hr
      exact Registration.isUnderMount_mounted (FileRoutes.isLocal_of_mem hread hr) (w.mountOf? f)

/-- The files of a project are in order. -/
theorem pairwise_candidates (w : Workspace) :
    w.candidates.Pairwise fun a b => Path.before b a = false := by
  have htrans : ∀ a b c : String, (!Path.before b a) = true → (!Path.before c b) = true →
      (!Path.before c a) = true := by
    intro a b c hab hbc
    rw [Path.not_before_iff] at *
    exact hab.trans hbc
  have htotal : ∀ a b : String, (!Path.before b a || !Path.before a b) = true := by
    intro a b
    rw [Bool.or_eq_true, Path.not_before_iff, Path.not_before_iff]
    exact le_total _ _
  rw [candidates]
  exact (List.pairwise_mergeSort htrans htotal _).imp fun h => by simpa using h

/-- Each file of a project is found under a path from its directory. -/
theorem exists_fileOf_eq (h : f ∈ w.candidates) : ∃ name, w.fileOf name = f := by
  rw [candidates, List.mem_mergeSort] at h
  obtain ⟨name, -, hname⟩ := List.mem_map.mp h
  exact ⟨name, hname⟩

theorem isAbsolute_root_atPath
    {files : FileSystem}
    {path : String}
    {ignored : List String}
    (h : (files.locate? path).isSome = true) :
    Path.isAbsolute (atPath files path ignored).root = true := by
  obtain ⟨names, hnames⟩ := Option.isSome_iff_exists.mp h
  have hfound : files.canonical? path = some ("/" ++ "/".intercalate names) := by
    rw [FileSystem.canonical?, hnames, Option.map_some]
  rw [atPath, hfound]
  exact FileSystem.isAbsolute_of_canonical? hfound

/-- What the routes of a project have to do with those of its files. -/
structure RefinesFiles (w : Workspace) : Prop where
  /-- The files are in order. -/
  pairwise_candidates : w.candidates.Pairwise fun a b => Path.before b a = false
  /-- Each file has a name for the scan of one file. -/
  exists_name : ∀ f ∈ w.candidates, ∃ name, w.fileOf name = f
  /-- In a project with an absolute path, the path of the file is such a name. -/
  fileOf_self : Path.isAbsolute w.root = true → ∀ f ∈ w.candidates, w.fileOf f = f
  /-- A project has an absolute path if there is something at its path. -/
  isAbsolute_root : ∀ path, (w.files.locate? path).isSome = true →
    w = atPath w.files path w.ignored → Path.isAbsolute w.root = true
  /-- The routes fall into one part for each file, and this agrees route by route with what the scan
  of the file alone shows. -/
  exists_parts : ∃ parts : List (List Route),
    w.routes = parts.flatten ∧
      List.Forall₂
        (fun f part => ∀ name, w.fileOf name = f →
          List.Forall₂ (Route.IsUnderMount (w.mountOf? f)) (w.routesIn name) part)
        w.candidates parts

/-- The routes of every project refine those of its files. -/
theorem refinesFiles (w : Workspace) : RefinesFiles w where
  pairwise_candidates := pairwise_candidates w
  exists_name _ := exists_fileOf_eq
  fileOf_self hroot f hf := by
    obtain ⟨name, hname⟩ := exists_fileOf_eq hf
    exact Path.normalize_join_of_eq hroot hname
  isAbsolute_root path hfound hw := by
    rw [hw]
    exact isAbsolute_root_atPath hfound
  exists_parts := by
    refine ⟨w.candidates.map w.part, routes_eq_flatten w, ?_⟩
    rw [List.forall₂_map_right_iff, List.forall₂_same]
    exact fun f _ name => forall₂_routesIn_part

end Workspace
end EndpointPayload
