import EndpointPayload.Proofs.Route.Path
import EndpointPayload.Route.Workspace

/-!
# Routes under the mount of their file

The routes of a project are those of its files, each file's behind one another.  The mount of a file
is put before the paths of the routes on routers that the file itself does not mount.  A route on a
router with a local mount keeps the path that its own file shows, so it misses the mount of the file
unless that is nothing but slashes; the file that another file mounts on the same router gets both.
-/

namespace EndpointPayload

namespace MountEdge

variable {α : Type} [DecidableEq α] {edges : List (MountEdge α)} {x : α} {e : MountEdge α}

/-- The path of the first mount, below that of what it is mounted on if this is mounted. -/
theorem fullPath?_of_find? (h : edges.find? (fun e => e.target = x) = some e) :
    fullPath? edges x = some (((e.parent.bind (fullPath? (others edges x))).map fun above =>
      RoutePath.join above e.path).getD e.path) := by
  rw [fullPath?]
  split
  · rename_i hnone
    simp [hnone] at h
  · rename_i first hfirst
    obtain rfl : first = e := Option.some.inj (hfirst.symm.trans h)
    cases first.parent.bind (fullPath? (others edges x)) <;> rfl

theorem fullPath?_eq_none (h : ∀ e ∈ edges, e.target ≠ x) : fullPath? edges x = none := by
  have hfind : edges.find? (fun e => e.target = x) = none := by simpa using h
  rw [fullPath?]
  split
  · rfl
  · rename_i e he
    simp [hfind] at he

end MountEdge

namespace Registration

/-- A registration has a prefix exactly if its receiver is mounted in the same script, and its path
is normal. -/
structure IsLocal (r : Registration) : Prop where
  locallyMounted_eq : r.locallyMounted = r.route.routerPrefix.isSome
  isNormal : RoutePath.IsNormal r.route.path

theorem isLocal_of_at?
    {script : Source.Script}
    {imports : Imports}
    {mounts : Mounts}
    {node : Source.Tree}
    {r : Registration}
    (h : at? script imports mounts node = some r) :
    r.IsLocal := by
  unfold at? at h
  split at h
  · cases h
  · split at h
    · rename_i verb literal receiver arguments _ _
      split at h
      · cases h
        refine ⟨rfl, ?_⟩
        cases receiver.bind mounts.path? with
        | none => exact RoutePath.isNormal_normalize _
        | some above => exact RoutePath.isNormal_join _ _
      · cases h
    · cases h

end Registration

namespace FileRoutes

variable {f : FileRoutes}

/-- The registrations of a file that was read are local to it. -/
theorem isLocal_of_mem
    {files : FileSystem}
    {path : String}
    {r : Registration}
    (hf : read? files path = some f)
    (hr : r ∈ f.registrations) :
    r.IsLocal := by
  obtain ⟨script, -, rfl⟩ := Option.map_eq_some_iff.mp hf
  obtain ⟨node, -, hnode⟩ := List.mem_filterMap.mp hr
  exact Registration.isLocal_of_at? hnode

/-- A mount on a router that its own file mounts goes below the path of that router. -/
theorem path_of_edge?
    {m : Mount}
    {router inner : String}
    {e : MountEdge String}
    (hreceiver : m.receiver = some router)
    (hinner : f.mounts.path? router = some inner)
    (hedge : f.edge? m = some e) :
    e.parent = some f.path ∧ e.path = RoutePath.join inner m.path := by
  simp only [edge?, hreceiver, Option.bind_some, hinner] at hedge
  split at hedge
  · cases hedge
  · split at hedge
    · cases hedge
    · cases hedge
      exact ⟨rfl, rfl⟩

end FileRoutes

namespace Workspace

variable {w : Workspace} {f : FileRoutes} {above : String}

/-- The routes of a file stand together among those of the project. -/
theorem routes_eq_append
    (hf : f ∈ w.readable)
    (hmount : MountEdge.fullPath? (FileRoutes.edges w.readable) f.path = some above) :
    ∃ before after,
      w.routes = before ++ (f.registrations.map fun r => r.mounted (some above)) ++ after := by
  obtain ⟨front, back, hsplit⟩ := List.append_of_mem hf
  unfold routes
  simp only [hsplit] at hmount ⊢
  rw [List.flatMap_append, List.flatMap_cons, hmount]
  exact ⟨_, _, (List.append_assoc _ _ _).symm⟩

/-- A registration gets the mount of its file unless it has a prefix of its own file. -/
theorem path_mounted_iff
    {r : Registration}
    (hr : r.IsLocal) :
    (r.mounted (some above)).path = RoutePath.join above r.route.path ↔
      r.route.routerPrefix = none ∨ RoutePath.IsSlashes above := by
  cases hprefix : r.route.routerPrefix with
  | none =>
      have hlocal : r.locallyMounted = false := by simp [hr.locallyMounted_eq, hprefix]
      simp [Registration.mounted, hlocal]
  | some inner =>
      have hlocal : r.locallyMounted = true := by simp [hr.locallyMounted_eq, hprefix]
      have hkept : (r.mounted (some above)).path = r.route.path := by
        simp [Registration.mounted, hlocal]
      rw [hkept, eq_comm, RoutePath.join_eq_back_iff hr.isNormal]
      simp

/-- In a file that is mounted under a path, exactly the routes whose router the file does not mount
are found under that path, unless the path is nothing but slashes; and a file that this one mounts
on a router of its own is mounted below both. -/
theorem routes_of_mounted_file
    (hf : f ∈ w.readable)
    (hmount : MountEdge.fullPath? (FileRoutes.edges w.readable) f.path = some above) :
    (∃ before after,
      w.routes = before ++ (f.registrations.map fun r => r.mounted (some above)) ++ after) ∧
    (∀ r ∈ f.registrations,
      (r.mounted (some above)).path = RoutePath.join above r.route.path ↔
        r.route.routerPrefix = none ∨ RoutePath.IsSlashes above) ∧
    (∀ m router inner e,
      m.receiver = some router →
      f.mounts.path? router = some inner →
      f.edge? m = some e →
      (FileRoutes.edges w.readable).find? (fun e' => e'.target = e.target) = some e →
      MountEdge.fullPath? (MountEdge.others (FileRoutes.edges w.readable) e.target) f.path =
        some above →
      MountEdge.fullPath? (FileRoutes.edges w.readable) e.target =
        some (RoutePath.join above (RoutePath.join inner m.path))) := by
  refine ⟨routes_eq_append hf hmount, fun r hr => ?_, ?_⟩
  · obtain ⟨path, -, hread⟩ := List.mem_filterMap.mp hf
    exact path_mounted_iff (FileRoutes.isLocal_of_mem hread hr)
  · intro m router inner e hreceiver hinner hedge hfirst habove
    obtain ⟨hparent, hpath⟩ := FileRoutes.path_of_edge? hreceiver hinner hedge
    rw [MountEdge.fullPath?_of_find? hfirst, hparent, Option.bind_some, habove, hpath]
    rfl

namespace Nested

/-- An application that mounts a file, this file mounting one of its two routers on the other, and a
third file mounted on the inner router. -/
def files : FileSystem :=
  ⟨.directory [
    ("app.js", .file (some "app.use('/api', require('./routes/a'));")),
    ("routes", .directory [
      ("a.js", .file (some "r.use('/in', s); s.use('/b', require('./b')); s.get('/x', h);")),
      ("b.js", .file (some "t.get('/z', h);"))])], []⟩

def project : Workspace := ⟨files, "/", []⟩

def parts (e : MountEdge String) : String × Option String × String := (e.target, e.parent, e.path)

theorem eq_of_map_parts
    {edges : List (MountEdge String)}
    {target path : String}
    {parent : Option String}
    (h : edges.map parts = [(target, parent, path)]) :
    edges = [⟨target, parent, path⟩] := by
  match edges, h with
  | [⟨_, _, _⟩], rfl => rfl

/-- Where a file of the project is mounted, the application aside. -/
def mountOf (path : String) : String := if path = "/routes/b.js" then "/api/in/b" else "/api"

/-- What a file shows: its path, its mounts inside and on other files, and the paths of its routes
alone and where it is mounted. -/
structure Shown where
  path : String
  inner : List (String × Option String × String)
  mounts : List (String × Option String × String)
  alone : List String
  mounted : List String
  deriving DecidableEq

def shown (f : FileRoutes) : Shown where
  path := f.path
  inner := f.mounts.edges.map parts
  mounts := (f.mounts.uses.filterMap f.edge?).map parts
  alone := f.registrations.map fun r => r.route.path
  mounted := f.registrations.map fun r => (r.mounted (some (mountOf f.path))).path

theorem candidates_eq : project.candidates = ["/app.js", "/routes/a.js", "/routes/b.js"] := by
  have hfound : ((project.files.visibleFiles project.root).filter
      (RouteFile.isRouteFile project.ignored)).map
        (fun p => Path.normalize (Path.join project.root p)) =
          ["/app.js", "/routes/a.js", "/routes/b.js"] := by
    decide +kernel
  rw [candidates, hfound]
  exact List.mergeSort_of_pairwise (by decide +kernel)

theorem readable_eq :
    ∃ application routers leaf : FileRoutes,
      project.readable = [application, routers, leaf] ∧
        shown application = ⟨"/app.js", [], [("/routes/a.js", some "/app.js", "/api")], [], []⟩ ∧
        shown routers = ⟨"/routes/a.js", [("s", some "r", "/in")],
          [("/routes/b.js", some "/routes/a.js", "/in/b")], ["/in/x"], ["/in/x"]⟩ ∧
        shown leaf = ⟨"/routes/b.js", [], [], ["/z"], ["/api/in/b/z"]⟩ := by
  have hshown : ["/app.js", "/routes/a.js", "/routes/b.js"].map
      (fun p => (FileRoutes.read? project.files p).map shown) = [
        some ⟨"/app.js", [], [("/routes/a.js", some "/app.js", "/api")], [], []⟩,
        some ⟨"/routes/a.js", [("s", some "r", "/in")],
          [("/routes/b.js", some "/routes/a.js", "/in/b")], ["/in/x"], ["/in/x"]⟩,
        some ⟨"/routes/b.js", [], [], ["/z"], ["/api/in/b/z"]⟩] := by
    decide +kernel
  simp only [List.map_cons, List.map_nil, List.cons.injEq, Option.map_eq_some_iff, and_true]
    at hshown
  obtain ⟨⟨application, happlication, hshownApplication⟩, ⟨routers, hrouters, hshownRouters⟩,
    leaf, hleaf, hshownLeaf⟩ := hshown
  refine ⟨application, routers, leaf, ?_, hshownApplication, hshownRouters, hshownLeaf⟩
  rw [readable, candidates_eq, List.filterMap_cons_some happlication,
    List.filterMap_cons_some hrouters, List.filterMap_cons_some hleaf, List.filterMap_nil]

/-- The mounts between the files. -/
def mounts : List (MountEdge String) :=
  [⟨"/routes/a.js", some "/app.js", "/api"⟩, ⟨"/routes/b.js", some "/routes/a.js", "/in/b"⟩]

theorem fullPath?_routers : MountEdge.fullPath? mounts "/routes/a.js" = some "/api" := by
  rw [MountEdge.fullPath?_of_find? rfl, Option.bind_some, MountEdge.fullPath?_eq_none (by decide)]
  rfl

theorem fullPath?_routers_alone :
    MountEdge.fullPath? (MountEdge.others mounts "/routes/b.js") "/routes/a.js" = some "/api" := by
  rw [MountEdge.fullPath?_of_find? rfl, Option.bind_some, MountEdge.fullPath?_eq_none (by decide)]
  rfl

theorem fullPath?_leaf : MountEdge.fullPath? mounts "/routes/b.js" = some "/api/in/b" := by
  rw [MountEdge.fullPath?_of_find? rfl, Option.bind_some, fullPath?_routers_alone]
  decide +kernel

/-- The file with the two routers is mounted under `/api`, and so is the third file, but the route
on the inner router is not. -/
theorem exists_mounted :
    ∃ f ∈ project.readable,
      FileRoutes.edges project.readable = mounts ∧
        f.path = "/routes/a.js" ∧
        f.mounts.edges = [⟨"s", some "r", "/in"⟩] ∧
        f.registrations.map (fun r => r.route.path) = ["/in/x"] ∧
        project.routes.map Route.path = ["/in/x", "/api/in/b/z"] := by
  obtain ⟨application, routers, leaf, hreadable, happlication, hrouters, hleaf⟩ := readable_eq
  simp only [shown, Shown.mk.injEq, List.map_eq_nil_iff] at happlication hrouters hleaf
  obtain ⟨-, -, happlicationMounts, happlicationNone, -⟩ := happlication
  obtain ⟨hpath, hinner, hroutersMounts, halone, hmounted⟩ := hrouters
  obtain ⟨hleafPath, -, hleafMounts, -, hleafMounted⟩ := hleaf
  have hedges : FileRoutes.edges project.readable = mounts := by
    rw [hreadable, FileRoutes.edges]
    simp only [List.flatMap_cons, List.flatMap_nil, eq_of_map_parts happlicationMounts,
      eq_of_map_parts hroutersMounts, hleafMounts]
    rfl
  have hroutes : project.routes =
      (routers.registrations.map fun r => r.mounted (some "/api")) ++
        leaf.registrations.map fun r => r.mounted (some "/api/in/b") := by
    simp only [routes, hedges]
    rw [hreadable]
    simp [happlicationNone, hpath, hleafPath, fullPath?_routers, fullPath?_leaf]
  have hpaths : project.routes.map Route.path = ["/in/x"] ++ ["/api/in/b/z"] := by
    rw [hroutes, List.map_append, List.map_map, List.map_map, ← hmounted, ← hleafMounted, hpath,
      hleafPath]
    rfl
  exact ⟨routers, by simp [hreadable], hedges, hpath, eq_of_map_parts hinner, halone, hpaths⟩

end Nested

/-- The three files: the routes of the second one and the mount of the third. -/
theorem routes_of_mounted_routers :
    ∃ f ∈ Nested.project.readable,
      (∀ r ∈ f.registrations,
        (r.mounted (some "/api")).path = RoutePath.join "/api" r.route.path ↔
          r.route.routerPrefix = none ∨ RoutePath.IsSlashes "/api") ∧
      MountEdge.fullPath? (FileRoutes.edges Nested.project.readable) "/routes/b.js" =
        some (RoutePath.join "/api" (RoutePath.join "/in" "/b")) := by
  obtain ⟨f, hf, hedges, hpath, hinner, -, -⟩ := Nested.exists_mounted
  have hmount : MountEdge.fullPath? (FileRoutes.edges Nested.project.readable) f.path =
      some "/api" := by
    rw [hedges, hpath, Nested.fullPath?_routers]
  obtain ⟨-, hroutes, hsibling⟩ := routes_of_mounted_file hf hmount
  have hrouter : f.mounts.path? "s" = some "/in" := by
    rw [Mounts.path?, hinner, MountEdge.fullPath?_of_find? rfl, Option.bind_some,
      MountEdge.fullPath?_eq_none (by decide)]
    rfl
  refine ⟨f, hf, hroutes, hsibling ⟨some "s", "/b", .file "/routes/b.js"⟩ "s" "/in"
    ⟨"/routes/b.js", some "/routes/a.js", "/in/b"⟩ rfl hrouter ?_ ?_ ?_⟩
  · have hjoin : RoutePath.join "/in" "/b" = "/in/b" := by decide +kernel
    simp [FileRoutes.edge?, hrouter, hpath, hjoin]
  · rw [hedges]
    rfl
  · rw [hedges, hpath]
    exact Nested.fullPath?_routers_alone

/-- Not every route of a mounted file is found under the path of its mount. -/
theorem not_forall_mem_routes :
    ¬ ∀ (w : Workspace) (f : FileRoutes) (above : String),
      f ∈ w.readable →
      MountEdge.fullPath? (FileRoutes.edges w.readable) f.path = some above →
      ∀ r ∈ f.registrations,
        ∃ route ∈ w.routes, route.path = RoutePath.join above r.route.path := by
  intro hall
  obtain ⟨f, hf, hedges, hpath, -, halone, hroutes⟩ := Nested.exists_mounted
  have hmount : MountEdge.fullPath? (FileRoutes.edges Nested.project.readable) f.path =
      some "/api" := by
    rw [hedges, hpath, Nested.fullPath?_routers]
  have hinner : "/in/x" ∈ f.registrations.map fun r => r.route.path := by
    rw [halone]
    exact List.mem_singleton_self _
  obtain ⟨r, hr, hrpath⟩ := List.mem_map.mp hinner
  obtain ⟨route, hroute, hjoin⟩ := hall Nested.project f "/api" hf hmount r hr
  have hfound : RoutePath.join "/api" "/in/x" ∈ ["/in/x", "/api/in/b/z"] := by
    rw [← hroutes, ← hrpath, ← hjoin]
    exact List.mem_map_of_mem hroute
  exact absurd hfound (by decide +kernel)

end Workspace
end EndpointPayload
