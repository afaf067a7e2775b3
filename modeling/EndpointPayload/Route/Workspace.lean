import EndpointPayload.Files.Ignore
import EndpointPayload.Route.FileConventions
import EndpointPayload.Route.Registration

/-!
# Routes of a project

Each file with routes is read on its own.  `Workspace.routes` then puts the routes of a file that
other files mount under the path of the mount; a file that cannot be read brings nothing.
-/

namespace EndpointPayload

open Source

/-- All that one file says about routes. -/
structure FileRoutes where
  path : String
  imports : Imports
  mounts : Mounts
  registrations : List Registration

namespace FileRoutes

def ofScript (files : FileSystem) (script : Script) : FileRoutes :=
  let imports := Imports.ofScript files script
  let mounts := Mounts.ofScript files script
  ⟨script.path, imports, mounts, Registration.ofScript script imports mounts⟩

/-- What a file says, unless it cannot be read. -/
def read? (files : FileSystem) (path : String) : Option FileRoutes :=
  (Script.read? files path).map (ofScript files)

/-- A mount as an edge between files; mounts of the file on itself do not count. -/
def edge? (f : FileRoutes) (m : Mount) : Option (MountEdge String) :=
  let target :=
    match m.target with
    | .router n => f.imports.file? n
    | .file p => some p
  match target with
  | none => none
  | some t =>
    if t = f.path then none
    else
      let path :=
        match m.receiver.bind f.mounts.path? with
        | some above => RoutePath.join above m.path
        | none => m.path
      some ⟨t, some f.path, path⟩

/-- The mounts between files, in the order of the files. -/
def edges (fs : List FileRoutes) : List (MountEdge String) :=
  fs.flatMap fun f => f.mounts.uses.filterMap f.edge?

end FileRoutes

namespace Registration

/-- The route under the mount of its file; a route with a local mount stays as it is. -/
def mounted (r : Registration) (mount : Option String) : Route :=
  if r.locallyMounted then r.route
  else
    match mount with
    | some above =>
      { r.route with path := RoutePath.join above r.route.path, routerPrefix := some above }
    | none => r.route

end Registration

/-- A project: its files, the path of its root, and further names to pass over. -/
structure Workspace where
  files : FileSystem
  root : String
  ignored : List String

namespace Workspace

/-- The project below a path, as an absolute path if something is there. -/
def atPath (files : FileSystem) (path : String) (ignored : List String) : Workspace :=
  ⟨files, (files.canonical? path).getD (Path.normalize path), ignored⟩

/-- The files that may hold routes, in order. -/
def candidates (w : Workspace) : List String :=
  let paths := (w.files.visibleFiles w.root).filter (RouteFile.isRouteFile w.ignored)
  (paths.map fun p => Path.normalize (Path.join w.root p)).mergeSort fun a b => !Path.before b a

/-- What the files say that can be read. -/
def readable (w : Workspace) : List FileRoutes := w.candidates.filterMap (FileRoutes.read? w.files)

/-- Every route of the project. -/
def routes (w : Workspace) : List Route :=
  let fs := w.readable
  let edges := FileRoutes.edges fs
  fs.flatMap fun f =>
    let mount := MountEdge.fullPath? edges f.path
    f.registrations.map fun r => r.mounted mount

/-- The routes that one file shows by itself. -/
def routesIn (w : Workspace) (path : String) : List Route :=
  let path := Path.normalize (Path.join w.root path)
  match FileRoutes.read? w.files path with
  | some f => f.registrations.map Registration.route
  | none => []

/-- The first route with a verb and a path, the verb in any letter case. -/
def find? (w : Workspace) (verb path : String) : Except Failure (Option Route) :=
  (Verb.read verb).map fun v =>
    w.routes.find? fun r => r.verb = v && r.path = RoutePath.normalize path

end Workspace
end EndpointPayload
