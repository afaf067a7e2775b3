import EndpointPayload.Route.Imports
import EndpointPayload.Route.MountChain
import EndpointPayload.Source.Calls

/-!
# Mounts in a script

`receiver.use('path', …, router)` mounts a router, which is a name of the script or a required file.
-/

namespace EndpointPayload

open Source

/-- What is mounted. -/
inductive MountTarget where
  | router (name : String)
  | file (path : String)
  deriving DecidableEq, Repr

/-- One mount; the receiver is known only if it is a name. -/
structure Mount where
  receiver : Option String
  path : String
  target : MountTarget
  deriving DecidableEq, Repr

/-- The mounts of a script in source order. -/
structure Mounts where
  uses : List Mount

namespace Mounts

/-- What the last argument of a mount stands for. -/
def target? (files : FileSystem) (script : String) (argument : Tree) : Option MountTarget :=
  match argument.meaning? with
  | some (.name n) => some (.router n)
  | some (.call _ _) => (Imports.requiredFile? files script argument).map .file
  | _ => none

/-- The mount that a node is. -/
def mountAt? (files : FileSystem) (script : String) (node : Tree) : Option Mount :=
  match node.methodCall? with
  | some ⟨object, "use", first :: second :: rest⟩ =>
    match first.literal?, target? files script ((second :: rest).getLastD second) with
    | some path, some target => some ⟨object.name?, path, target⟩
    | _, _ => none
  | _ => none

/-- The mounts of a script. -/
def ofScript (files : FileSystem) (script : Script) : Mounts :=
  ⟨script.nodes.filterMap (mountAt? files script.path)⟩

/-- The mount of a router of the script as an edge between names. -/
def edge? (m : Mount) : Option (MountEdge String) :=
  match m.target with
  | .router n => some ⟨n, m.receiver, m.path⟩
  | .file _ => none

def edges (t : Mounts) : List (MountEdge String) := t.uses.filterMap edge?

/-- The path of the first mount of a router. -/
def ownPath? (t : Mounts) (router : String) : Option String :=
  (t.edges.find? fun e => e.target = router).map MountEdge.path

/-- The whole path of a router, mounts on mounted routers included. -/
def path? (t : Mounts) (router : String) : Option String := MountEdge.fullPath? t.edges router

end Mounts
end EndpointPayload
