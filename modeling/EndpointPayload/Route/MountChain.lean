import EndpointPayload.Route.Path

/-!
# Chains of mounts

A mount puts one thing under a path of another.  `MountEdge.fullPath?` follows the first mount of a
thing, then the first mount of what it is mounted on, and so on; a mount of something that the chain
has met before ends it, so cycles do no harm.
-/

namespace EndpointPayload

/-- A target that is mounted under a path, on a parent if that is known. -/
structure MountEdge (α : Type) where
  target : α
  parent : Option α
  path : String

namespace MountEdge

variable {α : Type} [DecidableEq α]

/-- The mounts of everything but one thing. -/
def others (edges : List (MountEdge α)) (x : α) : List (MountEdge α) :=
  edges.filter fun e => e.target ≠ x

theorem length_others_lt {edges : List (MountEdge α)} {x : α} {e : MountEdge α}
    (h : edges.find? (fun e => e.target = x) = some e) :
    (others edges x).length < edges.length := by
  apply List.length_filter_lt_length_iff_exists.2
  exact ⟨e, List.mem_of_find?_eq_some h, by simpa using List.find?_some h⟩

/-- The path that a thing is mounted under, with the paths of what it is mounted on before it. -/
def fullPath? (edges : List (MountEdge α)) (x : α) : Option String :=
  match _h : edges.find? fun e => e.target = x with
  | none => none
  | some e =>
    match e.parent.bind fun p => fullPath? (others edges x) p with
    | some above => some (RoutePath.join above e.path)
    | none => some e.path
  termination_by edges.length
  decreasing_by exact length_others_lt _h

end MountEdge
end EndpointPayload
