/-!
# Route paths

A route path starts with one slash.  `RoutePath.join` puts a path behind another with one slash
between them, whatever slashes stand at the seam.
-/

namespace EndpointPayload
namespace RoutePath

/-- The characters without the slashes at the front. -/
def trimStart (cs : List Char) : List Char := cs.dropWhile fun c => c = '/'

/-- The characters without the slashes at the end. -/
def trimEnd (cs : List Char) : List Char := (trimStart cs.reverse).reverse

/-- Two paths with one slash at the seam; a side that is nothing but slashes is left out. -/
def seam (front back : List Char) : List Char :=
  let front := trimEnd front
  let back := trimStart back
  if front.isEmpty then back
  else if back.isEmpty then front
  else front ++ '/' :: back

/-- The path with exactly one slash at the front. -/
def normalize (path : String) : String := String.ofList ('/' :: trimStart path.toList)

/-- One path behind another. -/
def join (front back : String) : String :=
  normalize (String.ofList (seam front.toList back.toList))

end RoutePath
end EndpointPayload
