import EndpointPayload.Files.System

/-!
# Import specifiers

An import names a file relative to the file it stands in.  The name may be the file itself, lack an
extension, or be a directory with an index file.  All other specifiers name packages and find
nothing.
-/

namespace EndpointPayload
namespace Specifier

/-- Whether a specifier points into the project. -/
def isRelative (s : String) : Bool :=
  s = "." || s = ".." || s.startsWith "./" || s.startsWith "../"

/-- The extensions that an import may leave out, in the order they are tried. -/
def extensions : List String := ["js", "ts", "jsx", "tsx"]

/-- The files that an import may mean, in the order they are tried. -/
def candidates (base : String) : List String :=
  base :: (extensions.map (fun e => base ++ "." ++ e) ++
    extensions.map fun e => Path.join base ("index." ++ e))

/-- The path that a specifier in a file means, extension aside. -/
def base (file spec : String) : String :=
  Path.normalize (Path.join ((Path.parent? file).getD "") spec)

end Specifier

/-- The file that a specifier in a file means. -/
def FileSystem.imported? (files : FileSystem) (file spec : String) : Option String :=
  if Specifier.isRelative spec then
    (Specifier.candidates (Specifier.base file spec)).find? files.isFile
  else none

end EndpointPayload
