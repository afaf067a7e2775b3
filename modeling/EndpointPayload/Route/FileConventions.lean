import EndpointPayload.Files.Glob
import EndpointPayload.Files.Path
import EndpointPayload.Source.Dialect

/-!
# Where routes are written

Files that hold routes are told by their path: by the usual names of entry files, by a directory for
routes, or by a file name that speaks of routes.  Directories of dependencies and of built files are
passed over.
-/

namespace EndpointPayload
namespace RouteFile

/-- Directories that hold no code of the project. -/
def ignoredNames : List String := [
  "node_modules", "bower_components", "jspm_packages", "dist", "build", "out", ".git", ".next",
  ".nuxt", ".output", ".turbo", ".cache", "coverage", "vendor"]

def patterns : List String := [
  "**/app.\x7bjs,ts,mjs,cjs\x7d",
  "**/server.\x7bjs,ts,mjs,cjs\x7d",
  "**/index.\x7bjs,ts,mjs,cjs\x7d",
  "**/routes/**/*.\x7bjs,ts,jsx,tsx,mjs,cjs\x7d",
  "**/router/**/*.\x7bjs,ts,jsx,tsx,mjs,cjs\x7d",
  "**/controllers/**/*.\x7bjs,ts,jsx,tsx,mjs,cjs\x7d",
  "**/*router*.\x7bjs,ts,jsx,tsx,mjs,cjs\x7d",
  "**/*route*.\x7bjs,ts,jsx,tsx,mjs,cjs\x7d"]

def globs : List Glob := patterns.filterMap (Glob.ofText? true)

/-- Whether a component of a path is one of the ignored names. -/
def isIgnored (extra : List String) (path : String) : Bool :=
  (Path.components path).any fun c =>
    match c with
    | .name n => (ignoredNames ++ extra).contains n
    | _ => false

/-- Whether a path, read from the root of a project, is that of a file with routes. -/
def isRouteFile (extra : List String) (path : String) : Bool :=
  ((Path.extension? path).bind Source.Dialect.ofExtension?).isSome && !isIgnored extra path &&
    globs.any fun g => g.isMatch path

end RouteFile
end EndpointPayload
