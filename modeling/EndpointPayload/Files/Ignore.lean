import EndpointPayload.Files.System
import EndpointPayload.Files.Glob
import EndpointPayload.Text.Blank
import EndpointPayload.Text.Lines

/-!
# Ignore files

Each line of an ignore file is a glob that ignores, or after an exclamation mark keeps, what it
matches in the file's directory and below; the last line that matches decides.  Among the ignore
files of the directories above an entry, the nearest one that decides wins.  Rules of `.ignore` go
before those of `.gitignore`, and these before the excludes of a repository; the latter two count
only inside a repository and never reach above it.
-/

namespace EndpointPayload

/-- One line of an ignore file. -/
structure IgnoreRule where
  glob : Glob
  keeps : Bool
  directoriesOnly : Bool

namespace IgnoreRule

/-- Drops white space at the end, unless an escaped blank stands there. -/
def trimLine (line : List Char) : List Char :=
  if "\\ ".toList.isSuffixOf line then line
  else Text.trimEnd line

/-- A glob that matches at any depth when it names no directory. -/
def atAnyDepth (absolute : Bool) (text : String) : String :=
  let text :=
    if !absolute && !text.toList.contains '/' && !text.startsWith "**/" then "**/" ++ text else text
  if text.endsWith "/**" then text ++ "/*" else text

/-- The rule of a line; blank lines, comments and bad globs give none. -/
def ofLine? (line : String) : Option IgnoreRule :=
  if line.startsWith "#" then none
  else
    let cs := trimLine line.toList
    if cs.isEmpty then none
    else
      let (keeps, absolute, cs) : Bool × Bool × List Char :=
        match cs with
        | '\\' :: '!' :: r => (false, false, '!' :: r)
        | '\\' :: '#' :: r => (false, false, '#' :: r)
        | '!' :: '/' :: r => (true, true, r)
        | '!' :: r => (true, false, r)
        | '/' :: r => (false, true, r)
        | _ => (false, false, cs)
      let directoriesOnly := cs.getLast? = some '/'
      let cs :=
        if directoriesOnly then
          let shorter := cs.dropLast
          if shorter.getLast? = some '\\' then shorter.dropLast else shorter
        else cs
      (Glob.ofText? false (atAnyDepth absolute (String.ofList cs))).map fun g =>
        ⟨g, keeps, directoriesOnly⟩

/-- The rules of an ignore file's text. -/
def ofText (text : String) : List IgnoreRule :=
  let text := if text.startsWith "\ufeff" then String.ofList (text.toList.drop 1) else text
  (Text.lines text).filterMap ofLine?

/-- What a list of rules decides: ignored, kept, or nothing. -/
def decide? (rules : List IgnoreRule) (path : String) (isDirectory : Bool) : Option Bool :=
  (rules.reverse.find? fun r =>
    r.glob.isMatch path && (!r.directoriesOnly || isDirectory)).map fun r => !r.keeps

end IgnoreRule

/-- The ignore rules that one directory brings. -/
structure IgnoreLevel where
  plain : List IgnoreRule
  git : List IgnoreRule
  exclude : List IgnoreRule
  isRepository : Bool

namespace IgnoreLevel

def rulesAt (directory : Entry) (names : List String) : List IgnoreRule :=
  match directory.at? names with
  | some (.file (some text)) => IgnoreRule.ofText text
  | _ => []

/-- The level of a directory. -/
def ofDirectory (directory : Entry) : IgnoreLevel :=
  { plain := rulesAt directory [".ignore"]
    git := rulesAt directory [".gitignore"]
    exclude := rulesAt directory [".git", "info", "exclude"]
    isRepository := (directory.at? [".git"]).isSome }

/-- The first decision among levels, nearest first; each path is read from its level. -/
def firstDecision (rules : IgnoreLevel → List IgnoreRule) (isDirectory : Bool) :
    List (IgnoreLevel × String) → Option Bool
  | [] => none
  | (l, path) :: rest =>
    match IgnoreRule.decide? (rules l) path isDirectory with
    | some b => some b
    | none => firstDecision rules isDirectory rest

/-- The levels up to the nearest repository. -/
def withinRepository : List (IgnoreLevel × String) → List (IgnoreLevel × String)
  | [] => []
  | (l, path) :: rest => if l.isRepository then [(l, path)] else (l, path) :: withinRepository rest

/-- What all levels decide together. -/
def decide? (levels : List (IgnoreLevel × String)) (isDirectory : Bool) : Option Bool :=
  let own := if levels.any fun l => l.1.isRepository then withinRepository levels else []
  (firstDecision IgnoreLevel.plain isDirectory levels).or
    ((firstDecision IgnoreLevel.git isDirectory own).or
      (firstDecision IgnoreLevel.exclude isDirectory own))

end IgnoreLevel

namespace FileWalk

/-- Levels above an entry with the entry's path from each of them, extended by one more name. -/
def extend (name : String) (levels : List (IgnoreLevel × String)) : List (IgnoreLevel × String) :=
  levels.map fun (l, path) => (l, if path = "" then name else path ++ "/" ++ name)

/-- Whether an entry is passed over: by a rule, or as hidden where no rule speaks. -/
def isSkipped (levels : List (IgnoreLevel × String)) (name : String) (isDirectory : Bool) : Bool :=
  match IgnoreLevel.decide? levels isDirectory with
  | some b => b
  | none => name.startsWith "."

mutual

/-- The paths of the files below an entry, from the start of the walk. -/
def files (levels : List (IgnoreLevel × String)) (path : List String) : Entry → List (List String)
  | .file _ => [path]
  | .directory es =>
    filesIn ((IgnoreLevel.ofDirectory (.directory es), "") :: levels) path es

def filesIn (levels : List (IgnoreLevel × String)) (path : List String) :
    List (String × Entry) → List (List String)
  | [] => []
  | (n, e) :: rest =>
    let here := extend n levels
    (if isSkipped here n e.isDirectory then [] else files here (path ++ [n]) e) ++
      filesIn levels path rest

end

/-- The levels of the directories above a list of names, nearest first, with the path from each. -/
def levelsAbove (tree : Entry) : List String → List (IgnoreLevel × String)
  | [] => []
  | n :: ns =>
    match tree with
    | .directory es =>
      let below :=
        match Entry.child? n es with
        | some e => levelsAbove e ns
        | none => []
      below ++ [(IgnoreLevel.ofDirectory (.directory es), "/".intercalate (n :: ns))]
    | .file _ => []

end FileWalk

/-- The files below a directory that no ignore file hides, as paths from that directory. -/
def FileSystem.visibleFiles (fs : FileSystem) (root : String) : List String :=
  match fs.locate? root with
  | none => []
  | some names =>
    match fs.tree.at? names with
    | some (.directory es) =>
      (FileWalk.files (FileWalk.levelsAbove fs.tree names) [] (.directory es)).map
        fun path => "/".intercalate path
    | _ => []

end EndpointPayload
