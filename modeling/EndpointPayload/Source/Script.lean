import EndpointPayload.Failure
import EndpointPayload.Files.System
import EndpointPayload.Source.Grammar.Script
import EndpointPayload.Source.Meaning
import EndpointPayload.Text.Lines

/-!
# Script files

A script is a text with its path, its dialect and its tree.  A file whose text has a syntax error is
no script, so that nothing is ever read from a part of a broken file.
-/

namespace EndpointPayload
namespace Source

/-- A script that was read without an error. -/
structure Script where
  path : String
  text : String
  dialect : Dialect
  tree : Tree

namespace Script

/-- The script of a text. -/
def ofText (path : String) (dialect : Dialect) (text : String) : Except Failure Script :=
  match Tree.ofText dialect text with
  | .ok tree => .ok ⟨path, text, dialect, tree⟩
  | .error line => .error (.syntaxError path line)

/-- The dialect that the name of a file tells. -/
def dialectOf? (path : String) : Option Dialect :=
  (Path.extension? path).bind Dialect.ofExtension?

/-- The script in a file. -/
def read (files : FileSystem) (path : String) : Except Failure Script :=
  match dialectOf? path with
  | none => .error (.unsupportedLanguage path)
  | some dialect =>
    match files.readText? path with
    | none => .error .io
    | some text => ofText path dialect text

/-- The script in a file, if it can be read. -/
def read? (files : FileSystem) (path : String) : Option Script := (read files path).toOption

/-- Every node of the script, a node before its children. -/
def nodes (s : Script) : List Tree := s.tree.preorder

/-- The lines from the first to the last, counted from one. -/
def lineRange (s : Script) (first last : Nat) : String := Text.lineRange s.text first last

end Script

end Source
end EndpointPayload
