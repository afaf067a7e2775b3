/-!
# Dialects of scripts

A script is written in one of three dialects, told apart by the extension of its file.  Types belong
to two of them and markup to two.
-/

namespace EndpointPayload
namespace Source

inductive Dialect where
  | javascript
  | typescript
  | tsx
  deriving DecidableEq, Repr

namespace Dialect

def name : Dialect → String
  | javascript => "javascript"
  | typescript => "typescript"
  | tsx => "tsx"

def ofName? (s : String) : Option Dialect :=
  [javascript, typescript, tsx].find? fun d => d.name = s

/-- Whether the dialect has types. -/
def typed : Dialect → Bool
  | javascript => false
  | _ => true

/-- Whether the dialect has markup. -/
def markup : Dialect → Bool
  | typescript => false
  | _ => true

/-- The dialect of a file extension, letter case aside. -/
def ofExtension? (ext : String) : Option Dialect :=
  let e := ext.map Char.toLower
  if ["js", "jsx", "mjs", "cjs"].contains e then some javascript
  else if ["ts", "mts", "cts"].contains e then some typescript
  else if e = "tsx" then some tsx
  else none

end Dialect

end Source
end EndpointPayload
