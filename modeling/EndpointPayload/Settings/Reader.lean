import EndpointPayload.Files.System
import EndpointPayload.Settings.Basic
import EndpointPayload.Toml.Reader

/-!
# Reading settings

Settings come in four groups of named fields.  A group may also be a list of its fields in order.
What is not named keeps its usual value and unknown names do not count.  A file with any fault, also
a value of the wrong kind, counts as no file.
-/

namespace EndpointPayload

namespace Toml.Value

def text? : Value → Option String
  | text s => some s
  | _ => none

def texts? : Value → Option (List String)
  | list vs => vs.mapM text?
  | _ => none

def count? : Value → Option Nat
  | whole (.ofNat n) => some n
  | _ => none

def truth? : Value → Option Bool
  | truth b => some b
  | _ => none

/-- A number as the nearest single. -/
def single? : Value → Option Float32
  | decimal x => some x.toFloat32
  | whole n => some (Float32.ofInt n)
  | _ => none

end Toml.Value

/-- A group of fields as a file gives it. -/
inductive SettingsGroup where
  | named (entries : Toml.Entries)
  | listed (fields : List String) (values : List Toml.Value)

namespace SettingsGroup

/-- The value that a group gives to a field. -/
def value? : SettingsGroup → String → Option Toml.Value
  | named es, field => es.find? field
  | listed fields vs, field => vs[fields.idxOf field]?

/-- Named fields, unless a known one comes twice. -/
def ofEntries? (fields : List String) (es : Toml.Entries) : Option SettingsGroup :=
  if fields.all fun f => (es.filter fun e => e.1 = f).length ≤ 1 then some (named es) else none

/-- The group of a name in a document. -/
def find? (fields : List String) (name : String) (d : Toml.Document) : Option SettingsGroup :=
  let sections := d.sections.filter fun s => s.path.head? = some name
  match d.entries.filter (fun e => e.1 = name), sections with
  | [], _ =>
    if sections.any fun s => s.isElement && s.path.length = 1 then none
    else if sections.any fun s => (s.path.drop 1).head?.any fields.contains then none
    else
      ofEntries? fields ((sections.filter fun s => s.path.length = 1).flatMap Toml.Section.entries)
  | [(_, .table _ es)], [] => ofEntries? fields es
  | [(_, .list vs)], [] => if vs.length ≤ fields.length then some (listed fields vs) else none
  | _, _ => none

/-- The value of a field, or the usual one where the group has none. -/
def read? {α : Type} (g : SettingsGroup) (of? : Toml.Value → Option α) (field : String)
    (usual : α) : Option α :=
  match g.value? field with
  | none => some usual
  | some v => of? v

end SettingsGroup

open Toml.Value

def WorkspaceSettings.ofDocument? (d : Toml.Document) : Option WorkspaceSettings := do
  let g ← SettingsGroup.find? ["root", "extra_ignore"] "workspace" d
  let usual : WorkspaceSettings := {}
  return {
    root := ← g.read? text? "root" usual.root
    extraIgnore := ← g.read? texts? "extra_ignore" usual.extraIgnore }

def DatabaseSettings.ofDocument? (d : Toml.Document) : Option DatabaseSettings := do
  let g ← SettingsGroup.find? ["uri", "database", "timeout_ms"] "database" d
  let usual : DatabaseSettings := {}
  return {
    uri := ← g.read? text? "uri" usual.uri
    database := ← g.read? (fun v => (text? v).map some) "database" usual.database
    timeoutMillis := ← g.read? count? "timeout_ms" usual.timeoutMillis }

def ModelSettings.ofDocument? (d : Toml.Document) : Option ModelSettings := do
  let fields := ["endpoint", "model", "api_key_env", "timeout_secs", "temperature"]
  let g ← SettingsGroup.find? fields "llm" d
  let usual : ModelSettings := {}
  return {
    endpoint := ← g.read? text? "endpoint" usual.endpoint
    model := ← g.read? text? "model" usual.model
    keyVariable := ← g.read? text? "api_key_env" usual.keyVariable
    timeoutSeconds := ← g.read? count? "timeout_secs" usual.timeoutSeconds
    temperature := ← g.read? single? "temperature" usual.temperature }

def ForecastSettings.ofDocument? (d : Toml.Document) : Option ForecastSettings := do
  let fields :=
    ["sample_size", "prefer_real_data", "limit_fields", "exclude_fields", "include_fields"]
  let g ← SettingsGroup.find? fields "prediction" d
  let usual : ForecastSettings := {}
  return {
    sampleSize := ← g.read? count? "sample_size" usual.sampleSize
    preferRealData :=
      ← g.read? (fun v => (truth? v).map some) "prefer_real_data" usual.preferRealData
    limitFields := ← g.read? (fun v => (count? v).map some) "limit_fields" usual.limitFields
    excludeFields := ← g.read? texts? "exclude_fields" usual.excludeFields
    includeFields := ← g.read? texts? "include_fields" usual.includeFields }

namespace Settings

def ofDocument? (d : Toml.Document) : Option Settings := do
  return {
    workspace := ← WorkspaceSettings.ofDocument? d
    database := ← DatabaseSettings.ofDocument? d
    model := ← ModelSettings.ofDocument? d
    forecast := ← ForecastSettings.ofDocument? d }

/-- The settings of a text, if it has no fault. -/
def read? (text : String) : Option Settings := (Toml.Document.read? text).bind ofDocument?

/-- The settings of a file and the environment. -/
def load (fs : FileSystem) (env : Environment) (file : String) : Settings :=
  (((fs.readText? file).bind read?).getD {}).withEnvironment env

end Settings
end EndpointPayload
