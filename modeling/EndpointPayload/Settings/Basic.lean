import EndpointPayload.Decimal.Shortest
import EndpointPayload.Failure
import EndpointPayload.Files.Path
import EndpointPayload.Forecast.Options
import EndpointPayload.Text.Blank

/-!
# Settings

What a run can be told: where the sources are, where the store is, which model completes prompts and
how forecasts are made.  `Settings.validate` refuses values that no run can work with.
-/

namespace EndpointPayload

/-- The values of environment variables. -/
abbrev Environment := String → Option String

structure WorkspaceSettings where
  root : String := "."
  /-- Names of directories to skip besides the usual ones. -/
  extraIgnore : List String := []

structure DatabaseSettings where
  uri : String := "mongodb://localhost:27017"
  database : Option String := none
  timeoutMillis : Nat := 5000

structure ModelSettings where
  endpoint : String := "https://api.openai.com/v1/chat/completions"
  model : String := "gpt-4o-mini"
  /-- The environment variable that holds the key. -/
  keyVariable : String := "OPENAI_API_KEY"
  timeoutSeconds : Nat := 60
  temperature : Float32 := 0.2

structure ForecastSettings where
  sampleSize : Nat := ForecastOptions.defaultSampleSize
  preferRealData : Option Bool := none
  limitFields : Option Nat := none
  excludeFields : List String := []
  includeFields : List String := []

structure Settings where
  workspace : WorkspaceSettings := {}
  database : DatabaseSettings := {}
  model : ModelSettings := {}
  forecast : ForecastSettings := {}

/-- The text, unless it is blank. -/
def unlessBlank (s : Option String) : Option String := s.filter fun s => Text.trim s ≠ ""

/-- The number in the fewest digits that read back, without an exponent; a whole one without a
point. -/
def temperatureText (x : Float32) : String :=
  if x.isNaN then "NaN"
  else
    let bits := x.toBits.toNat
    let size :=
      if bits % Nat.pow 2 31 = 0 then "0"
      else if x.isInf then "inf"
      else (Decimal.shortest (Decimal.Binary.ofFloat32 x)).positional ""
    if Nat.pow 2 31 ≤ bits then "-" ++ size else size

/-- The key for the model, if its variable holds one. -/
def ModelSettings.key? (m : ModelSettings) (env : Environment) : Option String :=
  unlessBlank (env m.keyVariable)

/-- The wishes for a forecast that the settings state. -/
def ForecastSettings.options (f : ForecastSettings) : ForecastOptions where
  preferRealData := f.preferRealData
  limitFields := f.limitFields
  excludeFields := f.excludeFields
  includeFields := f.includeFields
  sampleSize := f.sampleSize

namespace Settings

/-- The name of a settings file. -/
def fileName : String := "routelens.toml"

def uriVariable : String := "ROUTELENS_MONGODB_URI"
def databaseVariable : String := "ROUTELENS_MONGODB_DATABASE"

/-- The settings with another store, where one is given that is not blank. -/
def withStore (s : Settings) (uri database : Option String) : Settings :=
  { s with
    database :=
      { s.database with
        uri := (unlessBlank uri).getD s.database.uri
        database := (unlessBlank database).or s.database.database } }

/-- The settings with the store that the environment names. -/
def withEnvironment (s : Settings) (env : Environment) : Settings :=
  s.withStore (env uriVariable) (env databaseVariable)

/-- Refuses settings that no run can work with. -/
def validate (s : Settings) : Except Failure Unit :=
  if s.forecast.sampleSize = 0 then .error (.config "prediction.sample_size must be at least 1")
  else if s.forecast.limitFields = some 0 then
    .error (.config "prediction.limit_fields must be at least 1")
  else if s.database.timeoutMillis = 0 then .error (.config "database.timeout_ms must be positive")
  else if Text.trim s.database.uri = "" then .error (.config "database.uri is empty")
  else if 0.0 ≤ s.model.temperature && s.model.temperature ≤ 2.0 then .ok ()
  else
    .error (.config
      ("llm.temperature " ++ temperatureText s.model.temperature ++ " is outside 0.0..=2.0"))

/-- The directory of the sources, as seen from where the settings file is. -/
def rootFrom (s : Settings) (file : String) : String :=
  Path.join ((Path.parent? file).getD file) s.workspace.root

end Settings
end EndpointPayload
