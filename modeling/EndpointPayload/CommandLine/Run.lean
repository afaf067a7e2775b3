import EndpointPayload.CommandLine.Command
import EndpointPayload.Prediction.Prompt
import EndpointPayload.Report.Routes
import EndpointPayload.Route.Workspace
import EndpointPayload.Settings.Reader
import EndpointPayload.Snapshot
import EndpointPayload.Store.Connection

/-!
# Running commands

A run reads the settings, checks them, and only then does what the command asks.  Its result is one
JSON value.
-/

namespace EndpointPayload

/-- What a run finds around it. -/
structure Host where
  files : FileSystem
  environment : Environment
  /-- The text of the current time. -/
  now : String
  /-- Connects to a store, as far as there is one at the address. -/
  connect : DatabaseSettings → Connection
  /-- Asks a model, with the key for it if there is one. -/
  complete : ModelSettings → Option String → Completion

/-- Why a run fails. -/
inductive RunFailure where
  | settings (cause : Failure)
  | failed (cause : Failure)
  | noRoute (verb : Verb) (path root : String)
  /-- The code of the handler is nowhere. -/
  | noHandler (route : Route)
  /-- A size that the command asks for is no word. -/
  | stopped

namespace RunFailure

def message : RunFailure → String
  | settings cause => "invalid configuration: " ++ cause.message
  | failed cause => cause.message
  | noRoute verb path root => "no route " ++ verb.name ++ " " ++ path ++ " under " ++ root
  | noHandler r =>
    "handler '" ++ r.handler ++ "' not found; it is declared at " ++ r.filePath ++ ":" ++
      toString r.line
  | stopped => "attempt to multiply with overflow"

/-- The exit code of a run that fails.  A run that stops does not get to report its failure. -/
def exitCode : RunFailure → UInt32
  | stopped => 101
  | _ => 1

end RunFailure

/-- A project with settings that have been checked. -/
structure Project where
  settings : Settings
  root : String

namespace Project

/-- The settings file of a run. -/
def settingsFile (o : GlobalOptions) : String := o.config.getD (Path.join o.root Settings.fileName)

/-- The settings of a run: the file, the environment, and then the options. -/
def settingsOf (host : Host) (o : GlobalOptions) : Settings :=
  (Settings.load host.files host.environment (settingsFile o)).withStore o.storeUri o.database

/-- Where the sources are.  A root that is given besides a settings file wins over the file. -/
def rootOf (s : Settings) (o : GlobalOptions) : String :=
  if o.config.isSome && !Path.same o.root "." then o.root else s.rootFrom (settingsFile o)

/-- The project of a run, if its settings are fine. -/
def load (host : Host) (o : GlobalOptions) : Except RunFailure Project :=
  let settings := settingsOf host o
  match settings.validate with
  | .ok _ => .ok ⟨settings, rootOf settings o⟩
  | .error e => .error (.settings e)

def workspace (p : Project) (host : Host) : Workspace :=
  Workspace.atPath host.files p.root p.settings.workspace.extraIgnore

/-- The route that the user names, if the project has it. -/
def route? (p : Project) (host : Host) (a : RouteArguments) : Except RunFailure (Option Route) :=
  match (p.workspace host).find? a.method a.path with
  | .ok r => .ok r
  | .error e => .error (.failed e)

/-- The route that the user names. -/
def route (p : Project) (host : Host) (a : RouteArguments) : Except RunFailure Route := do
  match ← p.route? host a with
  | some r => .ok r
  | none =>
    match Verb.read a.method with
    | .ok verb => .error (.noRoute verb a.path p.root)
    | .error e => .error (.failed e)

/-- A route that is not in the project, as far as its name tells. -/
def unknownRoute (p : Project) (a : RouteArguments) : Except RunFailure Route :=
  match Verb.read a.method with
  | .ok verb =>
    .ok {
      verb := verb
      path := RoutePath.normalize a.path
      filePath := p.root
      line := 0
      middlewares := []
      handler := Route.anonymous
      routerPrefix := none
      controllerFile := none
      controllerFunction := none
      inlineSpan := none }
  | .error e => .error (.failed e)

/-- Asks the store of the project. -/
def query {α : Type} (p : Project) (host : Host) (session : Session α) : Except RunFailure α :=
  match (session.run (host.connect p.settings.database).store).1 with
  | some a => .ok a
  | none => .error .stopped

/-- The model of the project. -/
def predictor (p : Project) (host : Host) : Predictor :=
  let model := p.settings.model
  (host.complete model (model.key? host.environment)).predictor

end Project

/-- The wishes for a forecast: those of the settings, then those of the command. -/
def PredictArguments.options (a : PredictArguments) (s : ForecastSettings) : ForecastOptions :=
  let o := s.options
  { o with
    preferRealData := a.preferReal.or o.preferRealData
    limitFields := a.limitFields.or o.limitFields
    excludeFields := o.excludeFields ++ a.excludeFields
    includeFields := o.includeFields ++ a.includeFields }

namespace Project

/-- The forecast that a command asks for. -/
def forecast (p : Project) (host : Host) (context : Option HandlerContext) (route : Route)
    (a : PredictArguments) : Except RunFailure Forecast :=
  let options := a.options p.settings.forecast
  let session := Forecast.ofRoute (p.predictor host) context host.now route options
  match p.query host session with
  | .ok (.ok f) => .ok f
  | .ok (.error e) => .error (.failed e)
  | .error e => .error e

/-- The result of a command. -/
def run (p : Project) (host : Host) : Command → Except RunFailure Json
  | .routes file =>
    let w := p.workspace host
    let routes :=
      match file with
      | some f => w.routesIn f
      | none => w.routes
    .ok (.arr (routes.map Route.json))
  | .context a => do
    let route ← p.route host a
    match HandlerContext.ofRoute? host.files route with
    | some c => .ok c.json
    | none => .error (.noHandler route)
  | .infer a => do
    let route ←
      match ← p.route? host a.toRouteArguments with
      | some r => pure r
      | none => p.unknownRoute a.toRouteArguments
    if a.all then .ok (.arr ((Naming.suggestions route).map Guess.json))
    else .ok (Naming.best route).json
  | .collections => do
    let collections ← p.query host Sampler.collections
    .ok (.arr (collections.map CollectionInfo.json))
  | .schema a => do
    let fields ← p.query host (Sampler.statistics a.collection a.limit)
    .ok (.arr (fields.map FieldStatistics.json))
  | .sample a => do
    let docs ← p.query host (Sampler.documents a.collection a.limit)
    .ok (.arr (docs.map Document.sampleJson))
  | .resolveId a => do
    let resolution ← p.query host (Resolution.ofField a.field a.source a.limit)
    .ok resolution.json
  | .predict a => do
    let route ← p.route host a.toRouteArguments
    let context := HandlerContext.ofRoute? host.files route
    let forecast ← p.forecast host context route a
    if a.snapshot then
      .ok (.obj [
        ("snapshot", (Snapshot.make route context (some forecast)).jsonAt host.now),
        ("payload", .obj forecast.body)])
    else .ok forecast.json

end Project

/-- The environment variables that a run reads. -/
def Invocation.variableNames (i : Invocation) (files : FileSystem) : List String :=
  let settings := Settings.load files (fun _ => none) (Project.settingsFile i.options)
  [Settings.uriVariable, Settings.databaseVariable, settings.model.keyVariable]

/-- Runs what the arguments ask for. -/
def Invocation.run (i : Invocation) (host : Host) : Except RunFailure Json := do
  let project ← Project.load host i.options
  project.run host i.command

end EndpointPayload
