import EndpointPayload.CommandLine.Arguments
import EndpointPayload.Settings.Basic

/-!
# Commands

What the program can be asked to do.  `Invocation.read` finds it in the arguments: options that hold
for every command come before the name of the command, its own options and words after it.
-/

namespace EndpointPayload

/-- A route as the user names it. -/
structure RouteArguments where
  method : String := ""
  path : String := ""

structure InferArguments extends RouteArguments where
  all : Bool := false

structure SampleArguments where
  collection : String := ""
  limit : Nat

structure ResolveArguments where
  field : String := ""
  source : Option String := none
  limit : Nat := 5

structure PredictArguments extends RouteArguments where
  preferReal : Option Bool := none
  limitFields : Option Nat := none
  excludeFields : List String := []
  includeFields : List String := []
  snapshot : Bool := false

inductive Command where
  /-- The routes of the project, or of one file. -/
  | routes (file : Option String)
  /-- The code of the handler of a route. -/
  | context (args : RouteArguments)
  /-- The collection behind a route, or every guess. -/
  | infer (args : InferArguments)
  | collections
  /-- Statistics of the fields of a collection. -/
  | schema (args : SampleArguments)
  /-- Documents of a collection. -/
  | sample (args : SampleArguments)
  /-- Ids that a field may hold. -/
  | resolveId (args : ResolveArguments)
  /-- The forecast of a request, or a record of it. -/
  | predict (args : PredictArguments)

namespace Command

def helpName : String := "help"

def names : List String := [
  "routes", "context", "infer", "collections", "schema", "sample", "resolve-id", "predict",
  helpName]

def methodWord {σ : Type} (set : (RouteArguments → RouteArguments) → σ → σ) :
    List (String → σ → σ) := [
  fun v => set fun r => { r with method := v },
  fun v => set fun r => { r with path := v }]

def routesRules : ArgumentRules (Option String) where
  options := [⟨"file", some 'f', .path fun v _ => some v⟩]
  positionals := []
  commands := []

def contextRules : ArgumentRules RouteArguments where
  options := []
  positionals := methodWord id
  commands := []

def inferRules : ArgumentRules InferArguments where
  options := [⟨"all", some 'a', .mark fun a => { a with all := true }⟩]
  positionals := methodWord fun f a => { a with toRouteArguments := f a.toRouteArguments }
  commands := []

def collectionsRules : ArgumentRules Unit := ⟨[], [], []⟩

/-- Rules of a command on some documents of a collection. -/
def sampleRules (long : String) (short : Char) : ArgumentRules SampleArguments where
  options := [⟨long, some short, .count fun n a => { a with limit := n }⟩]
  positionals := [fun v a => { a with collection := v }]
  commands := []

def resolveRules : ArgumentRules ResolveArguments where
  options := [
    ⟨"source", some 's', .text fun v a => { a with source := some v }⟩,
    ⟨"limit", some 'l', .count fun n a => { a with limit := n }⟩]
  positionals := [fun v a => { a with field := v }]
  commands := []

def predictRules : ArgumentRules PredictArguments where
  options := [
    ⟨"prefer-real", none, .truth fun b a => { a with preferReal := some b }⟩,
    ⟨"limit-fields", none, .count fun n a => { a with limitFields := some n }⟩,
    ⟨"exclude", none, .many fun vs a => { a with excludeFields := a.excludeFields ++ vs }⟩,
    ⟨"include", none, .many fun vs a => { a with includeFields := a.includeFields ++ vs }⟩,
    ⟨"snapshot", none, .mark fun a => { a with snapshot := true }⟩]
  positionals := methodWord fun f a => { a with toRouteArguments := f a.toRouteArguments }
  commands := []

/-- What the command for help says; it may be followed by the name of one command. -/
def readHelp : List String → UsageFault
  | [] => .helpAsked
  | [name] => if names.contains name then .helpAsked else .unknownCommand
  | _ => .unknownCommand

/-- The command of a name with its arguments. -/
def read (name : String) (args : List String) : Except UsageFault Command :=
  match name with
  | "routes" => routes <$> routesRules.read none args
  | "context" => context <$> contextRules.read {} args
  | "infer" => infer <$> inferRules.read {} args
  | "collections" => (fun _ => collections) <$> collectionsRules.read () args
  | "schema" => schema <$> (sampleRules "sample-size" 's').read { limit := 20 } args
  | "sample" => sample <$> (sampleRules "limit" 'l').read { limit := 5 } args
  | "resolve-id" => resolveId <$> resolveRules.read {} args
  | "predict" => predict <$> predictRules.read {} args
  | "help" => .error (readHelp args)
  | _ => .error .unknownCommand

end Command

/-- The options that hold for every command. -/
structure GlobalOptions where
  root : String := "."
  config : Option String := none
  storeUri : Option String := none
  database : Option String := none

structure Invocation where
  options : GlobalOptions
  command : Command

namespace Invocation

def globalRules : ArgumentRules GlobalOptions where
  options := [
    ⟨"root", some 'r', .path fun v o => { o with root := v }⟩,
    ⟨"config", some 'c', .path fun v o => { o with config := some v }⟩,
    ⟨"mongodb-uri", none, .text fun v o => { o with storeUri := some v }⟩,
    ⟨"database", none, .text fun v o => { o with database := some v }⟩]
  positionals := []
  commands := Command.names

/-- What the program can be called with. -/
def usage : String :=
  "\n".intercalate ["Options: --root DIR, --config FILE, --mongodb-uri URI, --database NAME",
    "Commands:",
    "  routes [--file FILE]",
    "  context METHOD PATH",
    "  infer METHOD PATH [--all]",
    "  collections",
    "  schema COLLECTION [--sample-size N]",
    "  sample COLLECTION [--limit N]",
    "  resolve-id FIELD [--source COLLECTION] [--limit N]",
    "  predict METHOD PATH [--prefer-real BOOL] [--limit-fields N] [--exclude A,B] " ++
      "[--include A,B] [--snapshot]",
    "  help [COMMAND]"]

/-- What the arguments ask for.  The faults of a command count before those of a global option that
comes right before it. -/
def read (args : List String) : Except UsageFault Invocation := do
  let (p, found) ← globalRules.scan false (.start {}) args
  match found with
  | some (name, rest) =>
    let command ← Command.read name rest
    let p ← p.settle
    .ok ⟨p.state, command⟩
  | none =>
    let p ← p.settle
    .error (if p.seen.isEmpty then .noArguments else .missingCommand)

end Invocation
end EndpointPayload
