import EndpointPayload.CommandLine.Run
import EndpointPayload.Files.Listing
import EndpointPayload.Json.Reader
import EndpointPayload.Json.Writer
import EndpointPayload.Time.Timestamp
import Std.Time.DateTime.Timestamp

/-!
# The program

The files of the project come on standard input, as a JSON object from paths below the working
directory to texts.  The result goes to standard output as JSON.  There is no client for a store or
for a model here, so every command runs without them.
-/

namespace EndpointPayload

/-- The text of the current time. -/
def currentTime : IO String := do
  let now ← Std.Time.Timestamp.now
  let time := Timestamp.ofMilliseconds? now.toMillisecondsSinceUnixEpoch.val
  return (time.map Timestamp.text).getD ""

/-- The values of some variables of the environment. -/
def readEnvironment (names : List String) : IO Environment := do
  let values ← names.mapM fun n => do return (n, ← IO.getEnv n)
  return fun name => (values.lookup name).join

/-- The project on standard input and the rest of what a run finds. -/
def readHost (i : Invocation) : IO Host := do
  let input ← (← IO.getStdin).readToEnd
  let here := (← IO.getEnv "PWD").getD "/"
  let files := FileSystem.ofJson here ((Json.read? input).getD .null)
  return {
    files := files
    environment := ← readEnvironment (i.variableNames files)
    now := ← currentTime
    connect := fun d => ⟨d.uri, none⟩
    complete := fun _ _ _ => .error (.completion "no client") }

/-- Reads the arguments, runs the command and prints what comes of it. -/
def runProgram (args : List String) : IO UInt32 := do
  match Invocation.read args with
  | .error fault =>
    if fault = .helpAsked then IO.println Invocation.usage
    else IO.eprintln ("error: " ++ fault.message ++ "\n\n" ++ Invocation.usage)
    return fault.exitCode
  | .ok invocation =>
    match invocation.run (← readHost invocation) with
    | .ok result =>
      IO.println result.pretty
      return 0
    | .error e =>
      IO.eprintln ("Error: " ++ e.message)
      return e.exitCode

end EndpointPayload

def main (args : List String) : IO UInt32 := EndpointPayload.runProgram args
