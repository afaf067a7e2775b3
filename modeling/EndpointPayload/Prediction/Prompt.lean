import EndpointPayload.Prediction.Reply

/-!
# Prompts

The question that a model is asked about a route, and the predictor that asks it once and reads the
reply.
-/

namespace EndpointPayload
namespace Prompt

/-- The shape of the answer. -/
def answerShape : List String := [
  "\x7b",
  "  \"fields\": [",
  "    \x7b \"name\": \"string\", " ++
    "\"type\": \"string|number|boolean|object|array|ObjectId|Date\", " ++
    "\"required\": true, \"example\": \"any\", \"description\": \"string\" \x7d",
  "  ],",
  "  \"headers\": [",
  "    \x7b \"name\": \"string\", \"value\": \"string\", \"description\": \"string\", " ++
    "\"required\": true \x7d",
  "  ]",
  "\x7d"]

def fence : String := String.ofList Reply.fence

/-- The lines about the route. -/
def aboutRoute (r : Route) : List String :=
  ["Method: " ++ r.verb.name, "Path: " ++ r.path] ++
    (if r.middlewares.isEmpty then [] else ["Middlewares: " ++ ", ".intercalate r.middlewares]) ++
    ["Handler: " ++ r.handler]

/-- The lines about the handler. -/
def aboutHandler (context : Option HandlerContext) : List String :=
  match context with
  | some c =>
    (if c.bodyFields.isEmpty then []
      else ["Fields read from the request body: " ++ ", ".intercalate c.bodyFields]) ++
    ["", "Handler source (" ++ c.functionName ++ "):", fence, c.code, fence]
  | none => ["", "The handler source is not available; infer from the route alone."]

/-- The question about a route. -/
def ofRoute (r : Route) (context : Option HandlerContext) : String :=
  "\n".intercalate (
    ["You are analysing an Express-style HTTP endpoint. " ++
      "Predict the JSON request body a client must send.", ""] ++
    aboutRoute r ++ aboutHandler context ++
    ["", "Include headers the endpoint needs " ++
      "(for example Authorization when auth middleware is present).",
      "Answer with JSON only, in exactly this shape:"] ++
    answerShape)

end Prompt

/-- What answers a prompt, or fails. -/
abbrev Completion := String → Except Failure String

/-- Asks a model once; a failing model or a reply that cannot be read predicts nothing. -/
def Completion.predictor (complete : Completion) : Predictor := fun route context =>
  match complete (Prompt.ofRoute route context) with
  | .ok reply => (Reply.prediction reply).toOption
  | .error _ => none

end EndpointPayload
