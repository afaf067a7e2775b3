import EndpointPayload.Failure
import EndpointPayload.Prediction.Basic
import EndpointPayload.Text.Blank

/-!
# Replies of a model

A reply holds a prediction, often inside a fence of three backticks or between sentences.  Where the
text as a whole is none, the part from the first opening to the last closing brace is tried.
-/

namespace EndpointPayload
namespace Reply

def fence : List Char := ['\x60', '\x60', '\x60']

/-- The text behind the first line; the whole text if it is one line. -/
def behindFirstLine (cs : List Char) : List Char :=
  match cs.dropWhile fun c => c ≠ '\n' with
  | _ :: rest => rest
  | [] => cs

/-- The text before a fence at its end, blanks aside; the whole text if there is none. -/
def beforeFence (cs : List Char) : List Char :=
  let trimmed := Text.trimEnd cs
  if fence.isSuffixOf trimmed then trimmed.take (trimmed.length - fence.length) else cs

/-- The text inside a fence with its language tag, or the text itself, without blanks at its ends.
-/
def unfencedChars (reply : List Char) : List Char :=
  let trimmed := Text.trimEnd (Text.trimStart reply)
  if fence.isPrefixOf trimmed then
    Text.trimEnd (Text.trimStart (beforeFence (behindFirstLine (trimmed.drop fence.length))))
  else trimmed

def unfenced (reply : String) : String := String.ofList (unfencedChars reply.toList)

/-- The text from the first opening brace to the last closing one. -/
def braced? (cs : List Char) : Option (List Char) :=
  let front := cs.dropWhile fun c => c ≠ '\x7b'
  let back := (front.reverse.dropWhile fun c => c ≠ '\x7d').reverse
  if back.isEmpty then none else some back

/-- The prediction in a reply. -/
def prediction (reply : String) : Except Failure Prediction :=
  let body := unfencedChars reply.toList
  match Prediction.read? body with
  | some p => .ok p
  | none =>
    match braced? body with
    | none => .error (.completion "no JSON object in response")
    | some block =>
      match Prediction.read? block with
      | some p => .ok p
      | none => .error .json

end Reply
end EndpointPayload
