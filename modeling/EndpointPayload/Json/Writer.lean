import EndpointPayload.Json.Basic
import EndpointPayload.Decimal.Shortest

/-!
# JSON text

Values in their compact form: no blanks, keys in their order, floats as the shortest decimal that
reads back, with a point or an exponent.  The form for reading has a line for each item, two blanks
deeper than what holds it.
-/

namespace EndpointPayload
namespace Json

/-- A finite float: positional from `1e-5` up to below `1e16`, else with a signed exponent. -/
def floatText (x : Float) : String :=
  let bits := x.toBits.toNat
  let sign := if bits / Nat.pow 2 63 = 1 then "-" else ""
  if bits % Nat.pow 2 63 = 0 then sign ++ "0.0"
  else
    let d := Decimal.shortest (Decimal.Binary.ofFloat x)
    sign ++ (if -5 < d.point && d.point ≤ 16 then d.positional ".0" else d.scientific)

/-- Two hexadecimal digits. -/
def hexByte (n : Nat) : String :=
  String.ofList [(n / 16 % 16).digitChar, (n % 16).digitChar]

def escapeChar (c : Char) : String :=
  match c with
  | '"' => "\\\""
  | '\\' => "\\\\"
  | '\n' => "\\n"
  | '\r' => "\\r"
  | '\t' => "\\t"
  | _ =>
    if c.toNat = 8 then "\\b"
    else if c.toNat = 12 then "\\f"
    else if c.toNat < 0x20 then "\\u00" ++ hexByte c.toNat
    else c.toString

def quote (s : String) : String :=
  "\"" ++ String.join (s.toList.map escapeChar) ++ "\""

/-- A number that is not finite is written as null. -/
def numberText (x : Float) : String :=
  if x.isFinite then floatText x else "null"

mutual

/-- The compact text of a value. -/
def text : Json → String
  | null => "null"
  | bool b => if b then "true" else "false"
  | int n => toString n
  | float x => numberText x
  | str s => quote s
  | arr items => "[" ++ ",".intercalate (itemTexts items) ++ "]"
  | obj fields => "\x7b" ++ ",".intercalate (fieldTexts fields) ++ "\x7d"

def itemTexts : List Json → List String
  | [] => []
  | v :: vs => text v :: itemTexts vs

def fieldTexts : List (String × Json) → List String
  | [] => []
  | (k, v) :: rest => (quote k ++ ":" ++ text v) :: fieldTexts rest

end

/-- Items on lines of their own between brackets. -/
def block (opening closing margin : String) (items : List String) : String :=
  if items.isEmpty then opening ++ closing
  else
    let inner := "\n" ++ margin ++ "  "
    opening ++ inner ++ ("," ++ inner).intercalate items ++ "\n" ++ margin ++ closing

mutual

/-- The text of a value for reading, in lines behind a margin. -/
def prettyAt (margin : String) : Json → String
  | arr items => block "[" "]" margin (prettyItems (margin ++ "  ") items)
  | obj fields => block "\x7b" "\x7d" margin (prettyFields (margin ++ "  ") fields)
  | v => v.text

def prettyItems (margin : String) : List Json → List String
  | [] => []
  | v :: vs => prettyAt margin v :: prettyItems margin vs

def prettyFields (margin : String) : List (String × Json) → List String
  | [] => []
  | (k, v) :: rest => (quote k ++ ": " ++ prettyAt margin v) :: prettyFields margin rest

end

/-- The text of a value for reading. -/
def pretty (v : Json) : String := prettyAt "" v

end Json
end EndpointPayload
