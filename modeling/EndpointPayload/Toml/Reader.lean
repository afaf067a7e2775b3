import EndpointPayload.Toml.Document
import EndpointPayload.Toml.Number
import EndpointPayload.Toml.Token
import EndpointPayload.Text.Split

/-!
# Reading a settings file

A file is a list of lines: headers and values under dotted keys.  Lists may go over several lines,
tables in braces may not.  Dates and times are read as marks and words alone.
-/

namespace EndpointPayload
namespace Toml

/-- A reader of something at the front of the tokens. -/
abbrev Reading (α : Type) := List Token → Option (α × List Token)

def skipBlank : List Token → List Token
  | .blank _ :: r => r
  | r => r

/-- The rest after a mark. -/
def after? (c : Char) : List Token → Option (List Token)
  | .mark d :: r => if d = c then some r else none
  | _ => none

/-- The rest after the mark, or all if another token comes first. -/
def skipMark (c : Char) (ts : List Token) : List Token := (after? c ts).getD ts

def word? : Reading String
  | .word s :: r => some (s, r)
  | _ => none

/-- The rest after the end of a line. -/
def lineBreak? : List Token → Option (List Token)
  | [] => some []
  | .newline :: r => some r
  | _ => none

/-- The rest after blanks, a comment and the end of the line. -/
def lineEnd? (ts : List Token) : Option (List Token) :=
  match skipBlank ts with
  | .comment :: r => lineBreak? r
  | r => lineBreak? r

/-- Skips blanks, comments and line breaks. -/
def skipLines : List Token → List Token
  | .blank _ :: r => skipLines r
  | .comment :: r => skipLines r
  | .newline :: r => skipLines r
  | r => r

/-- One part of a key. -/
def name? : Reading String
  | .word s :: r => some (s, r)
  | .text s false :: r => some (s, r)
  | _ => none

/-- The parts of a key after the first, each after a point. -/
def moreNames? : Nat → Reading (List String)
  | 0, ts => some ([], ts)
  | n + 1, ts =>
    match after? '.' (skipBlank ts) with
    | none => some ([], skipBlank ts)
    | some r => do
      let (k, r) ← name? (skipBlank r)
      let (ks, r) ← moreNames? n r
      some (k :: ks, r)

/-- A dotted key and the blanks after it. -/
def key? : Reading (List String) := fun ts => do
  let (k, r) ← name? ts
  let (ks, r) ← moreNames? r.length r
  some (k :: ks, r)

/-- The rest after a word behind a mark, or all where the mark does not come next. -/
def optionalWord? (c : Char) (ts : List Token) : Option (List Token) :=
  match after? c ts with
  | none => some ts
  | some r => (word? r).map Prod.snd

/-- The rest of a date or a time after its first word; `inTime` when a colon has been read. -/
def moment? (inTime : Bool) (ts : List Token) : Option (List Token) :=
  let ts :=
    match ts with
    | .blank s :: .word w :: r => if s = " " then r else .blank s :: .word w :: r
    | r => r
  match if inTime then some ts else after? ':' ts with
  | none => some ts
  | some r => do
    let (_, r) ← word? r
    let r ← after? ':' r
    let (_, r) ← word? r
    let r ← optionalWord? '.' r
    let r ← optionalWord? '+' r
    optionalWord? ':' r

/-- The digits of an exponent that follow its letter in the word, or after a plus. -/
def exponent? (cs : List Char) (ts : List Token) : Option (Int × List Token) :=
  match cs with
  | [] => do
    let (w, r) ← word? (skipMark '+' ts)
    let d ← SignedDigits.read? 10 false true w.toList
    if d.rest.isEmpty then some (d.exponent, r) else none
  | cs => do
    let d ← SignedDigits.read? 10 true true cs
    if d.rest.isEmpty then some (d.exponent, ts) else none

/-- What follows the digits of a number with a point or an exponent. -/
def decimalTail? (head : SignedDigits) (fraction suffix : List Char) : Reading Value :=
  fun ts =>
    match suffix with
    | [] => (decimal? head fraction 0).map fun x => (.decimal x, ts)
    | c :: cs =>
      if c = 'e' || c = 'E' then do
        let (e, r) ← exponent? cs ts
        let x ← decimal? head fraction e
        some (.decimal x, r)
      else none

/-- A number that starts with a word. -/
def number? (w : String) : Reading Value := fun ts =>
  match w.toList with
  | '0' :: 'x' :: cs => (whole? 16 cs).map fun n => (.whole n, ts)
  | '0' :: 'o' :: cs => (whole? 8 cs).map fun n => (.whole n, ts)
  | '0' :: 'b' :: cs => (whole? 2 cs).map fun n => (.whole n, ts)
  | cs =>
    if cs.contains 'e' || cs.contains 'E' then do
      let d ← SignedDigits.read? 10 true false cs
      decimalTail? d [] d.rest ts
    else
      match after? '.' ts with
      | some r => do
        let (w, r) ← word? r
        let d ← SignedDigits.read? 10 true false cs
        if !d.rest.isEmpty then none
        else
          let f ← SignedDigits.read? 10 false true w.toList
          decimalTail? d f.digits f.rest r
      | none =>
        match unboundedWord? w with
        | some x => some (.decimal x, ts)
        | none => (whole? 10 cs).map fun n => (.whole n, ts)

/-- Whether a word starts a date: it holds the letter before a time, or a dash that is no sign. -/
def startsMoment (w : String) : Bool :=
  let cs := w.toList
  cs.contains 'T' || cs.contains 't' ||
    ((cs.drop 1).contains '-' && !Text.occursIn "e-" w && !Text.occursIn "E-" w)

/-- The value of a bare word. -/
def wordValue? (w : String) : Reading Value := fun ts =>
  if w = "true" then some (.truth true, ts)
  else if w = "false" then some (.truth false, ts)
  else if w = "inf" || w = "nan" || w.toList.head?.any (fun c => c = '-' || c.isDigit) then
    if startsMoment w then (moment? false ts).map fun r => (.moment, r)
    else
      match after? ':' ts with
      | some r => (moment? true r).map fun r => (.moment, r)
      | none => number? w ts
  else none

mutual

/-- A value; the number bounds how many steps are taken. -/
def value? : Nat → Reading Value
  | 0, _ => none
  | n + 1, ts =>
    match ts with
    | .text s _ :: r => some (.text s, r)
    | .word w :: r => wordValue? w r
    | .mark '+' :: .word w :: r => number? w r
    | .mark '[' :: r => (items? n r).map fun (vs, r) => (.list vs, r)
    | .mark '{' :: r =>
      match after? '}' (skipBlank r) with
      | some r => some (.table false [], r)
      | none => (fields? n [] (skipBlank r)).map fun (es, r) => (.table false es, r)
    | _ => none

/-- The items of a list up to its closing bracket. -/
def items? : Nat → Reading (List Value)
  | 0, _ => none
  | n + 1, ts =>
    match after? ']' (skipLines ts) with
    | some r => some ([], r)
    | none => do
      let (v, r) ← value? n (skipLines ts)
      match after? ',' (skipLines r) with
      | some r =>
        let (vs, r) ← items? n r
        some (v :: vs, r)
      | none => (after? ']' (skipLines r)).map fun r => ([v], r)

/-- The fields of a table in braces, at least one, up to its closing brace. -/
def fields? : Nat → Entries → Reading Entries
  | 0, _, _ => none
  | n + 1, es, ts => do
    let (k, r) ← key? ts
    let r ← after? '=' r
    let (v, r) ← value? n (skipBlank r)
    let es ← es.add? k v
    match after? '}' (skipBlank r) with
    | some r => some (es, r)
    | none =>
      let r ← after? ',' (skipBlank r)
      fields? n es (skipBlank r)

end

/-- A line that says something. -/
inductive Line where
  | header (path : List String) (isElement : Bool)
  | entry (key : List String) (v : Value)

/-- A header after its first bracket. -/
def header? : Reading Line := fun ts => do
  let isElement := (after? '[' ts).isSome
  let (k, r) ← key? (skipBlank (skipMark '[' ts))
  let r ← after? ']' r
  let r ← if isElement then after? ']' r else some r
  let r ← lineEnd? r
  some (.header k isElement, r)

/-- A value under its key. -/
def entry? : Reading Line := fun ts => do
  let (k, r) ← key? ts
  let r ← after? '=' r
  let r := skipBlank r
  let (v, r) ← value? (2 * r.length + 2) r
  let r ← lineEnd? r
  some (.entry k v, r)

/-- All lines that say something; the number bounds how many there are. -/
def lines? : Nat → List Token → Option (List Line)
  | 0, ts => if (skipLines ts).isEmpty then some [] else none
  | n + 1, ts =>
    match skipLines ts with
    | [] => some []
    | .mark '[' :: r => do
      let (l, r) ← header? r
      let ls ← lines? n r
      some (l :: ls)
    | r => do
      let (l, r) ← entry? r
      let ls ← lines? n r
      some (l :: ls)

/-- Adds a line to a document whose sections are in reverse. -/
def Document.add? (d : Document) : Line → Option Document
  | .header path isElement => some { d with sections := ⟨path, isElement, []⟩ :: d.sections }
  | .entry k v =>
    match d.sections with
    | [] => (d.entries.add? k v).map fun es => { d with entries := es }
    | s :: rest =>
      (s.entries.add? k v).map fun es => { d with sections := { s with entries := es } :: rest }

/-- Reads a whole file. -/
def Document.read? (s : String) : Option Document := do
  let ts ← tokens? s
  let ls ← lines? ts.length ts
  let d ← ls.foldlM Document.add? ⟨[], []⟩
  let d := { d with sections := d.sections.reverse }
  if d.isConsistent then some d else none

end Toml
end EndpointPayload
