import EndpointPayload.Source.Tree
import EndpointPayload.Source.Place
import EndpointPayload.Source.Lexeme

/-!
# Grammar rules and how they read a text

A `Rule` is a parsing expression: choices are ordered, and `guard` commits to a branch by looking
ahead.  `Rule.read` runs a rule at a place, given the rule of each named part, and returns the nodes
it builds.  Left-growing constructs (calls, members) are chains, and binary operators are read by
precedence.
-/

namespace EndpointPayload
namespace Source

/-- What a single step of reading may ask for. -/
inductive Token where
  /-- A punctuation mark, the longest at the place. -/
  | mark (s : String)
  /-- These characters, whatever follows. -/
  | exact (s : String)
  /-- This word. -/
  | word (s : String)
  /-- Any name but these words. -/
  | name (reserved : List String)
  | privateName
  | markupName
  | quoted
  | number
  | regex
  | templateChunk
  | markupText
  | markupQuoted
  | reference
  | hashBang
  | markupComment

namespace Token

/-- Whether blanks before the token belong to it. -/
def isImmediate : Token → Bool
  | templateChunk | markupText => true
  | _ => false

/-- Length of the token at the front of a text. -/
def length? (t : Token) (cs : List Char) : Option Nat :=
  match t with
  | mark s => if marks s cs then some s.length else none
  | exact s => if s.toList.isPrefixOf cs then some s.length else none
  | word s =>
    if s.toList.isPrefixOf cs && nameLength? cs = some s.length then some s.length else none
  | name reserved =>
    (nameLength? cs).bind fun n =>
      if reserved.contains (String.ofList (cs.take n)) then none else some n
  | privateName =>
    match cs with
    | '#' :: r => (nameLength? r).map (· + 1)
    | _ => none
  | markupName => markupNameLength? cs
  | quoted => quotedLength? cs
  | number => numberLength? cs
  | regex => regexLength? cs
  | templateChunk =>
    match chunkRun cs with
    | 0 => none
    | n => some n
  | markupText =>
    match markupTextRun false false cs 0 with
    | 0 => none
    | n => some n
  | markupQuoted => markupQuotedLength? cs
  | reference => referenceLength? cs
  | hashBang =>
    if "#!".toList.isPrefixOf cs then some (cs.takeWhile (· ≠ '\n')).length else none
  | markupComment =>
    if "<!--".toList.isPrefixOf cs || "-->".toList.isPrefixOf cs then
      some (cs.takeWhile fun c => !isBreak c).length
    else none

/-- The start of the token and the place after it. -/
def read (t : Token) (p : Place) : Option (Place × Place) :=
  let q := if t.isImmediate then p else p.advance (blankLength p.rest)
  (t.length? q.rest).map fun n => (q, q.advance n)

end Token

/-- A binary operator: its token, how tightly it binds, and what stands on its right. -/
structure Operator (Part : Type) where
  token : Token
  level : Nat
  kind : Kind
  /-- The operand on the right binds as loosely as the operator itself. -/
  rightFirst : Bool
  /-- The operator does not stand where a semicolon may be left out. -/
  sameStatement : Bool
  /-- The part on the right where it is not an operand. -/
  rightPart : Option Part

/-- A grammar rule over the given named parts. -/
inductive Rule (Part : Type) where
  /-- Reads nothing. -/
  | empty
  | token (t : Token)
  /-- A token that is a node. -/
  | leaf (k : Kind) (t : Token)
  | seq (a b : Rule Part)
  /-- The second rule where the first fails. -/
  | alt (a b : Rule Part)
  | many (a : Rule Part)
  /-- Where the test succeeds, the first rule and no other; else the second. -/
  | guard (test a b : Rule Part)
  /-- Succeeds, reading nothing, where the rule fails. -/
  | absent (a : Rule Part)
  | part (n : Part)
  | node (k : Kind) (a : Rule Part)
  | role (r : Role) (a : Rule Part)
  /-- Keeps a result whose only node is of one of these kinds. -/
  | only (ks : List Kind) (a : Rule Part)
  /-- A base and what may follow it again and again: the kind built, the role of what came before,
  the kinds that may come before (none listed: any), and the part read after it. -/
  | chain (base : Rule Part) (tails : List (Kind × Role × List Kind × Part))
  /-- Operands joined by operators that bind at least this tightly. -/
  | infixed (operand : Part) (ops : List (Operator Part)) (least : Nat)
  /-- A semicolon that is left out. -/
  | omitted (typed afterOperand : Bool)
  /-- The end of the text. -/
  | finish

namespace Rule

variable {Part : Type}

/-- All rules in turn. -/
def all : List (Rule Part) → Rule Part
  | [] => empty
  | [r] => r
  | r :: rs => seq r (all rs)

/-- The first rule that succeeds. -/
def any : List (Rule Part) → Rule Part
  | [] => absent empty
  | [r] => r
  | r :: rs => alt r (any rs)

/-- The rule of the first test that succeeds, or the last rule. -/
def cases : List (Rule Part × Rule Part) → Rule Part → Rule Part
  | [], last => last
  | (t, r) :: rs, last => guard t r (cases rs last)

def opt (a : Rule Part) : Rule Part := alt a empty

/-- Succeeds, reading nothing, where the rule does. -/
def ahead (a : Rule Part) : Rule Part := absent (absent a)

/-- One or more, commas between. -/
def commaList (a : Rule Part) : Rule Part :=
  seq a (many (seq (token (.mark ",")) a))

/-- Any number, commas between, any of them missing. -/
def sparseList (a : Rule Part) : Rule Part :=
  seq (opt a) (many (seq (token (.mark ",")) (opt a)))

/-- One or more, commas between and one allowed at the end. -/
def trailingList (a : Rule Part) : Rule Part :=
  seq (commaList a) (opt (token (.mark ",")))

/-- Any number, commas between and one allowed at the end, even alone. -/
def optionalList (a : Rule Part) : Rule Part :=
  seq (opt (commaList a)) (opt (token (.mark ",")))

/-- The nodes that a rule builds and the place after them. -/
abbrev Reading := Option (List Tree × Place)

/-- The node of a kind over what was read between two places. -/
def build (k : Kind) (p q : Place) (children : List Tree) : Tree :=
  .node ⟨k, .plain, p.textTo q, p.line, q.line⟩ children

mutual

/-- Reads a rule at a place; the first argument bounds the depth of the reading. -/
def read (grammar : Part → Rule Part) : Nat → Rule Part → Place → Reading
  | 0, _, _ => none
  | n + 1, rule, p =>
    match rule with
    | empty => some ([], p)
    | token t => (t.read p).map fun (_, q) => ([], q)
    | leaf k t => (t.read p).map fun (s, q) => ([build k s q []], q)
    | seq a b =>
      match read grammar n a p with
      | none => none
      | some (xs, q) =>
        match read grammar n b q with
        | none => none
        | some (ys, r) => some (xs ++ ys, r)
    | alt a b =>
      match read grammar n a p with
      | some x => some x
      | none => read grammar n b p
    | many a =>
      match read grammar n a p with
      | none => some ([], p)
      | some (xs, q) =>
        if q.offset = p.offset then some (xs, q)
        else
          match read grammar n (many a) q with
          | none => none
          | some (ys, r) => some (xs ++ ys, r)
    | guard t a b => if (read grammar n t p).isSome then read grammar n a p else read grammar n b p
    | absent a => if (read grammar n a p).isSome then none else some ([], p)
    | part m => read grammar n (grammar m) p
    | node k a =>
      let s := p.advance (blankLength p.rest)
      (read grammar n a p).map fun (xs, q) => ([build k s q xs], q)
    | role r a => (read grammar n a p).map fun (xs, q) => (xs.map (Tree.withRole r), q)
    | only ks a =>
      match read grammar n a p with
      | some ([x], q) => if ks.contains x.kind then some ([x], q) else none
      | _ => none
    | chain base tails =>
      match read grammar n base p with
      | some ([x], q) => extend grammar n tails (p.advance (blankLength p.rest)) x q
      | other => other
    | infixed operand ops least =>
      match read grammar n (part operand) p with
      | some ([x], q) => climb grammar n operand ops least (p.advance (blankLength p.rest)) x q
      | other => other
    | omitted typed afterOperand =>
      (omittedSemicolon? typed afterOperand p.rest).map fun k => ([], p.advance k)
    | finish => if (p.rest.drop (blankLength p.rest)).isEmpty then some ([], p) else none

/-- Goes on with a chain whose node so far is `x`, from `s` to `q`. -/
def extend (grammar : Part → Rule Part) :
    Nat → List (Kind × Role × List Kind × Part) → Place → Tree → Place → Reading
  | 0, _, _, _, _ => none
  | n + 1, tails, s, x, q =>
    match tail grammar n tails x q with
    | none => some ([x], q)
    | some (k, r, ys, q') => extend grammar n tails s (build k s q' (x.withRole r :: ys)) q'

/-- The first continuation of a chain that reads. -/
def tail (grammar : Part → Rule Part) :
    Nat → List (Kind × Role × List Kind × Part) → Tree → Place →
      Option (Kind × Role × List Tree × Place)
  | 0, _, _, _ => none
  | _ + 1, [], _, _ => none
  | n + 1, (k, r, lefts, m) :: rest, x, q =>
    if lefts.isEmpty || lefts.contains x.kind then
      match read grammar n (part m) q with
      | some (ys, q') => some (k, r, ys, q')
      | none => tail grammar n rest x q
    else tail grammar n rest x q

/-- Goes on with an expression whose node so far is `x`, from `s` to `q`. -/
def climb (grammar : Part → Rule Part) :
    Nat → Part → List (Operator Part) → Nat → Place → Tree → Place → Reading
  | 0, _, _, _, _, _, _ => none
  | n + 1, operand, ops, least, s, x, q =>
    let at_ := q.advance (blankLength q.rest)
    match ops.find? fun o =>
        least ≤ o.level && (o.token.length? at_.rest).isSome &&
          !(o.sameStatement && offersSemicolon true true q.rest) with
    | none => some ([x], q)
    | some o =>
      match o.token.read q with
      | none => some ([x], q)
      | some (_, q₁) =>
        let right :=
          match o.rightPart with
          | some m => part m
          | none => infixed operand ops (if o.rightFirst then o.level else o.level + 1)
        match read grammar n right q₁ with
        | none => some ([x], q)
        | some (ys, q₂) =>
          climb grammar n operand ops least s
            (build o.kind s q₂ (x.withRole .left :: ys.map (Tree.withRole .right))) q₂

end

/-- Reads a whole text by a part, or gives the line of the first lexeme that fits nowhere. -/
def readAll (grammar : Part → Rule Part) (top : Part) (text : List Char) : Except Nat Tree :=
  match read grammar (600 * (text.length + 2)) (part top) (Place.start text) with
  | some ([t], q) =>
    let left := q.advance (blankLength q.rest)
    if left.rest.isEmpty then .ok t else .error left.line
  | _ => .error 1

end Rule

end Source
end EndpointPayload
