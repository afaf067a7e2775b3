/-!
# Globs

A glob is a pattern over the bytes of a path.  A star stays within one name, two stars between
slashes stand for any directories, a question mark for one byte that is no slash, brackets for one
of some bytes, and braces for one of several patterns.  `Glob.rests` lists what a piece may leave of
a text, and a pattern matches when it can leave nothing.
-/

namespace EndpointPayload

/-- A piece of a glob. -/
inductive GlobPiece where
  | byte (b : UInt8)
  /-- One byte, no slash. -/
  | any
  /-- Bytes without a slash. -/
  | star
  /-- Any directories at the front. -/
  | leading
  /-- A slash and anything after it. -/
  | trailing
  /-- A slash, or one with any directories after it. -/
  | between
  | oneOf (negated : Bool) (ranges : List (Char × Char))

namespace GlobPiece

def slash : UInt8 := 47

/-- Every end of a text, itself first. -/
def ends : List UInt8 → List (List UInt8)
  | [] => [[]]
  | b :: r => (b :: r) :: ends r

/-- What is left after each slash. -/
def afterSlashes : List UInt8 → List (List UInt8)
  | [] => []
  | b :: r => if b = slash then r :: afterSlashes r else afterSlashes r

/-- What is left after some bytes that are no slash. -/
def withinName : List UInt8 → List (List UInt8)
  | [] => [[]]
  | b :: r => if b = slash then [b :: r] else (b :: r) :: withinName r

def inRange (b : UInt8) (r : Char × Char) : Bool :=
  r.1.toNat ≤ b.toNat && b.toNat ≤ r.2.toNat

/-- What a piece may leave of a text. -/
def rests (p : GlobPiece) (s : List UInt8) : List (List UInt8) :=
  match p with
  | byte b =>
    match s with
    | c :: r => if c = b then [r] else []
    | [] => []
  | any =>
    match s with
    | c :: r => if c = slash then [] else [r]
    | [] => []
  | star => withinName s
  | leading => s :: afterSlashes s
  | trailing =>
    match s with
    | c :: r => if c = slash then ends r else []
    | [] => []
  | between =>
    match s with
    | c :: r => if c = slash then r :: afterSlashes r else []
    | [] => []
  | oneOf negated ranges =>
    match s with
    | c :: r => if (ranges.any (inRange c)) != negated then [r] else []
    | [] => []

end GlobPiece

/-- The patterns of a glob, one of which has to match, and whether letter case counts. -/
structure Glob where
  patterns : List (List GlobPiece)
  anyCase : Bool

namespace Glob

/-- Keeps one of the ends of each length. -/
def distinct (ends : List (List UInt8)) : List (List UInt8) :=
  ends.foldl (fun kept s => if kept.any fun t => t.length = s.length then kept else kept ++ [s]) []

/-- What a pattern may leave of a text. -/
def rests (pattern : List GlobPiece) (s : List UInt8) : List (List UInt8) :=
  pattern.foldl (fun texts p => distinct (texts.flatMap p.rests)) [s]

def lowerByte (b : UInt8) : UInt8 := if 65 ≤ b && b ≤ 90 then b + 32 else b

def bytes (s : String) : List UInt8 := s.toUTF8.toList

/-- Whether the whole text matches. -/
def isMatch (g : Glob) (s : String) : Bool :=
  let text := if g.anyCase then (bytes s).map lowerByte else bytes s
  g.patterns.any fun p => (rests p text).any List.isEmpty

/-- What a pattern is read into, before its braces are multiplied out. -/
inductive Token where
  | piece (p : GlobPiece)
  | choice (branches : List (List Token))

/-- The level of braces being read: branches done at the level, and tokens of the branch so far,
last first. -/
structure Level where
  branches : List (List Token)
  tokens : List Token

/-- A class being read: negation, whether it is still empty, whether a range is open, and the ranges
so far, last first. -/
structure Class where
  negated : Bool
  first : Bool
  open_ : Bool
  ranges : List (Char × Char)

/-- Closes a range of a class at a character. -/
def closeRange (c : Char) : List (Char × Char) → Option (List (Char × Char))
  | (a, _) :: rest => if c < a then none else some ((a, c) :: rest)
  | [] => none

/-- The next state of a class, or the finished class. -/
def Class.next? (k : Class) (c : Char) : Option (Class ⊕ GlobPiece) :=
  if c = ']' && !k.first then
    some (.inr (.oneOf k.negated (if k.open_ then ('-', '-') :: k.ranges else k.ranges)))
  else if c = '-' && !k.first && !k.open_ then some (.inl { k with open_ := true })
  else if k.open_ then
    (closeRange c k.ranges).map fun rs => .inl { k with open_ := false, ranges := rs }
  else some (.inl { k with first := false, ranges := (c, c) :: k.ranges })

def literal (c : Char) : List Token := (bytes c.toString).reverse.map fun b => .piece (.byte b)

/-- The tokens with two stars after them that reach over directories. -/
def putStars (isSuffix : Bool) : List Token → List Token
  | .piece .leading :: rest => .piece .leading :: rest
  | .piece .trailing :: rest => .piece .trailing :: rest
  | _ :: rest => .piece (if isSuffix then .trailing else .between) :: rest
  | [] => []

/-- What a star stands for: the tokens with it, the number of characters of the rest that belong to
it, and the last character read.  Two stars reach over directories when a slash or nothing stands on
both sides of them; else they are two stars. -/
def stars (nested : Bool) (before : Option Char) (tokens : List Token) (rest : List Char) :
    List Token × Nat × Char :=
  if rest.head? ≠ some '*' then (.piece .star :: tokens, 0, '*')
  else
    let plain := (.piece .star :: .piece .star :: tokens, 1, '*')
    let next := rest[1]?
    if tokens.isEmpty then
      if next = none then ([.piece .leading], 1, '*')
      else if next = some '/' then ([.piece .leading], 2, '/')
      else plain
    else if before ≠ some '/' then plain
    else if next = none || (nested && (next = some ',' || next = some '}')) then
      (putStars true tokens, 1, '*')
    else if next = some '/' then (putStars false tokens, 2, '/')
    else plain

/-- Reads a pattern: the levels of braces, innermost first, the character before, and the class that
is open. -/
def parse : List Char → List Level → Option Char → Option Class → Option (List Token)
  | [], [l], _, none => some l.tokens.reverse
  | [], _, _, _ => none
  | _ :: _, [], _, _ => none
  | c :: r, l :: ls, before, some k =>
    if k.first && k.ranges.isEmpty && !k.negated && (c = '!' || c = '^') && before = some '[' then
      parse r (l :: ls) (some c) (some { k with negated := true })
    else
      match k.next? c with
      | none => none
      | some (.inl k) => parse r (l :: ls) (some c) (some k)
      | some (.inr p) => parse r ({ l with tokens := .piece p :: l.tokens } :: ls) (some c) none
  | c :: r, l :: ls, before, none =>
    if c = '\\' then
      match r.head? with
      | some d => parse (r.drop 1) ({ l with tokens := literal d ++ l.tokens } :: ls) (some d) none
      | none => none
    else if c = '*' then
      let found := stars (!ls.isEmpty) before l.tokens r
      parse (r.drop found.2.1) ({ l with tokens := found.1 } :: ls) (some found.2.2) none
    else if c = '?' then parse r ({ l with tokens := .piece .any :: l.tokens } :: ls) (some c) none
    else if c = '[' then parse r (l :: ls) (some c) (some ⟨false, true, false, []⟩)
    else if c = '{' then parse r (⟨[], []⟩ :: l :: ls) (some c) none
    else if c = '}' then
      match ls with
      | [] => none
      | m :: ms =>
        let branches := (l.tokens.reverse :: l.branches).reverse
        parse r ({ m with tokens := .choice branches :: m.tokens } :: ms) (some c) none
    else if c = ',' && !ls.isEmpty then
      parse r (⟨l.tokens.reverse :: l.branches, []⟩ :: ls) (some c) none
    else parse r ({ l with tokens := literal c ++ l.tokens } :: ls) (some c) none
  termination_by text => text.length
  decreasing_by all_goals simp only [List.length_cons, List.length_drop]; omega

mutual

/-- The patterns that a list of tokens stands for. -/
def expand : List Token → List (List GlobPiece)
  | [] => [[]]
  | t :: ts => (expandToken t).flatMap fun a => (expand ts).map fun b => a ++ b

/-- Braces without any branch stand for nothing. -/
def expandToken : Token → List (List GlobPiece)
  | .piece p => [[p]]
  | .choice branches =>
    let patterns := expandBranches branches
    if patterns.isEmpty then [[]] else patterns

/-- The patterns of the branches; a blank branch is no branch. -/
def expandBranches : List (List Token) → List (List GlobPiece)
  | [] => []
  | b :: bs =>
    let patterns := expand b
    (if patterns.all List.isEmpty then [] else patterns) ++ expandBranches bs

end

/-- The small letters of the capitals in a range. -/
def lowerRange? (r : Char × Char) : Option (Char × Char) :=
  let first := max r.1.toNat 65
  let last := min r.2.toNat 90
  if first ≤ last then some (Char.ofNat (first + 32), Char.ofNat (last + 32)) else none

/-- A piece for texts in lower case. -/
def lowerPiece : GlobPiece → GlobPiece
  | .byte b => .byte (lowerByte b)
  | .oneOf negated ranges => .oneOf negated (ranges ++ ranges.filterMap lowerRange?)
  | p => p

/-- The glob of a pattern text, unless the text is no pattern. -/
def ofText? (anyCase : Bool) (text : String) : Option Glob :=
  (parse text.toList [⟨[], []⟩] none none).map fun tokens =>
    ⟨(expand tokens).map fun p => if anyCase then p.map lowerPiece else p, anyCase⟩

end Glob
end EndpointPayload
