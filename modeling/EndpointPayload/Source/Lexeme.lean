/-!
# Lexemes of scripts

Each reader here looks at the front of a text and says how many characters the lexeme there has, if
there is one.  `blankLength` measures the blanks and comments between lexemes, and
`offersSemicolon` decides where the end of a line stands for a semicolon.
-/

namespace EndpointPayload
namespace Source

/-! ## Character classes -/

/-- Blanks between lexemes: the white space of scripts, wider than that of ASCII. -/
def isBlank (c : Char) : Bool :=
  let n := c.toNat
  (9 ≤ n && n ≤ 13) || n = 0x20 || n = 0xA0 || n = 0x1680 || (0x2000 ≤ n && n ≤ 0x200B) ||
    n = 0x2028 || n = 0x2029 || n = 0x202F || n = 0x205F || n = 0x2060 || n = 0x3000 || n = 0xFEFF

/-- The white space of ASCII. -/
def isAsciiSpace (c : Char) : Bool :=
  let n := c.toNat
  (9 ≤ n && n ≤ 13) || n = 0x20

/-- Line feed and the two Unicode separators. -/
def isBreak (c : Char) : Bool :=
  c = '\n' || c.toNat = 0x2028 || c.toNat = 0x2029

/-- Where a comment to the end of the line stops. -/
def endsLine (c : Char) : Bool := isBreak c || c = '\r'

/-- The characters of names, digits included; an escape is read apart. -/
def isNamePart (c : Char) : Bool :=
  !(c.toNat < 0x20 || isBlank c || ":;`\"'@#.,|^&<=>+-*/\\%?!~()[]\x7b\x7d".toList.contains c)

def isNameStart (c : Char) : Bool := isNamePart c && !c.isDigit

def isHex (c : Char) : Bool := c.isDigit || ('a' ≤ c && c ≤ 'f') || ('A' ≤ c && c ≤ 'F')

/-! ## Blanks and comments -/

/-- Whether a block comment opened before this text is closed in it. -/
def closesComment : List Char → Bool
  | [] => false
  | [_] => false
  | '*' :: '/' :: _ => true
  | _ :: r => closesComment r

/-- Where a scan over blanks stands: between comments, in a line comment, in a block comment. -/
inductive Within where
  | gap
  | line
  | block

/-- Length of the blanks and comments at the front of a text. -/
def blankRun : Within → List Char → Nat
  | .gap, '/' :: '/' :: r => blankRun .line r + 2
  | .gap, '/' :: '*' :: r => if closesComment r then blankRun .block r + 2 else 0
  | .gap, c :: r => if isBlank c then blankRun .gap r + 1 else 0
  | .line, c :: r => if endsLine c then blankRun .gap r + 1 else blankRun .line r + 1
  | .block, '*' :: '/' :: r => blankRun .gap r + 2
  | .block, _ :: r => blankRun .block r + 1
  | _, [] => 0

def blankLength (cs : List Char) : Nat := blankRun .gap cs

/-- Length of the blanks and the first comment at the front of a text. -/
def commentRun : Within → List Char → Option Nat
  | .gap, '/' :: '/' :: r => (commentRun .line r).map (· + 2)
  | .gap, '/' :: '*' :: r => if closesComment r then (commentRun .block r).map (· + 2) else none
  | .gap, c :: r => if isBlank c then (commentRun .gap r).map (· + 1) else none
  | .line, c :: r => if endsLine c then some 0 else (commentRun .line r).map (· + 1)
  | .block, '*' :: '/' :: _ => some 2
  | .block, _ :: r => (commentRun .block r).map (· + 1)
  | .gap, [] => none
  | .line, [] => some 0
  | .block, [] => none

/-! ## Semicolons left out -/

/-- What a scan over white space and comments finds: a lone slash, a text after the scan, or the
text after a block comment that kept to one line. -/
inductive Gap where
  | refused
  | reached (rest : List Char)
  | sameLine (rest : List Char)

/-- Scans white space and comments; unless `through`, it stops after the first block comment that no
slash follows. -/
def scanGap (through : Bool) : Within → Bool → List Char → Gap
  | .gap, b, '/' :: '/' :: r => scanGap through .line b r
  | .gap, b, '/' :: '*' :: r => scanGap through .block b r
  | .gap, _, '/' :: _ => .refused
  | .gap, b, c :: r => if isAsciiSpace c then scanGap through .gap b r else .reached (c :: r)
  | .line, b, c :: r =>
    if c = '\n' then scanGap through .gap b r
    else if isBreak c then .reached (c :: r)
    else scanGap through .line b r
  | .block, b, '*' :: '/' :: r =>
    if through || r.head? = some '/' then scanGap through .gap b r
    else if b then .reached r
    else .sameLine r
  | .block, b, c :: r => scanGap through .block (b || isBreak c) r
  | _, _, [] => .reached []

/-- After an `i`: whether a new statement may start here, so that this is neither of the operators
`in` and `instanceof`. -/
def startsAfterI : List Char → Bool
  | 'n' :: r =>
    match r with
    | [] => false
    | c :: _ =>
      if !c.isAlpha then false
      else if "stanceof".toList.isPrefixOf r then
        match r.drop 8 with
        | [] => false
        | d :: _ => d.isAlpha
      else true
  | _ => true

/-- Whether the text after a line break starts a statement of its own and does not go on with the
operand before. -/
def startsStatement (typed afterOperand : Bool) : List Char → Bool
  | [] => true
  | c :: r =>
    if "`,:;*%><=?^|&/".toList.contains c then false
    else if c = '(' || c = '[' then typed && !afterOperand
    else if c = '.' then !typed && (r.head?.map Char.isDigit).getD false
    else if c = '+' || c = '-' then r.head? = some c
    else if c = '!' then r.head? ≠ some '='
    else if c = 'i' then startsAfterI r
    else true

/-- Whether a semicolon may be left out at the front of this text: at its end, before a closing
brace, and at a line break after which a statement starts.  Where no operand came before, a comment
over a line break counts as one. -/
def offersSemicolonIn (typed afterOperand : Bool) : Nat → List Char → Bool
  | 0, _ => false
  | _ + 1, [] => true
  | n + 1, c :: r =>
    if c = '/' && !typed then
      match scanGap false .gap false (c :: r) with
      | .refused => false
      | .sameLine rest => offersSemicolonIn typed afterOperand n rest
      | .reached rest =>
        if !afterOperand && rest.head? ≠ some ',' && rest.head? ≠ some '=' then true
        else offersSemicolonIn typed afterOperand n rest
    else if c = '}' then
      if typed && (r.dropWhile isAsciiSpace).head? = some ':' then afterOperand else true
    else if isBreak c then
      match scanGap true .gap false r with
      | .refused => false
      | .sameLine rest => startsStatement typed afterOperand rest
      | .reached rest => startsStatement typed afterOperand rest
    else if isAsciiSpace c then offersSemicolonIn typed afterOperand n r
    else false

def offersSemicolon (typed afterOperand : Bool) (cs : List Char) : Bool :=
  offersSemicolonIn typed afterOperand (cs.length + 1) cs

/-- Number of characters of comments after which a semicolon may be left out, if anywhere. -/
def omittedSemicolonIn (typed afterOperand : Bool) : Nat → List Char → Option Nat
  | 0, _ => none
  | n + 1, cs =>
    if offersSemicolon typed afterOperand cs then some 0
    else
      match commentRun .gap cs with
      | none => none
      | some k => (omittedSemicolonIn typed afterOperand n (cs.drop k)).map (· + k)

def omittedSemicolon? (typed afterOperand : Bool) (cs : List Char) : Option Nat :=
  omittedSemicolonIn typed afterOperand (cs.length + 1) cs

/-! ## Names -/

/-- Length of the Unicode escape at the front of a text. -/
def unicodeEscape? : List Char → Option Nat
  | '\\' :: 'u' :: '{' :: r =>
    let digits := r.takeWhile isHex
    if digits.isEmpty || (r.drop digits.length).head? ≠ some '}' then none
    else some (digits.length + 4)
  | '\\' :: 'u' :: a :: b :: c :: d :: _ =>
    if isHex a && isHex b && isHex c && isHex d then some 6 else none
  | _ => none

/-- Length of the run of name characters and escapes at the front; `n` bounds the characters read.
-/
def nameRun : Nat → List Char → Nat
  | 0, _ => 0
  | _ + 1, [] => 0
  | n + 1, c :: r =>
    if isNamePart c then nameRun n r + 1
    else
      match unicodeEscape? (c :: r) with
      | none => 0
      | some k => nameRun n ((c :: r).drop k) + k

/-- Length of the name at the front of a text. -/
def nameLength? (cs : List Char) : Option Nat :=
  match cs with
  | [] => none
  | c :: r =>
    if isNameStart c then some (nameRun r.length r + 1)
    else
      match unicodeEscape? cs with
      | none => none
      | some k => some (nameRun r.length (cs.drop k) + k)

/-- Length of the name at the front of a text when hyphens may join its parts. -/
def markupNameLength? (cs : List Char) : Option Nat :=
  let plain (c : Char) := c.isAlphanum || c = '_' || c = '$'
  let hyphenated :=
    match cs with
    | c :: _ =>
      if plain c && !c.isDigit then
        let head := cs.takeWhile plain
        if (cs.drop head.length).head? = some '-' then
          some (cs.takeWhile fun d => plain d || d = '-').length
        else none
      else none
    | [] => none
  match hyphenated, nameLength? cs with
  | some a, some b => some (max a b)
  | some a, none => some a
  | none, b => b

/-! ## Numbers -/

/-- Length of further digits, each of which a single underscore may precede. -/
def digitTail (ok : Char → Bool) : List Char → Nat
  | '_' :: c :: r => if ok c then digitTail ok r + 2 else 0
  | c :: r => if ok c then digitTail ok r + 1 else 0
  | [] => 0

def digits? (ok : Char → Bool) : List Char → Option Nat
  | c :: r => if ok c then some (digitTail ok r + 1) else none
  | [] => none

/-- Length of a whole number that a point or an exponent may follow. -/
def wholeNumber? : List Char → Option Nat
  | '0' :: c :: r => if c ≠ '0' && c.isDigit then some (digitTail Char.isDigit r + 2) else some 1
  | ['0'] => some 1
  | c :: r => if c ≠ '0' && c.isDigit then some (digitTail Char.isDigit r + 1) else none
  | [] => none

def exponent? : List Char → Option Nat
  | e :: r =>
    if e = 'e' || e = 'E' then
      match r with
      | s :: t =>
        if s = '+' || s = '-' then (digits? Char.isDigit t).map (· + 2)
        else (digits? Char.isDigit r).map (· + 1)
      | [] => none
    else none
  | [] => none

/-- A reader followed by another that may be absent. -/
def thenMaybe (a b : List Char → Option Nat) (cs : List Char) : Option Nat :=
  (a cs).map fun n => n + (b (cs.drop n)).getD 0

/-- A reader followed by another. -/
def thenAlso (a b : List Char → Option Nat) (cs : List Char) : Option Nat :=
  (a cs).bind fun n => (b (cs.drop n)).map (· + n)

def charLength? (ok : Char → Bool) : List Char → Option Nat
  | c :: _ => if ok c then some 1 else none
  | [] => none

/-- Digits after a zero and the letter of their base. -/
def basedNumber? (letter : Char) (ok : Char → Bool) : List Char → Option Nat :=
  thenAlso (charLength? (· = '0')) <|
    thenAlso (charLength? fun c => c.toLower = letter) (digits? ok)

/-- The longest number at the front of a text. -/
def numberLength? (cs : List Char) : Option Nat :=
  let big := charLength? (· = 'n')
  let point := charLength? (· = '.')
  let fraction := thenMaybe point (digits? Char.isDigit)
  let forms : List (List Char → Option Nat) :=
    [ thenMaybe (thenAlso wholeNumber? fraction) exponent?,
      thenMaybe (thenAlso point (digits? Char.isDigit)) exponent?,
      thenAlso wholeNumber? exponent?,
      thenMaybe (digits? Char.isDigit) big,
      thenMaybe (basedNumber? 'x' isHex) big,
      thenMaybe (basedNumber? 'o' fun c => '0' ≤ c && c ≤ '7') big,
      thenMaybe (basedNumber? 'b' fun c => c = '0' || c = '1') big ]
  (forms.filterMap fun f => f cs).max?

/-! ## Quoted texts -/

/-- Whether an escape goes on rightly after its backslash. -/
def escapeIsSound : List Char → Bool
  | 'x' :: r => (r.take 2).length = 2 && (r.take 2).all isHex
  | 'u' :: r => (unicodeEscape? ('\\' :: 'u' :: r)).isSome
  | _ :: _ => true
  | [] => false

/-- Length of a quoted text after its opening quote, the closing quote included. -/
def quotedTail (quote : Char) : List Char → Option Nat
  | [] => none
  | '\\' :: '\r' :: '\n' :: r => (quotedTail quote r).map (· + 3)
  | '\\' :: c :: r =>
    if escapeIsSound (c :: r) then (quotedTail quote r).map (· + 2) else none
  | c :: r =>
    if c = quote then some 1
    else if c = '\n' || c = '\r' || c = '\\' then none
    else (quotedTail quote r).map (· + 1)

/-- Length of the quoted text at the front. -/
def quotedLength? : List Char → Option Nat
  | c :: r => if c = '"' || c = '\'' then (quotedTail c r).map (· + 1) else none
  | [] => none

/-- The mark around templates. -/
def backquote : Char := Char.ofNat 0x60

/-- Length of the characters of a template before its end, a substitution or a bad escape. -/
def chunkRun : List Char → Nat
  | [] => 0
  | '\\' :: '\r' :: '\n' :: r => chunkRun r + 3
  | '\\' :: c :: r => if escapeIsSound (c :: r) then chunkRun r + 2 else 0
  | '$' :: '{' :: _ => 0
  | c :: r => if c = backquote || c = '\\' then 0 else chunkRun r + 1

/-- Length of a regular expression after its opening slash, flags apart. -/
def regexTail (inClass : Bool) : List Char → Option Nat
  | [] => none
  | '\\' :: c :: r => if c = '\n' then none else (regexTail inClass r).map (· + 2)
  | c :: r =>
    if c = '\n' || c = '\\' then none
    else if inClass then (regexTail (c ≠ ']') r).map (· + 1)
    else if c = '/' then some 1
    else (regexTail (c = '[') r).map (· + 1)

/-- Length of the regular expression at the front, with its flags. -/
def regexLength? : List Char → Option Nat
  | '/' :: r =>
    match regexTail false r with
    | some n =>
      if n = 1 then none
      else some (n + 1 + ((r.drop n).takeWhile fun c => 'a' ≤ c && c ≤ 'z').length)
    | none => none
  | _ => none

/-! ## Markup -/

/-- Length of a character reference such as `&amp;`. -/
def referenceLength? : List Char → Option Nat
  | '&' :: r =>
    let closed (body : List Char) (lead most : Nat) : Option Nat :=
      if body.isEmpty || most < body.length then none
      else if (r.drop (lead + body.length)).head? = some ';' then some (lead + body.length + 2)
      else none
    match r with
    | '#' :: x :: r' =>
      if x = 'x' || x = 'X' then closed (r'.takeWhile isHex) 2 6
      else closed ((x :: r').takeWhile Char.isDigit) 1 5
    | _ => closed (r.takeWhile Char.isAlpha) 0 30
  | _ => none

/-- Length of the text of an element, `0` when it is only line breaks and the blanks after them. -/
def markupTextRun (sawText atBreak : Bool) : List Char → Nat → Nat
  | [], n => if sawText then n else 0
  | c :: r, n =>
    if "<>\x7b\x7d&".toList.contains c then (if sawText then n else 0)
    else if c = '\n' then markupTextRun sawText true r (n + 1)
    else
      let atBreak := atBreak && isAsciiSpace c
      markupTextRun (sawText || !atBreak) atBreak r (n + 1)

/-- Length of a quoted attribute value after its opening quote. -/
def markupQuotedTail (quote : Char) : List Char → Option Nat
  | [] => none
  | '&' :: c :: r =>
    if c = '#' || c.isAlpha then
      if (referenceLength? ('&' :: c :: r)).isSome then
        (markupQuotedTail quote r).map (· + 2)
      else none
    else (markupQuotedTail quote r).map (· + 2)
  | c :: r => if c = quote then some 1 else (markupQuotedTail quote r).map (· + 1)

def markupQuotedLength? : List Char → Option Nat
  | c :: r => if c = '"' || c = '\'' then (markupQuotedTail c r).map (· + 1) else none
  | [] => none

/-! ## Punctuation -/

/-- The punctuation marks of more than one character. -/
def longMarks : List String :=
  [">>>=", "...", "===", "!==", "**=", "<<=", ">>=", ">>>", "&&=", "||=", "??=", "=>", "==", "!=",
    "<=", ">=", "&&", "||", "??", "?.", "++", "--", "**", "+=", "-=", "*=", "/=", "%=", "&=", "|=",
    "^=", "<<", ">>"]

/-- Whether a longer mark goes on from this one here; a point before a digit belongs to a number. -/
def isMarkHere (m : String) (cs : List Char) : Bool :=
  m.toList.isPrefixOf cs

/-- Whether the longest mark at the front of the text is this one. -/
def marks (s : String) (cs : List Char) : Bool :=
  isMarkHere s cs &&
    !(longMarks.any fun m =>
      s.length < m.length && isMarkHere s m.toList && isMarkHere m cs &&
        !(m = "?." && ((cs.drop 2).head?.map Char.isDigit).getD false)) &&
    !(s = "?." && ((cs.drop 2).head?.map Char.isDigit).getD false)

end Source
end EndpointPayload
