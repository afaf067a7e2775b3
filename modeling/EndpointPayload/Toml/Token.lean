/-!
# Tokens of a settings file

A line break may be written with or without a carriage return, and a byte order mark may stand at
the front.  `tokens?` reads a whole text; it fails on a character that no token starts with, on an
open string and on an unknown escape.
-/

namespace EndpointPayload
namespace Toml

inductive Token where
  | newline
  /-- Spaces and tabs in a row. -/
  | blank (s : String)
  | comment
  /-- One of the marks of the language. -/
  | mark (c : Char)
  | text (value : String) (multiline : Bool)
  /-- Letters, digits, underscores and dashes in a row. -/
  | word (s : String)
  deriving DecidableEq, Repr

def marks : List Char := ['=', '.', ',', ':', '+', '{', '}', '[', ']']

def isSpace (c : Char) : Bool := c = ' ' || c = '\t'

def isWordChar (c : Char) : Bool := c.isAlphanum || c = '_' || c = '-'

/-- Control characters other than the tab end a comment. -/
def isCommentChar (c : Char) : Bool := c = '\t' || 0x20 ≤ c.toNat

/-- Characters that a string may hold as they are. -/
def isTextChar (c : Char) : Bool := isCommentChar c && c.toNat ≠ 0x7f

/-- Joins a carriage return with the line feed after it. -/
def foldLineBreaks : List Char → List Char
  | '\r' :: '\n' :: r => '\n' :: foldLineBreaks r
  | c :: r => c :: foldLineBreaks r
  | [] => []

def hexDigit? (c : Char) : Option Nat :=
  if c.isDigit then some (c.toNat - 48)
  else if 'a' ≤ c && c ≤ 'f' then some (c.toNat - 87)
  else if 'A' ≤ c && c ≤ 'F' then some (c.toNat - 55)
  else none

/-- The value of the next `n` digits of base sixteen, and the rest. -/
def hexCode? : Nat → Nat → List Char → Option (Nat × List Char)
  | 0, code, r => some (code, r)
  | _ + 1, _, [] => none
  | n + 1, code, c :: r => (hexDigit? c).bind fun d => hexCode? n (code * 16 + d) r

/-- The character of a code point written with `n` digits. -/
def codePoint? (n : Nat) (cs : List Char) : Option (Char × List Char) :=
  (hexCode? n 0 cs).bind fun (code, r) =>
    if code.isValidChar then some (Char.ofNat code, r) else none

/-- What a backslash and the characters after it stand for. -/
def escape? : List Char → Option (Char × List Char)
  | '"' :: r => some ('"', r)
  | '\\' :: r => some ('\\', r)
  | 'b' :: r => some ('\x08', r)
  | 'f' :: r => some ('\x0c', r)
  | 'n' :: r => some ('\n', r)
  | 'r' :: r => some ('\r', r)
  | 't' :: r => some ('\t', r)
  | 'u' :: r => codePoint? 4 r
  | 'U' :: r => codePoint? 8 r
  | _ => none

/-- Joins a line that ends in a backslash with the next text: the rest after spaces, a line break
and all space after it.  None if something else follows on the line. -/
def continued? (cs : List Char) : Option (List Char) :=
  match cs.dropWhile isSpace with
  | [] => some []
  | '\n' :: r => some (r.dropWhile fun c => isSpace c || c = '\n')
  | _ => none

/-- The content of a string up to its closing quote, and the rest.  In a string of several lines one
or two quotes are content, also right before the three that close it. -/
def textBody? (quote : Char) (multiline : Bool) :
    Nat → List Char → List Char → Option (String × List Char)
  | 0, _, _ => none
  | _ + 1, _, [] => none
  | n + 1, done, c :: r =>
    if c = quote then
      if !multiline then some (String.ofList done.reverse, r)
      else
        let more := (r.takeWhile (· = quote)).length
        if more < 2 then
          textBody? quote multiline n (List.replicate (more + 1) quote ++ done) (r.drop more)
        else
          let extra := min (more - 2) 2
          some (String.ofList (List.replicate extra quote ++ done).reverse, r.drop (2 + extra))
    else if c = '\n' then
      if multiline then textBody? quote multiline n (c :: done) r else none
    else if c = '\\' && quote = '"' then
      match escape? r with
      | some (e, r) => textBody? quote multiline n (e :: done) r
      | none =>
        match r.head?.map (fun d => multiline && (isSpace d || d = '\n')), continued? r with
        | some true, some r => textBody? quote multiline n done r
        | _, _ => none
    else if isTextChar c then textBody? quote multiline n (c :: done) r
    else none

/-- A string after its first quote.  A line break right after three quotes does not count. -/
def text? (quote : Char) (cs : List Char) : Option (Token × List Char) :=
  match cs with
  | a :: b :: r =>
    if a = quote && b = quote then
      let r :=
        match r with
        | '\n' :: r => r
        | r => r
      (textBody? quote true (r.length + 1) [] r).map fun (s, r) => (.text s true, r)
    else if a = quote then some (.text "" false, b :: r)
    else (textBody? quote false (cs.length + 1) [] cs).map fun (s, r) => (.text s false, r)
  | [a] => if a = quote then some (.text "" false, []) else none
  | [] => none

/-- The first token of a text, and the rest. -/
def token? (c : Char) (r : List Char) : Option (Token × List Char) :=
  if c = '\n' then some (.newline, r)
  else if isSpace c then
    some (.blank (String.ofList (c :: r.takeWhile isSpace)), r.dropWhile isSpace)
  else if c = '#' then some (.comment, r.dropWhile isCommentChar)
  else if marks.contains c then some (.mark c, r)
  else if c = '"' || c = '\'' then text? c r
  else if isWordChar c then
    some (.word (String.ofList (c :: r.takeWhile isWordChar)), r.dropWhile isWordChar)
  else none

/-- All tokens; the first argument bounds their number. -/
def tokensWithin? : Nat → List Char → Option (List Token)
  | _, [] => some []
  | 0, _ :: _ => none
  | n + 1, c :: r =>
    (token? c r).bind fun (t, r) => (tokensWithin? n r).map (t :: ·)

/-- The tokens of a text. -/
def tokens? (s : String) : Option (List Token) :=
  let cs := foldLineBreaks s.toList
  let cs := if cs.head? = some '\ufeff' then cs.drop 1 else cs
  tokensWithin? cs.length cs

end Toml
end EndpointPayload
