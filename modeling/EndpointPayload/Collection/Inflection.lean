/-!
# Singular and plural

Nouns change number by their endings alone; an irregular noun stays as it is.  A word is plural when
it ends in `s` and is not that letter by itself.
-/

namespace EndpointPayload
namespace Inflection

/-- The plural ending, by the letters from the last one on. -/
def isPluralChars (word : List Char) : Bool :=
  match word.reverse with
  | 's' :: _ :: _ => true
  | _ => false

/-- `categories` to `category`, `shelves` to `shelf`, `users` to `user`. -/
def singularChars (word : List Char) : List Char :=
  match word.reverse with
  | 's' :: 'e' :: 'i' :: c :: stem => ('y' :: c :: stem).reverse
  | 's' :: 'e' :: 'v' :: c :: stem => ('f' :: c :: stem).reverse
  | 's' :: c :: stem => (c :: stem).reverse
  | _ => word

/-- `category` to `categories`, `shelf` to `shelves`, `user` to `users`. -/
def pluralChars (word : List Char) : List Char :=
  if isPluralChars word then word
  else
    match word.reverse with
    | [] => []
    | 'y' :: stem => ('s' :: 'e' :: 'i' :: stem).reverse
    | 'f' :: stem => ('s' :: 'e' :: 'v' :: stem).reverse
    | last :: stem => ('s' :: last :: stem).reverse

def isPlural (word : String) : Bool := isPluralChars word.toList

def singular (word : String) : String := String.ofList (singularChars word.toList)

def plural (word : String) : String := String.ofList (pluralChars word.toList)

end Inflection
end EndpointPayload
