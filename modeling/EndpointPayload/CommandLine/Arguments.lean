import EndpointPayload.Decimal.Numeral
import EndpointPayload.Text.Split

/-!
# Arguments of a command line

`ArgumentRules` says which options and words a command takes and what each of them does to a state.
Options have a long name and perhaps a letter.  A value follows its option as the next argument, or
in the same one: `--name=value`, `-nvalue` or `-n=value`.  Letters of options without a value may
share a dash.  After a double dash there are no more options.

A value that follows as an argument of its own is read when the next option or word comes, so a
fault of the value counts only then, and an unknown option in between counts first.
-/

namespace EndpointPayload

/-- Why arguments do not say what to run. -/
inductive UsageFault where
  | helpAsked
  | noArguments
  | missingCommand
  | unknownCommand
  | unknownArgument
  | missingArgument
  /-- An option has no value, or one that it never takes. -/
  | invalidValue
  /-- A value cannot be read as a number. -/
  | unreadableValue
  | repeatedOption
  /-- An option without a value has one. -/
  | unneededValue
  deriving DecidableEq, Repr

namespace UsageFault

def message : UsageFault → String
  | helpAsked => "help"
  | noArguments => "nothing to do"
  | missingCommand => "a command is missing"
  | unknownCommand => "unknown command"
  | unknownArgument => "unknown argument"
  | missingArgument => "an argument is missing"
  | invalidValue => "a value is missing or is not allowed"
  | unreadableValue => "a value is no number"
  | repeatedOption => "an option is repeated"
  | unneededValue => "an option takes no value"

/-- Asking for help is no failure. -/
def exitCode : UsageFault → UInt32
  | helpAsked => 0
  | _ => 2

end UsageFault

/-- What an option does. -/
inductive OptionEffect (σ : Type) where
  | help
  /-- The option has no value. -/
  | mark (set : σ → σ)
  /-- The option has a value and comes once. -/
  | once (read : String → σ → Except UsageFault σ)
  /-- The option may come again; commas are between values. -/
  | many (add : List String → σ → σ)

namespace OptionEffect

variable {σ : Type}

def takesValue : OptionEffect σ → Bool
  | once _ | many _ => true
  | _ => false

/-- An option whose value is any text. -/
def text (set : String → σ → σ) : OptionEffect σ := once fun v s => .ok (set v s)

/-- An option whose value is a path. -/
def path (set : String → σ → σ) : OptionEffect σ :=
  once fun v s => if v = "" then .error .invalidValue else .ok (set v s)

/-- The number that a text denotes, if it fits in a word of 64 bits. -/
def count? (v : String) : Option Nat :=
  let ds :=
    match v.toList with
    | '+' :: r => r
    | r => r
  if Decimal.areDigits ds && Decimal.ofDigits ds < Nat.pow 2 64 then some (Decimal.ofDigits ds)
  else none

/-- An option whose value is a count. -/
def count (set : Nat → σ → σ) : OptionEffect σ :=
  once fun v s =>
    match count? v with
    | some n => .ok (set n s)
    | none => .error .unreadableValue

/-- An option whose value is a truth value. -/
def truth (set : Bool → σ → σ) : OptionEffect σ :=
  once fun v s =>
    if v = "true" then .ok (set true s)
    else if v = "false" then .ok (set false s)
    else .error .invalidValue

end OptionEffect

structure OptionRule (σ : Type) where
  long : String
  short : Option Char
  effect : OptionEffect σ

/-- What a command takes. -/
structure ArgumentRules (σ : Type) where
  options : List (OptionRule σ)
  /-- The words that a command takes in order, each of which it needs. -/
  positionals : List (String → σ → σ)
  /-- Words that end the arguments, as names of commands. -/
  commands : List String

/-- How far the arguments have been read. -/
structure ArgumentProgress (σ : Type) where
  state : σ
  /-- The options that may come only once and have come. -/
  seen : List String
  /-- How many words have been taken. -/
  taken : Nat
  /-- The option whose value is not read yet, and the value if it has come. -/
  pending : Option (OptionRule σ × Option String)

namespace ArgumentProgress

variable {σ : Type}

def start (state : σ) : ArgumentProgress σ := ⟨state, [], 0, none⟩

/-- Notes that an option has come, unless it has come before. -/
def see (p : ArgumentProgress σ) (o : OptionRule σ) : Except UsageFault (ArgumentProgress σ) :=
  if p.seen.contains o.long then .error .repeatedOption
  else .ok { p with seen := o.long :: p.seen }

/-- Gives an option its value. -/
def apply (p : ArgumentProgress σ) (o : OptionRule σ) (v : String) :
    Except UsageFault (ArgumentProgress σ) :=
  match o.effect with
  | .once read => do
    let p ← p.see o
    return { p with state := ← read v p.state }
  | .many add => .ok { p with state := add (Text.split ',' v) p.state }
  | _ => .error .unneededValue

/-- Reads the value that is pending. -/
def settle (p : ArgumentProgress σ) : Except UsageFault (ArgumentProgress σ) :=
  match p.pending with
  | none => .ok p
  | some (_, none) => .error .invalidValue
  | some (o, some v) => apply { p with pending := none } o v

/-- Whether the next argument may be the value of an option. -/
def isWaiting (p : ArgumentProgress σ) : Bool :=
  match p.pending with
  | some (_, none) => true
  | _ => false

/-- Gives the option that is waiting its value. -/
def supply (p : ArgumentProgress σ) (v : String) : ArgumentProgress σ :=
  { p with pending := p.pending.map fun (o, _) => (o, some v) }

/-- Takes an option with the value in the same argument, if there is one. -/
def option (p : ArgumentProgress σ) (o : OptionRule σ) (value : Option String) :
    Except UsageFault (ArgumentProgress σ) :=
  match o.effect, value with
  | .help, none => do
    let _ ← p.settle
    .error .helpAsked
  | .mark set, none => do
    let p ← p.settle
    let p ← p.see o
    .ok { p with state := set p.state }
  | .help, some _ => .error .unneededValue
  | .mark _, some _ => .error .unneededValue
  | _, some v => do
    let p ← p.settle
    p.apply o v
  | _, none => do
    let p ← p.settle
    .ok { p with pending := some (o, none) }

end ArgumentProgress

namespace ArgumentRules

variable {σ : Type}

/-- Every command has an option that asks for help. -/
def allOptions (g : ArgumentRules σ) : List (OptionRule σ) :=
  g.options ++ [⟨"help", some 'h', .help⟩]

/-- Takes the letters behind one dash. -/
def letters (g : ArgumentRules σ) (p : ArgumentProgress σ) :
    List Char → Except UsageFault (ArgumentProgress σ)
  | [] => .ok p
  | c :: r =>
    match g.allOptions.find? fun o => o.short = some c with
    | none => .error .unknownArgument
    | some o =>
      if o.effect.takesValue then
        match r with
        | [] => p.option o none
        | '=' :: v => p.option o (some (String.ofList v))
        | v => p.option o (some (String.ofList v))
      else do
        let p ← p.option o none
        letters g p r

/-- Takes a long option, from behind its dashes. -/
def longOption (g : ArgumentRules σ) (p : ArgumentProgress σ) (cs : List Char) :
    Except UsageFault (ArgumentProgress σ) :=
  let name := String.ofList (cs.takeWhile (· ≠ '='))
  let value :=
    match cs.dropWhile (· ≠ '=') with
    | [] => none
    | _ :: v => some (String.ofList v)
  match g.allOptions.find? fun o => o.long = name with
  | none => .error .unknownArgument
  | some o => p.option o value

/-- Takes a word that is no option. -/
def word (g : ArgumentRules σ) (afterDashes : Bool) (p : ArgumentProgress σ) (a : String) :
    Except UsageFault (ArgumentProgress σ) :=
  match g.positionals[p.taken]? with
  | some put => do
    let p ← p.settle
    .ok { p with state := put a p.state, taken := p.taken + 1 }
  | none =>
    if g.commands.isEmpty || (afterDashes && g.commands.contains a) then .error .unknownArgument
    else .error .unknownCommand

/-- Reads arguments up to the name of a command; gives that name and what follows it.  The flag
tells whether a double dash has come. -/
def scan (g : ArgumentRules σ) : Bool → ArgumentProgress σ → List String →
    Except UsageFault (ArgumentProgress σ × Option (String × List String))
  | _, p, [] => .ok (p, none)
  | true, p, a :: rest => do
    let p ← g.word true p a
    scan g true p rest
  | false, p, a :: rest =>
    if !p.isWaiting && g.commands.contains a then .ok (p, some (a, rest))
    else
      match a.toList with
      | ['-', '-'] => scan g true p rest
      | '-' :: '-' :: cs => do
        let p ← g.longOption p cs
        scan g false p rest
      | '-' :: c :: cs => do
        let p ← g.letters p (c :: cs)
        scan g false p rest
      | _ =>
        if p.isWaiting then scan g false (p.supply a) rest
        else do
          let p ← g.word false p a
          scan g false p rest

/-- Reads all arguments of a command that has no commands below it. -/
def read (g : ArgumentRules σ) (usual : σ) (args : List String) : Except UsageFault σ := do
  let (p, _) ← g.scan false (.start usual) args
  let p ← p.settle
  if p.taken < g.positionals.length then .error .missingArgument else .ok p.state

end ArgumentRules
end EndpointPayload
