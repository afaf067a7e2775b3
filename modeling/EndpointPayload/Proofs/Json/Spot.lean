import Mathlib.Tactic

/-!
# Strings and braces along a text

`Spot.run?` follows a JSON text character by character and keeps three things: whether it is in a
string, whether a backslash stands before, and how many braces are open.  `Reads` says that a front
part of a text is passed at every depth with no brace left open, and has one rule for each way of
going on.

Where one run is in a string and another between tokens, the two stay apart: every quote takes both
over to the other side, and a backslash would stand between tokens in one of them.
-/

namespace EndpointPayload
namespace Json

/-- Where a text is cut. -/
inductive Mode where
  | between
  | inString
  | escaped
  deriving DecidableEq

/-- A place in a text with the number of braces that are open there. -/
structure Spot where
  mode : Mode
  depth : Nat

/-- What may stand behind a backslash. -/
def escapable : List Char := 'u' :: "\"\\/bfnrt".toList

namespace Spot

/-- The place behind a character; none if the character closes a brace that is not open, or stands
where there is no escape. -/
def step? (s : Spot) (c : Char) : Option Spot :=
  match s.mode with
  | .between =>
    if c = '"' then some ⟨.inString, s.depth⟩
    else if c = '\\' then none
    else if c = '\x7b' then some ⟨.between, s.depth + 1⟩
    else if c = '\x7d' then if s.depth = 0 then none else some ⟨.between, s.depth - 1⟩
    else some s
  | .inString =>
    if c = '"' then some ⟨.between, s.depth⟩
    else if c = '\\' then some ⟨.escaped, s.depth⟩
    else some s
  | .escaped => if c ∈ escapable then some ⟨.inString, s.depth⟩ else none

/-- The place behind a text. -/
def run? (s : Spot) (cs : List Char) : Option Spot := cs.foldlM step? s

theorem run?_cons
    (s : Spot)
    (c : Char)
    (cs : List Char) :
    s.run? (c :: cs) = (s.step? c).bind fun t => t.run? cs :=
  List.foldlM_cons

theorem run?_append
    (s : Spot)
    (front back : List Char) :
    s.run? (front ++ back) = (s.run? front).bind fun t => t.run? back :=
  List.foldlM_append

/-- A place in a string and one between tokens, or the other way round. -/
def AreOpposite (s t : Spot) : Prop :=
  s.mode = .inString ∧ t.mode = .between ∨ s.mode = .between ∧ t.mode = .inString

/-- Strings and gaps stay exchanged: a backslash would stand in a gap of one of the two. -/
theorem AreOpposite.step
    {s t s' t' : Spot}
    {c : Char}
    (h : AreOpposite s t)
    (hs : s.step? c = some s')
    (ht : t.step? c = some t') :
    AreOpposite s' t' := by
  obtain ⟨m, d⟩ := s
  obtain ⟨k, e⟩ := t
  rcases h with ⟨rfl, rfl⟩ | ⟨rfl, rfl⟩ <;> simp only [step?] at hs ht <;> grind [AreOpposite]

theorem AreOpposite.run
    {s t s' t' : Spot}
    {cs : List Char}
    (h : AreOpposite s t)
    (hs : s.run? cs = some s')
    (ht : t.run? cs = some t') :
    AreOpposite s' t' := by
  induction cs generalizing s t with
  | nil =>
      cases hs
      cases ht
      exact h
  | cons c cs ih =>
      rw [run?_cons, Option.bind_eq_some_iff] at hs ht
      obtain ⟨u, hu, hs⟩ := hs
      obtain ⟨v, hv, ht⟩ := ht
      exact ih (h.step hu hv) hs ht

end Spot

/-- A text up to a rest of it is passed from one mode to another, at every depth. -/
def Reads (m k : Mode) (cs rest : List Char) : Prop :=
  ∃ front, cs = front ++ rest ∧ ∀ d, Spot.run? ⟨m, d⟩ front = some ⟨k, d⟩

/-- Characters that change neither the mode nor the depth between tokens. -/
def IsPlain (c : Char) : Prop := c ≠ '"' ∧ c ≠ '\\' ∧ c ≠ '\x7b' ∧ c ≠ '\x7d'

namespace Reads

variable {m k l : Mode} {cs mid rest r : List Char} {c : Char}

theorem refl (m : Mode) (cs : List Char) : Reads m m cs cs := ⟨[], rfl, fun _ => rfl⟩

theorem trans
    (h : Reads m k cs mid)
    (h' : Reads k l mid rest) :
    Reads m l cs rest := by
  obtain ⟨front, rfl, hfront⟩ := h
  obtain ⟨back, rfl, hback⟩ := h'
  refine ⟨front ++ back, (List.append_assoc _ _ _).symm, fun d => ?_⟩
  rw [Spot.run?_append, hfront, Option.bind_some, hback]

theorem run?
    (h : Reads m k cs [])
    (d : Nat) :
    Spot.run? ⟨m, d⟩ cs = some ⟨k, d⟩ := by
  obtain ⟨front, hfront, hrun⟩ := h
  rw [List.append_nil] at hfront
  rw [hfront, hrun]

theorem cons
    (hc : ∀ d, Spot.step? ⟨m, d⟩ c = some ⟨k, d⟩)
    (h : Reads k l r rest) :
    Reads m l (c :: r) rest := by
  obtain ⟨front, rfl, hfront⟩ := h
  refine ⟨c :: front, rfl, fun d => ?_⟩
  rw [Spot.run?_cons, hc, Option.bind_some, hfront]

theorem plain
    (hc : IsPlain c)
    (h : Reads .between l r rest) :
    Reads .between l (c :: r) rest := by
  obtain ⟨hquote, hbackslash, hopen, hclose⟩ := hc
  exact h.cons fun d => by simp [Spot.step?, *]

theorem inString
    (hquote : c ≠ '"')
    (hbackslash : c ≠ '\\')
    (h : Reads .inString l r rest) :
    Reads .inString l (c :: r) rest :=
  h.cons fun d => by simp [Spot.step?, *]

theorem quote (h : Reads .inString l r rest) : Reads .between l ('"' :: r) rest :=
  h.cons fun _ => rfl

theorem unquote (h : Reads .between l r rest) : Reads .inString l ('"' :: r) rest :=
  h.cons fun _ => rfl

theorem escape
    (hc : c ∈ escapable)
    (h : Reads .inString l r rest) :
    Reads .inString l ('\\' :: c :: r) rest :=
  (h.cons fun d => by simp [Spot.step?, hc]).cons fun _ => rfl

/-- A closed pair of braces. -/
theorem braces (h : Reads .between .between r ('\x7d' :: rest)) :
    Reads .between .between ('\x7b' :: r) rest := by
  obtain ⟨front, rfl, hfront⟩ := h
  refine ⟨'\x7b' :: (front ++ ['\x7d']), by simp, fun d => ?_⟩
  have hopen : Spot.step? ⟨.between, d⟩ '\x7b' = some ⟨.between, d + 1⟩ := rfl
  have hclose : Spot.step? ⟨.between, d + 1⟩ '\x7d' = some ⟨.between, d⟩ := rfl
  rw [Spot.run?_cons, hopen, Option.bind_some, Spot.run?_append, hfront, Option.bind_some,
    Spot.run?_cons, hclose]
  rfl

theorem dropWhile
    {p : Char → Bool}
    (hp : ∀ c, p c = true → IsPlain c) :
    ∀ cs, Reads .between .between cs (cs.dropWhile p)
  | [] => refl _ _
  | c :: r => by
      cases hc : p c with
      | false => simpa [hc] using refl _ _
      | true => simpa [hc] using (dropWhile hp r).plain (hp c hc)

end Reads

end Json
end EndpointPayload
