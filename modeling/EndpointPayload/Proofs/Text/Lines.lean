import EndpointPayload.Text.Lines
import Mathlib.Tactic

/-!
# Lines as parts of their text

`Text.IsLineSpan` says which part of a text stands on some of its lines: it starts where a line
starts, holds a line feed for each further line, and ends before the terminator of the last line.
`Text.lineRange` gives that part without the carriage returns that stand before its line feeds.  So
what it gives stands in the text as it is exactly if the part has no such carriage return.
-/

namespace EndpointPayload
namespace Text

/-- The characters without each carriage return that a line feed follows. -/
def withoutReturns : List Char → List Char
  | [] => []
  | c :: r => if c = '\r' ∧ r.head? = some '\n' then withoutReturns r else c :: withoutReturns r

/-- How a text goes on after a line: it ends, or the terminator of the line comes. -/
inductive EndsLine (line : List Char) : List Char → Prop
  | atEnd : EndsLine line []
  | feed {rest : List Char} (h : line.getLast? ≠ some '\r') : EndsLine line ('\n' :: rest)
  | returnFeed {rest : List Char} : EndsLine line ('\r' :: '\n' :: rest)

/-- What stands before a line: nothing, or something that ends with a line feed. -/
def StartsLine (before : List Char) : Prop := before = [] ∨ before.getLast? = some '\n'

/-- The part of a text from the first character of one line to the last character of another before
its terminator, lines counted from one. -/
def IsLineSpan (text : List Char) (first last : Nat) (code : List Char) : Prop :=
  ∃ before after, text = before ++ code ++ after ∧
    StartsLine before ∧ before.count '\n' + 1 = first ∧
    code.count '\n' + first = last ∧ EndsLine code after

instance (before : List Char) : Decidable (StartsLine before) :=
  inferInstanceAs (Decidable (_ ∨ _))

/-- The number of lines; nothing after the last line feed is no line. -/
def lineCount (text : List Char) : Nat :=
  text.count '\n' + if StartsLine text then 0 else 1

/-- A line without the carriage return at its end. -/
def chomp (line : List Char) : List Char :=
  if line.getLast? = some '\r' then line.dropLast else line

section Lines

variable {line : List Char}

/-- What holds of a last line without a terminator, and of a line before a rest that it holds of,
holds of every text. -/
@[elab_as_elim]
theorem lineInduction
    {motive : List Char → Prop}
    (text : List Char)
    (last : ∀ line, '\n' ∉ line → motive line)
    (feed : ∀ line rest, '\n' ∉ line → motive rest → motive (line ++ '\n' :: rest)) :
    motive text := by
  by_cases h : '\n' ∈ text
  · obtain ⟨line, rest, heq, hline⟩ := List.eq_append_cons_of_mem h
    rw [heq]
    exact feed line rest hline (lineInduction rest last feed)
  · exact last text h
termination_by text.length
decreasing_by
  rw [heq, List.length_append, List.length_cons]
  omega

theorem chomp_cons_cons (c d : Char) (line : List Char) :
    chomp (c :: d :: line) = c :: chomp (d :: line) := by
  unfold chomp
  rw [List.getLast?_cons_cons, List.dropLast_cons_cons]
  split <;> rfl

theorem withoutReturns_of_not_mem (h : '\n' ∉ line) : withoutReturns line = line := by
  induction line with
  | nil => rfl
  | cons c line ih =>
      rw [List.mem_cons, not_or] at h
      have hhead : line.head? ≠ some '\n' := fun hhead => h.2 (List.mem_of_head? hhead)
      rw [withoutReturns, if_neg fun hc => hhead hc.2, ih h.2]

/-- A first line keeps all but the carriage return at its end. -/
theorem withoutReturns_append (h : '\n' ∉ line) (rest : List Char) :
    withoutReturns (line ++ '\n' :: rest) = chomp line ++ '\n' :: withoutReturns rest := by
  induction line with
  | nil => simp [withoutReturns, chomp]
  | cons c line ih =>
      rw [List.mem_cons, not_or] at h
      cases line with
      | nil =>
          by_cases hc : c = '\r'
          · simp [withoutReturns, chomp, hc]
          · simp [withoutReturns, chomp, hc]
      | cons d line =>
          have hd : d ≠ '\n' := fun hd => h.2 (hd ▸ List.mem_cons_self)
          rw [List.cons_append, withoutReturns, if_neg fun hc => hd (by simpa using hc.2), ih h.2,
            chomp_cons_cons, List.cons_append]

/-- Carriage returns before line feeds are all that is left out. -/
theorem withoutReturns_eq_self_iff (code : List Char) :
    withoutReturns code = code ↔ ¬ ['\r', '\n'] <:+: code := by
  have hlength : ∀ cs : List Char, (withoutReturns cs).length ≤ cs.length := by
    intro cs
    induction cs with
    | nil => exact Nat.le_refl _
    | cons c r ih =>
        rw [withoutReturns]
        split <;> simp only [List.length_cons] <;> omega
  induction code with
  | nil => simp [withoutReturns]
  | cons c r ih =>
      have hbegins : ['\r', '\n'] <+: c :: r ↔ c = '\r' ∧ r.head? = some '\n' := by
        rw [List.cons_prefix_cons, List.singleton_prefix_iff_head?_eq_some, eq_comm]
      rw [List.infix_cons_iff, hbegins, withoutReturns]
      split
      · rename_i hc
        have hne : withoutReturns r ≠ c :: r := by
          intro heq
          have := hlength r
          rw [heq, List.length_cons] at this
          omega
        rw [iff_false_intro hne]
        simp [hc]
      · rename_i hc
        simp [hc, ih]

end Lines

section Reading

variable {line : List Char}

/-- One character read: at a line feed the line is complete. -/
theorem linesFrom_cons (acc : List Char) (c : Char) (r : List Char) :
    linesFrom acc (c :: r) =
      if c = '\n' then String.ofList (chomp acc.reverse) :: linesFrom [] r
      else linesFrom (c :: acc) r := by
  rw [linesFrom.eq_def]
  cases acc with
  | nil => rfl
  | cons d before =>
      by_cases hd : d = '\r'
      · simp [hd, chomp]
      · simp [hd, chomp]

theorem linesFrom_of_not_mem (h : '\n' ∉ line) (acc : List Char) :
    linesFrom acc line =
      if acc.reverse ++ line = [] then [] else [String.ofList (acc.reverse ++ line)] := by
  induction line generalizing acc with
  | nil => simp [linesFrom]
  | cons c line ih =>
      rw [List.mem_cons, not_or] at h
      rw [linesFrom_cons, if_neg (Ne.symm h.1), ih h.2]
      simp

theorem linesFrom_append (h : '\n' ∉ line) (acc rest : List Char) :
    linesFrom acc (line ++ '\n' :: rest) =
      String.ofList (chomp (acc.reverse ++ line)) :: linesFrom [] rest := by
  induction line generalizing acc with
  | nil => rw [List.nil_append, linesFrom_cons, if_pos rfl, List.append_nil]
  | cons c line ih =>
      rw [List.mem_cons, not_or] at h
      rw [List.cons_append, linesFrom_cons, if_neg (Ne.symm h.1), ih h.2]
      simp

/-- After a line, a line starts where one starts in the rest. -/
theorem startsLine_append_iff (line before : List Char) :
    StartsLine (line ++ '\n' :: before) ↔ StartsLine before := by
  cases before with
  | nil => simp [StartsLine]
  | cons c before => simp [StartsLine]

theorem lineCount_append (h : '\n' ∉ line) (rest : List Char) :
    lineCount (line ++ '\n' :: rest) = lineCount rest + 1 := by
  simp only [lineCount, startsLine_append_iff, List.count_append, List.count_cons_self,
    List.count_eq_zero.mpr h]
  omega

theorem length_linesFrom (text : List Char) : (linesFrom [] text).length = lineCount text := by
  induction text using lineInduction with
  | last line h =>
      have hlast : line.getLast? ≠ some '\n' := fun hlast => h (List.mem_of_getLast? hlast)
      rw [linesFrom_of_not_mem h, lineCount, List.count_eq_zero.mpr h]
      cases line with
      | nil => simp [StartsLine]
      | cons c line => simp [StartsLine, hlast]
  | feed line rest h ih => rw [linesFrom_append h, lineCount_append h, List.length_cons, ih]

/-- The lines after some lines are those of the text after these. -/
theorem exists_skipped
    {text : List Char}
    {n : Nat}
    (hn : n < lineCount text) :
    ∃ before rest, text = before ++ rest ∧ StartsLine before ∧ before.count '\n' = n ∧
      (linesFrom [] text).drop n = linesFrom [] rest := by
  induction text using lineInduction generalizing n with
  | last line h =>
      have hzero : n = 0 := by
        rw [lineCount, List.count_eq_zero.mpr h] at hn
        split at hn <;> omega
      subst hzero
      exact ⟨[], line, rfl, .inl rfl, rfl, rfl⟩
  | feed line rest h ih =>
      cases n with
      | zero => exact ⟨[], line ++ '\n' :: rest, rfl, .inl rfl, rfl, rfl⟩
      | succ n =>
          rw [lineCount_append h] at hn
          obtain ⟨before, rest', hrest, hstart, hcount, hdrop⟩ :=
            ih (by omega : n < lineCount rest)
          refine ⟨line ++ '\n' :: before, rest', ?_, ?_, ?_, ?_⟩
          · rw [hrest, List.append_assoc, List.cons_append]
          · exact (startsLine_append_iff line before).mpr hstart
          · simp [List.count_eq_zero.mpr h, hcount]
          · rw [linesFrom_append h, List.drop_succ_cons, hdrop]

/-- A line that a line feed ends, its terminator apart. -/
theorem exists_terminator (line rest : List Char) :
    ∃ after, line ++ '\n' :: rest = chomp line ++ after ∧ EndsLine (chomp line) after := by
  unfold chomp
  split
  · rename_i hlast
    obtain ⟨front, rfl⟩ := List.getLast?_eq_some_iff.mp hlast
    exact ⟨'\r' :: '\n' :: rest, by simp, .returnFeed⟩
  · rename_i hlast
    exact ⟨'\n' :: rest, rfl, .feed hlast⟩

theorem EndsLine.append
    {code after : List Char}
    (h : EndsLine code after)
    (line : List Char) :
    EndsLine (line ++ '\n' :: code) after := by
  cases h with
  | atEnd => exact .atEnd
  | feed hlast =>
      refine .feed ?_
      cases code with
      | nil => simp
      | cons c code => simpa using hlast
  | returnFeed => exact .returnFeed

/-- The first lines, joined by line feeds, are the front of the text without its carriage returns
before line feeds. -/
theorem exists_front
    {text : List Char}
    {n : Nat}
    (hn : n < lineCount text) :
    ∃ code after, text = code ++ after ∧ code.count '\n' = n ∧ EndsLine code after ∧
      ("\n".intercalate ((linesFrom [] text).take (n + 1))).toList = withoutReturns code := by
  induction text using lineInduction generalizing n with
  | last line h =>
      have hline : line ≠ [] := by
        rintro rfl
        exact absurd hn (Nat.not_lt_zero n)
      have hzero : n = 0 := by
        rw [lineCount, List.count_eq_zero.mpr h] at hn
        split at hn <;> omega
      subst hzero
      refine ⟨line, [], (List.append_nil _).symm, List.count_eq_zero.mpr h, .atEnd, ?_⟩
      rw [withoutReturns_of_not_mem h, linesFrom_of_not_mem h]
      simp [hline]
  | feed line rest h ih =>
      rw [linesFrom_append h, List.reverse_nil, List.nil_append]
      cases n with
      | zero =>
          obtain ⟨after, hafter, hends⟩ := exists_terminator line rest
          have hchomp : '\n' ∉ chomp line := by
            unfold chomp
            split
            · exact fun hmem => h (List.mem_of_mem_dropLast hmem)
            · exact h
          refine ⟨chomp line, after, hafter, List.count_eq_zero.mpr hchomp, hends, ?_⟩
          rw [withoutReturns_of_not_mem hchomp]
          simp
      | succ n =>
          rw [lineCount_append h] at hn
          obtain ⟨code, after, hrest, hcount, hends, hread⟩ :=
            ih (by omega : n < lineCount rest)
          refine ⟨line ++ '\n' :: code, after, ?_, ?_, hends.append line, ?_⟩
          · rw [hrest, List.append_assoc, List.cons_append]
          · simp [List.count_eq_zero.mpr h, hcount]
          · rw [withoutReturns_append h, ← hread]
            have hlines : 0 < (linesFrom [] rest).length := by
              rw [length_linesFrom]
              omega
            obtain ⟨first, others, hfirst⟩ := List.exists_cons_of_length_pos hlines
            rw [hfirst, List.take_succ_cons, List.take_succ_cons, String.intercalate_cons_cons]
            simp

end Reading

section Spans

variable {text code : List Char} {first last : Nat}

/-- Fronts of a text with equally many line feeds, at the starts of lines, are the same. -/
theorem StartsLine.eq_of_prefix
    {before other : List Char}
    (hother : StartsLine other)
    (hbegins : before <+: other)
    (hcount : before.count '\n' = other.count '\n') :
    before = other := by
  obtain ⟨more, rfl⟩ := hbegins
  have hmore : '\n' ∉ more := by
    rw [List.count_append] at hcount
    exact List.count_eq_zero.mp (by omega)
  rcases hother with hnil | hlast
  · rw [(List.append_eq_nil_iff.mp hnil).1, (List.append_eq_nil_iff.mp hnil).2, List.append_nil]
  · cases more with
    | nil => rw [List.append_nil]
    | cons c more =>
        rw [List.getLast?_append_of_ne_nil _ (List.cons_ne_nil c more)] at hlast
        exact absurd (List.mem_of_getLast? hlast) hmore

/-- Of two ends of one line neither lies behind the other. -/
theorem EndsLine.eq_nil
    {more after : List Char}
    (h : EndsLine code (more ++ after))
    (h' : EndsLine (code ++ more) after)
    (hmore : '\n' ∉ more) :
    more = [] := by
  cases more with
  | nil => rfl
  | cons c more =>
      rw [List.mem_cons, not_or] at hmore
      exfalso
      generalize hwhole : c :: more ++ after = whole at h
      cases h with
      | atEnd => cases hwhole
      | feed => exact hmore.1 (List.cons.inj hwhole).1.symm
      | returnFeed =>
          obtain ⟨rfl, hrest⟩ := List.cons.inj hwhole
          cases more with
          | nil =>
              -- The longer part would end in a carriage return right before a line feed.
              obtain rfl : after = _ := hrest
              cases h' with
              | feed hlast => exact hlast (by simp)
          | cons d more => exact hmore.2 ((List.cons.inj hrest).1 ▸ List.mem_cons_self)

/-- Two spans that start together and of which one is a front of the other are the same. -/
theorem EndsLine.eq_of_prefix
    {other after after' : List Char}
    (h : EndsLine code after)
    (h' : EndsLine other after')
    (htext : code ++ after = other ++ after')
    (hcount : code.count '\n' = other.count '\n')
    (hbegins : code <+: other) :
    code = other := by
  obtain ⟨more, rfl⟩ := hbegins
  rw [List.append_assoc, List.append_cancel_left_eq] at htext
  subst htext
  rw [List.count_append] at hcount
  rw [h.eq_nil h' (List.count_eq_zero.mp (by omega)), List.append_nil]

/-- A text has one part from a line to another. -/
theorem IsLineSpan.eq
    {other : List Char}
    (h : IsLineSpan text first last code)
    (h' : IsLineSpan text first last other) :
    code = other := by
  obtain ⟨before, after, rfl, hstart, hfirst, hlast, hends⟩ := h
  obtain ⟨before', after', htext, hstart', hfirst', hlast', hends'⟩ := h'
  rw [List.append_assoc, List.append_assoc] at htext
  -- The front is settled first: only then do both parts start at the same character.
  have hbefore : before = before' := by
    rcases List.prefix_or_prefix_of_prefix ⟨_, rfl⟩ ⟨_, htext.symm⟩ with hbegins | hbegins
    · exact hstart'.eq_of_prefix hbegins (by omega)
    · exact (hstart.eq_of_prefix hbegins (by omega)).symm
  subst hbefore
  rw [List.append_cancel_left_eq] at htext
  rcases List.prefix_or_prefix_of_prefix ⟨_, rfl⟩ ⟨_, htext.symm⟩ with hbegins | hbegins
  · exact hends.eq_of_prefix hends' htext (by omega) hbegins
  · exact (hends'.eq_of_prefix hends htext.symm (by omega) hbegins).symm

/-- The lines from one to another inside a text: the part of the text that stands there, and what is
read of it. -/
theorem exists_isLineSpan
    {s : String}
    (hfirst : 1 ≤ first)
    (hle : first ≤ last)
    (hlast : last ≤ lineCount s.toList) :
    ∃ code, IsLineSpan s.toList first last code ∧
      (lineRange s first last).toList = withoutReturns code := by
  have hskip : first - 1 < lineCount s.toList := by omega
  obtain ⟨before, rest, htext, hstart, hbefore, hdrop⟩ := exists_skipped hskip
  have hcount : (linesFrom [] rest).length = lineCount s.toList - (first - 1) := by
    rw [← hdrop, List.length_drop, length_linesFrom]
  rw [length_linesFrom] at hcount
  obtain ⟨code, after, hrest, hcode, hends, hread⟩ :=
    exists_front (by omega : last - first < lineCount rest)
  refine ⟨code, ⟨before, after, ?_, hstart, by omega, by omega, hends⟩, ?_⟩
  · rw [htext, hrest, List.append_assoc]
  · rw [lineRange, lines, hdrop, hread]

end Spans

end Text
end EndpointPayload
