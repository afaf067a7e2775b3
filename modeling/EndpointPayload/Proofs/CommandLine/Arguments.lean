import EndpointPayload.CommandLine.Command

/-!
# What arguments leave alone

Reading arguments takes one option or word after another, and the value of an option may come later
than the option.  `OptionEffect.Keeps` says that an option keeps a property of the state whatever
its value is.  What all options that come keep, and all words, holds at the end of the arguments.
An option that no argument names does not come, so only what it can do is left as it was.
-/

namespace EndpointPayload

/-- What comes of two steps comes of what the first one gives to the second. -/
theorem exists_of_bind_eq_ok
    {ε α β : Type}
    {x : Except ε α}
    {f : α → Except ε β}
    {b : β}
    (h : x >>= f = .ok b) :
    ∃ a, x = .ok a ∧ f a = .ok b := by
  cases x with
  | error e => cases h
  | ok a => exact ⟨a, rfl, h⟩

theorem exists_of_map_eq_ok
    {ε α β : Type}
    {x : Except ε α}
    {f : α → β}
    {b : β}
    (h : f <$> x = .ok b) :
    ∃ a, x = .ok a ∧ f a = b := by
  cases x with
  | error e => cases h
  | ok a => exact ⟨a, rfl, Except.ok.inj h⟩

namespace OptionEffect

variable {σ : Type}

/-- The property holds after the option if it holds before it, whatever its value is. -/
def Keeps (P : σ → Prop) : OptionEffect σ → Prop
  | help => True
  | mark set => ∀ s, P s → P (set s)
  | once read => ∀ v s s', P s → read v s = .ok s' → P s'
  | many add => ∀ vs s, P s → P (add vs s)

end OptionEffect

namespace ArgumentProgress

variable {σ : Type} {P : σ → Prop} {p q : ArgumentProgress σ} {o : OptionRule σ} {v : String}

/-- The property holds of the state, also after the value that is pending. -/
structure Keeps (P : σ → Prop) (p : ArgumentProgress σ) : Prop where
  state : P p.state
  pending : ∀ o v, p.pending = some (o, v) → o.effect.Keeps P

theorem keeps_start {s : σ} (h : P s) : (start s).Keeps P := ⟨h, fun _ _ hnone => by cases hnone⟩

theorem Keeps.see (h : p.Keeps P) (hq : p.see o = .ok q) : q.Keeps P := by
  unfold ArgumentProgress.see at hq
  split at hq
  · cases hq
  · cases hq
    exact ⟨h.state, h.pending⟩

theorem Keeps.apply
    (h : p.Keeps P)
    (ho : o.effect.Keeps P)
    (hq : p.apply o v = .ok q) :
    q.Keeps P := by
  unfold ArgumentProgress.apply at hq
  split at hq
  · rename_i read heffect
    rw [heffect] at ho
    obtain ⟨seen, hsee, hq⟩ := exists_of_bind_eq_ok hq
    obtain ⟨s, hread, hq⟩ := exists_of_bind_eq_ok hq
    cases hq
    have hseen := h.see hsee
    exact ⟨ho v _ _ hseen.state hread, hseen.pending⟩
  · rename_i add heffect
    rw [heffect] at ho
    cases hq
    exact ⟨ho _ _ h.state, h.pending⟩
  · cases hq

theorem Keeps.settle (h : p.Keeps P) (hq : p.settle = .ok q) : q.Keeps P := by
  unfold ArgumentProgress.settle at hq
  split at hq
  · cases hq
    exact h
  · cases hq
  · rename_i o v hpending
    have hnone : Keeps P { p with pending := none } := ⟨h.state, fun _ _ hnone => by cases hnone⟩
    exact hnone.apply (h.pending o (some v) hpending) hq

theorem Keeps.supply (h : p.Keeps P) (v : String) : (p.supply v).Keeps P := by
  refine ⟨h.state, fun o w hpending => ?_⟩
  obtain ⟨⟨o', w'⟩, hbefore, heq⟩ := Option.map_eq_some_iff.mp hpending
  cases heq
  exact h.pending o w' hbefore

theorem Keeps.option
    {value : Option String}
    (h : p.Keeps P)
    (ho : o.effect.Keeps P)
    (hq : p.option o value = .ok q) :
    q.Keeps P := by
  unfold ArgumentProgress.option at hq
  split at hq
  · obtain ⟨_, -, hq⟩ := exists_of_bind_eq_ok hq
    cases hq
  · rename_i set heffect
    rw [heffect] at ho
    obtain ⟨settled, hsettle, hq⟩ := exists_of_bind_eq_ok hq
    obtain ⟨seen, hsee, hq⟩ := exists_of_bind_eq_ok hq
    cases hq
    have hseen := (h.settle hsettle).see hsee
    exact ⟨ho _ hseen.state, hseen.pending⟩
  · cases hq
  · cases hq
  · obtain ⟨settled, hsettle, hq⟩ := exists_of_bind_eq_ok hq
    exact (h.settle hsettle).apply ho hq
  · obtain ⟨settled, hsettle, hq⟩ := exists_of_bind_eq_ok hq
    cases hq
    refine ⟨(h.settle hsettle).state, fun o' w hpending => ?_⟩
    cases hpending
    exact ho

end ArgumentProgress

namespace ArgumentRules

variable {σ : Type} {P : σ → Prop} {g : ArgumentRules σ} {p q : ArgumentProgress σ} {name : String}

/-- All options but the one of a name keep the property, and so do the words.  That option has no
letter. -/
structure KeepsBut (P : σ → Prop) (name : String) (g : ArgumentRules σ) : Prop where
  options : ∀ o ∈ g.allOptions, o.long ≠ name → o.effect.Keeps P
  letters : ∀ o ∈ g.allOptions, o.long = name → o.short = none
  words : ∀ put ∈ g.positionals, ∀ v s, P s → P (put v s)

/-- An argument that names the option, with a value or without. -/
def Names (name argument : String) : Prop := ("--" ++ name).toList <+: argument.toList

theorem KeepsBut.of_letters
    (hg : g.KeepsBut P name)
    {cs : List Char}
    (h : p.Keeps P)
    (hq : g.letters p cs = .ok q) :
    q.Keeps P := by
  induction cs generalizing p with
  | nil =>
      cases hq
      exact h
  | cons c cs ih =>
      rw [ArgumentRules.letters] at hq
      split at hq
      · cases hq
      · rename_i o hfound
        have hmem := List.mem_of_find?_eq_some hfound
        have hshort : o.short = some c := by simpa using List.find?_some hfound
        have ho : o.effect.Keeps P := hg.options o hmem fun hname => by
          rw [hg.letters o hmem hname] at hshort
          cases hshort
        split at hq
        · split at hq
          · exact h.option ho hq
          · exact h.option ho hq
          · exact h.option ho hq
        · obtain ⟨next, hnext, hq⟩ := exists_of_bind_eq_ok hq
          exact ih (h.option ho hnext) hq

theorem KeepsBut.of_longOption
    (hg : g.KeepsBut P name)
    {cs : List Char}
    (hname : ¬ name.toList <+: cs)
    (h : p.Keeps P)
    (hq : g.longOption p cs = .ok q) :
    q.Keeps P := by
  unfold ArgumentRules.longOption at hq
  dsimp only at hq
  split at hq
  · cases hq
  · rename_i o hfound
    have hlong : o.long = String.ofList (cs.takeWhile (· ≠ '=')) := by
      simpa using List.find?_some hfound
    refine h.option (hg.options o (List.mem_of_find?_eq_some hfound) fun heq => hname ?_) hq
    rw [← heq, hlong, String.toList_ofList]
    exact List.takeWhile_prefix _

theorem KeepsBut.of_word
    (hg : g.KeepsBut P name)
    {afterDashes : Bool}
    {argument : String}
    (h : p.Keeps P)
    (hq : g.word afterDashes p argument = .ok q) :
    q.Keeps P := by
  unfold ArgumentRules.word at hq
  split at hq
  · rename_i put hput
    obtain ⟨settled, hsettle, hq⟩ := exists_of_bind_eq_ok hq
    cases hq
    have hsettled := h.settle hsettle
    exact ⟨hg.words put (List.mem_of_getElem? hput) _ _ hsettled.state, hsettled.pending⟩
  · split at hq
    · cases hq
    · cases hq

/-- What holds before some arguments that do not name the option holds after them. -/
theorem KeepsBut.of_scan
    (hg : g.KeepsBut P name)
    {afterDashes : Bool}
    {args : List String}
    {found : Option (String × List String)}
    (hargs : ∀ argument ∈ args, ¬ Names name argument)
    (h : p.Keeps P)
    (hq : g.scan afterDashes p args = .ok (q, found)) :
    q.Keeps P := by
  induction args generalizing p afterDashes with
  | nil =>
      rw [ArgumentRules.scan] at hq
      cases hq
      exact h
  | cons argument args ih =>
      have hrest : ∀ a ∈ args, ¬ Names name a := fun a ha => hargs a (List.mem_cons_of_mem _ ha)
      cases afterDashes with
      | true =>
          rw [ArgumentRules.scan] at hq
          obtain ⟨next, hnext, hq⟩ := exists_of_bind_eq_ok hq
          exact ih hrest (hg.of_word h hnext) hq
      | false =>
          rw [ArgumentRules.scan] at hq
          split at hq
          · cases hq
            exact h
          · split at hq
            · exact ih hrest h hq
            · rename_i cs hne hchars
              obtain ⟨next, hnext, hq⟩ := exists_of_bind_eq_ok hq
              have hname : ¬ name.toList <+: cs := fun hprefix =>
                hargs argument List.mem_cons_self (by
                  rw [Names, hchars]
                  simpa using hprefix)
              exact ih hrest (hg.of_longOption hname h hnext) hq
            · obtain ⟨next, hnext, hq⟩ := exists_of_bind_eq_ok hq
              exact ih hrest (hg.of_letters h hnext) hq
            · split at hq
              · exact ih hrest (h.supply argument) hq
              · obtain ⟨next, hnext, hq⟩ := exists_of_bind_eq_ok hq
                exact ih hrest (hg.of_word h hnext) hq

/-- What the usual state has is left as it is where no argument names the option. -/
theorem KeepsBut.of_read
    (hg : g.KeepsBut P name)
    {args : List String}
    {usual s : σ}
    (hargs : ∀ argument ∈ args, ¬ Names name argument)
    (h : P usual)
    (hs : g.read usual args = .ok s) :
    P s := by
  obtain ⟨⟨q, found⟩, hscan, hs⟩ := exists_of_bind_eq_ok hs
  obtain ⟨settled, hsettle, hs⟩ := exists_of_bind_eq_ok hs
  have hq := hg.of_scan hargs (ArgumentProgress.keeps_start h) hscan
  split at hs
  · cases hs
  · cases hs
    exact (hq.settle hsettle).state

/-- The arguments behind the name of a command are the last ones. -/
theorem isSuffix_of_scan
    {afterDashes : Bool}
    {args rest : List String}
    {command : String}
    (h : g.scan afterDashes p args = .ok (q, some (command, rest))) :
    rest <:+ args := by
  induction args generalizing p afterDashes with
  | nil =>
      rw [ArgumentRules.scan] at h
      cases h
  | cons argument args ih =>
      have hskip : ∀ {flag : Bool} {next : ArgumentProgress σ},
          g.scan flag next args = .ok (q, some (command, rest)) → rest <:+ argument :: args :=
        fun hnext => (ih hnext).trans (List.suffix_cons argument args)
      cases afterDashes with
      | true =>
          rw [ArgumentRules.scan] at h
          obtain ⟨next, -, h⟩ := exists_of_bind_eq_ok h
          exact hskip h
      | false =>
          rw [ArgumentRules.scan] at h
          split at h
          · cases h
            exact List.suffix_cons _ _
          · split at h
            · exact hskip h
            · obtain ⟨next, -, h⟩ := exists_of_bind_eq_ok h
              exact hskip h
            · obtain ⟨next, -, h⟩ := exists_of_bind_eq_ok h
              exact hskip h
            · split at h
              · exact hskip h
              · obtain ⟨next, -, h⟩ := exists_of_bind_eq_ok h
                exact hskip h

end ArgumentRules

/-! ## Commands for a forecast -/

namespace Command

/-- No other option or word of a command for a forecast says how many fields to keep. -/
theorem keepsBut_limitFields :
    predictRules.KeepsBut (fun a => a.limitFields = none) "limit-fields" where
  options o ho hname := by
    simp only [ArgumentRules.allOptions, predictRules, List.cons_append, List.nil_append,
      List.mem_cons, List.not_mem_nil, or_false] at ho
    rcases ho with rfl | rfl | rfl | rfl | rfl | rfl
    · intro v s s' h hread
      dsimp only at hread
      split at hread
      · cases hread
        exact h
      · split at hread
        · cases hread
          exact h
        · cases hread
    · exact absurd rfl hname
    · exact fun vs s h => h
    · exact fun vs s h => h
    · exact fun s h => h
    · trivial
  letters := by decide
  words put hput v a h := by
    simp only [predictRules, methodWord, List.mem_cons, List.not_mem_nil, or_false] at hput
    rcases hput with rfl | rfl
    · exact h
    · exact h

theorem predict_of_read
    {name : String}
    {args : List String}
    {a : PredictArguments}
    (h : read name args = .ok (.predict a)) :
    predictRules.read {} args = .ok a := by
  unfold read at h
  split at h
  case h_8 =>
    obtain ⟨found, hfound, heq⟩ := exists_of_map_eq_ok h
    cases heq
    exact hfound
  case h_9 => cases h
  case h_10 => cases h
  -- All other names are of other commands.
  all_goals
    obtain ⟨found, -, heq⟩ := exists_of_map_eq_ok h
    cases heq

end Command

namespace Invocation

/-- A command for a forecast keeps all fields unless an argument says otherwise. -/
theorem limitFields_of_read
    {args : List String}
    {i : Invocation}
    {a : PredictArguments}
    (hargs : ∀ argument ∈ args, ¬ ArgumentRules.Names "limit-fields" argument)
    (hread : read args = .ok i)
    (ha : i.command = .predict a) :
    a.limitFields = none := by
  obtain ⟨⟨p, found⟩, hscan, hread⟩ := exists_of_bind_eq_ok hread
  dsimp only at hread
  split at hread
  · rename_i name rest
    obtain ⟨command, hcommand, hread⟩ := exists_of_bind_eq_ok hread
    obtain ⟨settled, -, hread⟩ := exists_of_bind_eq_ok hread
    cases hread
    dsimp only at ha
    subst ha
    have hsuffix := ArgumentRules.isSuffix_of_scan hscan
    exact Command.keepsBut_limitFields.of_read (fun argument h => hargs argument (hsuffix.mem h))
      rfl (Command.predict_of_read hcommand)
  · obtain ⟨settled, -, hread⟩ := exists_of_bind_eq_ok hread
    cases hread

end Invocation
end EndpointPayload
