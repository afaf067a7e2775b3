import EndpointPayload.Files.System
import EndpointPayload.Proofs.Text.Basic
import Mathlib.Data.List.Lex
import Mathlib.Data.Prod.Lex
import Mathlib.Data.String.Basic

/-!
# Normal paths

Collapsing a path leaves the root if the path is absolute, then parent steps, then names, and such a
path collapses to itself.  There are as many parent steps as `Path.climbs` counts: those that lead
out of where the path starts.  A path that was read from inside an absolute directory and collapsed
is absolute and stands for itself ever after.

`Path.before` compares the places of components one by one, so sorting by it puts paths in a row.
-/

namespace EndpointPayload

namespace Component

/-- The place of a component: the root, a dot, a parent step, then names by their characters. -/
def place : Component → ℕ ×ₗ String
  | .name s => toLex (3, s)
  | c => toLex (c.rank, "")

theorem before_iff_place_lt {a b : Component} : a.before b = true ↔ a.place < b.place := by
  cases a <;> cases b <;> simp [before, place, rank, Prod.Lex.toLex_lt_toLex]

theorem place_injective : Function.Injective place := by
  intro a b h
  cases a <;> cases b <;> simp_all [place, rank]

end Component

namespace Path

section Order

theorem componentsBefore_iff : ∀ {cs ds : List Component},
    componentsBefore cs ds = true ↔ cs.map Component.place < ds.map Component.place
  | [], [] => by simp [componentsBefore]
  | [], _ :: _ => by simp [componentsBefore]
  | _ :: _, [] => by simp [componentsBefore]
  | c :: cs, d :: ds => by
      rw [componentsBefore, List.map_cons, List.map_cons, List.cons_lt_cons_iff]
      split
      case isTrue heq =>
          subst heq
          simp [componentsBefore_iff]
      case isFalse hne =>
          have hplace : c.place ≠ d.place := fun h => hne (Component.place_injective h)
          simp [Component.before_iff_place_lt, hplace]

/-- The places of the components of a path. -/
def places (s : String) : List (ℕ ×ₗ String) := (components s).map Component.place

/-- The order of paths is that of the places of their components. -/
theorem not_before_iff {a b : String} : (!before b a) = true ↔ places a ≤ places b := by
  rw [Bool.not_eq_true', Bool.eq_false_iff, Ne, before, componentsBefore_iff, not_lt, places,
    places]

end Order

/-- A text that names an entry of a directory. -/
structure IsName (s : String) : Prop where
  ne_blank : s ≠ ""
  ne_current : s ≠ "."
  ne_parent : s ≠ ".."
  no_slash : '/' ∉ s.toList

/-- A step that a piece of a path can stand for. -/
def IsStep : Component → Prop
  | .parent => True
  | .name s => IsName s
  | _ => False

variable {s base root path : String} {c : Component}

theorem isStep_of_component?
    (hpiece : '/' ∉ s.toList)
    (h : component? s = some c) :
    IsStep c := by
  unfold component? at h
  split at h
  · cases h
  · rename_i hvoid
    split at h
    · cases h
      trivial
    · rename_i hparent
      cases h
      rw [Bool.or_eq_true, decide_eq_true_iff, decide_eq_true_iff, not_or] at hvoid
      exact ⟨hvoid.1, hvoid.2, hparent, hpiece⟩

theorem component?_text (h : IsStep c) : component? c.text = some c := by
  cases c with
  | parent => rfl
  | name s => simp [component?, Component.text, h.ne_blank, h.ne_current, h.ne_parent]
  | root => cases h
  | current => cases h

theorem no_slash_text (h : IsStep c) : '/' ∉ c.text.toList := by
  cases c with
  | parent => decide
  | name s => exact h.no_slash
  | root => cases h
  | current => cases h

theorem isStep_of_mem_pieces
    (h : c ∈ (pieces s).filterMap component?) :
    IsStep c := by
  obtain ⟨piece, hpiece, hc⟩ := List.mem_filterMap.mp h
  obtain ⟨cs, hcs, rfl⟩ := List.mem_map.mp hpiece
  refine isStep_of_component? ?_ hc
  rw [String.toList_ofList]
  exact Text.not_mem_of_mem_splitChars hcs

theorem filterMap_component?_text :
    ∀ {cs : List Component}, (∀ c ∈ cs, IsStep c) →
      (cs.map Component.text).filterMap component? = cs
  | [], _ => rfl
  | c :: cs, h => by
      rw [List.map_cons, List.filterMap_cons_some (component?_text (h c List.mem_cons_self)),
        filterMap_component?_text fun d hd => h d (List.mem_cons_of_mem _ hd)]

theorem isAbsolute_iff : isAbsolute s = true ↔ ∃ rest, s.toList = '/' :: rest := by
  rw [isAbsolute, String.startsWith_string_iff]
  constructor
  · rintro ⟨rest, hrest⟩
    exact ⟨rest, hrest.symm⟩
  · rintro ⟨rest, hrest⟩
    exact ⟨rest, hrest.symm⟩

theorem isAbsolute_slash_append : isAbsolute ("/" ++ s) = true :=
  isAbsolute_iff.mpr ⟨s.toList, by simp⟩

/-- The steps of a path, wherever it starts. -/
def steps (s : String) : List Component := (pieces s).filterMap component?

/-- Steps behind the root, if the path is absolute. -/
def placed (absolute : Bool) (cs : List Component) : List Component :=
  if absolute then .root :: cs else cs

theorem isStep_of_mem_steps : ∀ c ∈ steps s, IsStep c := fun _ => isStep_of_mem_pieces

theorem isAbsolute_of_pieces
    {piece : String}
    {rest : List String}
    (h : pieces s = piece :: rest)
    (hpiece : piece ≠ "") :
    isAbsolute s = false := by
  rw [Bool.eq_false_iff]
  intro habsolute
  obtain ⟨cs, hcs⟩ := isAbsolute_iff.mp habsolute
  rw [pieces, Text.split, hcs, Text.splitChars, if_pos rfl, List.map_cons] at h
  exact hpiece (List.cons.inj h).1.symm

/-- The texts of steps are the pieces of what they make with slashes between them. -/
theorem pieces_intercalate
    {cs : List Component}
    (hcs : cs ≠ [])
    (h : ∀ c ∈ cs, IsStep c) :
    pieces ("/".intercalate (cs.map Component.text)) = cs.map Component.text := by
  rw [pieces, Text.split_intercalate_slash (by simpa using hcs)]
  intro text htext
  obtain ⟨c, hc, rfl⟩ := List.mem_map.mp htext
  exact no_slash_text (h c hc)

theorem pieces_slash_append (s : String) : pieces ("/" ++ s) = "" :: pieces s := by
  have hchars : ("/" ++ s).toList = [] ++ '/' :: s.toList := by simp
  rw [pieces, Text.split, hchars, Text.splitChars_append_cons List.not_mem_nil, List.map_cons]
  rfl

theorem steps_ofComponents
    {cs : List Component}
    (h : ∀ c ∈ cs, IsStep c) :
    steps ("/".intercalate (cs.map Component.text)) = cs := by
  cases cs with
  | nil => rfl
  | cons c cs =>
      rw [steps, pieces_intercalate (List.cons_ne_nil c cs) h]
      exact filterMap_component?_text h

theorem ofComponents_placed
    {absolute : Bool}
    {cs : List Component}
    (h : ∀ c ∈ cs, IsStep c) :
    ofComponents (placed absolute cs) =
      (if absolute then "/" else "") ++ "/".intercalate (cs.map Component.text) := by
  cases absolute with
  | true => rfl
  | false =>
      rw [placed, if_neg Bool.false_ne_true, if_neg Bool.false_ne_true, String.empty_append]
      cases cs with
      | nil => rfl
      | cons c cs =>
          cases c with
          | root => exact absurd (h .root List.mem_cons_self) id
          | _ => rfl

/-- The text of steps that start nowhere in particular is read back as these steps. -/
theorem components_intercalate
    {cs : List Component}
    (h : ∀ c ∈ cs, IsStep c) :
    components ("/".intercalate (cs.map Component.text)) = cs := by
  cases cs with
  | nil => rfl
  | cons c cs =>
      have hsteps := steps_ofComponents h
      have hpieces := pieces_intercalate (List.cons_ne_nil c cs) h
      have hread := component?_text (h c List.mem_cons_self)
      have hblank : c.text ≠ "" := by
        intro heq
        rw [heq] at hread
        cases hread
      have hdot : c.text ≠ "." := by
        intro heq
        rw [heq] at hread
        cases hread
      rw [List.map_cons] at hpieces
      rw [steps, List.map_cons, hpieces] at hsteps
      rw [components, List.map_cons, isAbsolute_of_pieces hpieces hblank, hpieces]
      simp [hdot, hsteps]

/-- The text of a list of steps is read back as that list. -/
theorem components_ofComponents
    (absolute : Bool)
    {cs : List Component}
    (h : ∀ c ∈ cs, IsStep c) :
    components (ofComponents (placed absolute cs)) = placed absolute cs := by
  rw [ofComponents_placed h]
  cases absolute with
  | true =>
      have hsteps : steps ("/" ++ "/".intercalate (cs.map Component.text)) = cs := by
        rw [steps, pieces_slash_append, List.filterMap_cons_none rfl]
        exact steps_ofComponents h
      rw [if_pos rfl, components, isAbsolute_slash_append, if_pos rfl]
      exact congrArg (List.cons Component.root) hsteps
  | false =>
      rw [if_neg Bool.false_ne_true, String.empty_append]
      exact components_intercalate h

section Texts

variable {absolute : Bool} {cs : List Component} {n : String}

theorem endsWith_iff {s ending : String} :
    s.endsWith ending = true ↔ ending.toList <:+ s.toList := by
  simpa using @String.Slice.endsWith_string_iff ending s.toSlice

/-- A path that can only mean a directory ends in a piece that is no step. -/
theorem getLast?_pieces_of_meansDirectory (h : FileSystem.meansDirectory s = true) :
    ∃ piece, (pieces s).getLast? = some piece ∧ component? piece = none := by
  have hlast : ∀ front back : List Char, front ++ '/' :: back = s.toList → '/' ∉ back →
      (pieces s).getLast? = some (String.ofList back) := fun front back hchars hback => by
    rw [pieces, Text.split, ← hchars, Text.splitChars_append, Text.splitChars_of_not_mem _ hback]
    simp
  rw [FileSystem.meansDirectory, Bool.or_eq_true, endsWith_iff, endsWith_iff] at h
  obtain ⟨front, hfront⟩ | ⟨front, hfront⟩ := h
  · exact ⟨"", hlast front [] hfront List.not_mem_nil, rfl⟩
  · exact ⟨".", hlast front ['.'] hfront (by decide), rfl⟩

/-- A path that ends in a step can mean a file. -/
theorem meansDirectory_ofComponents
    (absolute : Bool)
    (hcs : cs ≠ [])
    (h : ∀ c ∈ cs, IsStep c) :
    FileSystem.meansDirectory (ofComponents (placed absolute cs)) = false := by
  rw [Bool.eq_false_iff]
  intro hmeans
  obtain ⟨piece, hpiece, hnone⟩ := getLast?_pieces_of_meansDirectory hmeans
  obtain ⟨before, last, rfl⟩ := cs.eq_nil_or_concat'.resolve_left hcs
  have hlast : (pieces (ofComponents (placed absolute (before ++ [last])))).getLast? =
      some last.text := by
    rw [ofComponents_placed h]
    cases absolute with
    | true =>
        rw [if_pos rfl, pieces_slash_append, pieces_intercalate hcs h, List.map_append,
          List.map_singleton, ← List.cons_append, List.getLast?_concat]
    | false =>
        rw [if_neg Bool.false_ne_true, String.empty_append, pieces_intercalate hcs h,
          List.map_append, List.map_singleton, List.getLast?_concat]
  have hread := component?_text (h last (by simp))
  rw [hlast, Option.some.injEq] at hpiece
  rw [hpiece, hnone] at hread
  cases hread

theorem ofComponents_concat
    (hcs : cs ≠ [])
    (h : ∀ d ∈ cs ++ [c], IsStep d) :
    ofComponents (placed absolute (cs ++ [c])) =
      ofComponents (placed absolute cs) ++ "/" ++ c.text := by
  have hfront := fun d hd => h d (List.mem_append_left _ hd)
  rw [ofComponents_placed h, ofComponents_placed hfront, List.map_append, List.map_singleton,
    String.intercalate_append_of_ne_nil (by simpa using hcs) (by simp),
    String.intercalate_singleton]
  simp only [String.append_assoc]

end Texts

/-- The steps of a collapsed path, innermost first: names, then parent steps, then the root if the
path is absolute. -/
def stack (absolute : Bool) (parents : Nat) (names : List String) : List Component :=
  (names.map Component.name).reverse ++ (List.replicate parents .parent ++ placed absolute [])

/-- How often steps lead out of a place that is some names below where they start. -/
def climbsFrom : Nat → List Component → Nat
  | _, [] => 0
  | depth, .name _ :: cs => climbsFrom (depth + 1) cs
  | 0, .parent :: cs => climbsFrom 0 cs + 1
  | depth + 1, .parent :: cs => climbsFrom depth cs
  | depth, _ :: cs => climbsFrom depth cs

/-- How often a path leads out of where it starts. -/
def climbs (s : String) : Nat := climbsFrom 0 (steps s)

variable {absolute : Bool}

theorem step_stack_parent (parents : Nat) :
    step (stack absolute parents []) .parent = stack absolute (parents + 1) [] := by
  cases absolute <;> cases parents <;> rfl

/-- More steps go up one name, or out of the last one, or into one more name. -/
theorem exists_stack_foldl :
    ∀ {cs : List Component} {parents : Nat} {names : List String},
      (∀ c ∈ cs, IsStep c) → (∀ n ∈ names, IsName n) →
      ∃ names', (∀ n ∈ names', IsName n) ∧
        cs.foldl step (stack absolute parents names) =
          stack absolute (parents + climbsFrom names.length cs) names'
  | [], parents, names, _, hnames => ⟨names, hnames, by simp [climbsFrom]⟩
  | c :: cs, parents, names, hsteps, hnames => by
      have hc := hsteps c List.mem_cons_self
      have hcs := fun d hd => hsteps d (List.mem_cons_of_mem _ hd)
      cases c with
      | root => cases hc
      | current => cases hc
      | name s =>
          have hmore : ∀ n ∈ names ++ [s], IsName n :=
            List.forall_mem_append.mpr ⟨hnames, List.forall_mem_singleton.mpr hc⟩
          obtain ⟨names', hnames', hfold⟩ :=
            @exists_stack_foldl cs parents (names ++ [s]) hcs hmore
          refine ⟨names', hnames', ?_⟩
          have hstep : step (stack absolute parents names) (.name s) =
              stack absolute parents (names ++ [s]) := by simp [step, stack]
          rw [List.foldl_cons, hstep, hfold, climbsFrom, List.length_append, List.length_singleton]
      | parent =>
          cases names using List.reverseRecOn with
          | append_singleton before last =>
              have hless := fun n hn => hnames n (List.mem_append_left _ hn)
              obtain ⟨names', hnames', hfold⟩ := @exists_stack_foldl cs parents before hcs hless
              refine ⟨names', hnames', ?_⟩
              have hstep : step (stack absolute parents (before ++ [last])) .parent =
                  stack absolute parents before := by simp [step, stack]
              rw [List.foldl_cons, hstep, hfold, List.length_append, List.length_singleton,
                climbsFrom]
          | nil =>
              obtain ⟨names', hnames', hfold⟩ :=
                @exists_stack_foldl cs (parents + 1) [] hcs (by simp)
              refine ⟨names', hnames', ?_⟩
              rw [List.foldl_cons, step_stack_parent, hfold, List.length_nil, climbsFrom,
                Nat.add_assoc, Nat.add_comm 1]

/-- The steps of a collapsed path from where it starts. -/
theorem reverse_stack (parents : Nat) (names : List String) :
    (stack absolute parents names).reverse =
      placed absolute (List.replicate parents .parent ++ names.map Component.name) := by
  cases absolute <;> simp [stack, placed]

theorem isStep_of_mem_collapsed
    (parents : Nat)
    {names : List String}
    (hnames : ∀ n ∈ names, IsName n) :
    ∀ c ∈ List.replicate parents Component.parent ++ names.map Component.name, IsStep c := by
  intro c hc
  rcases List.mem_append.mp hc with hparent | hname
  · rw [List.eq_of_mem_replicate hparent]
    trivial
  · obtain ⟨n, hn, rfl⟩ := List.mem_map.mp hname
    exact hnames n hn

theorem foldl_step_names (names : List String) (done : List Component) :
    (names.map Component.name).foldl step done = (names.map Component.name).reverse ++ done := by
  induction names generalizing done with
  | nil => rfl
  | cons n names ih =>
      rw [List.map_cons, List.foldl_cons, ih]
      simp [step]

theorem foldl_step_parents (parents before : Nat) :
    (List.replicate parents Component.parent).foldl step (stack absolute before []) =
      stack absolute (before + parents) [] := by
  induction parents generalizing before with
  | zero => rfl
  | succ parents ih =>
      rw [List.replicate_succ, List.foldl_cons, step_stack_parent, ih, Nat.add_assoc,
        Nat.add_comm 1]

/-- Collapsed steps collapse to themselves. -/
theorem foldl_step_collapsed (parents : Nat) (names : List String) :
    (stack absolute parents names).reverse.foldl step [] = stack absolute parents names := by
  have hstart : (stack absolute parents names).reverse.foldl step [] =
      (List.replicate parents Component.parent ++ names.map Component.name).foldl step
        (stack absolute 0 []) := by
    rw [reverse_stack]
    cases absolute <;> rfl
  rw [hstart, List.foldl_append, foldl_step_parents, foldl_step_names]
  simp [stack]

/-- A dot at the start changes nothing. -/
theorem normalComponents_eq (s : String) :
    normalComponents s = ((steps s).foldl step (stack (isAbsolute s) 0 [])).reverse := by
  unfold normalComponents components
  dsimp only
  split
  · rename_i h
    rw [h]
    rfl
  · rename_i h
    rw [Bool.eq_false_iff.mpr h]
    split <;> rfl

/-- Collapsing a path leaves the root if it is absolute, the parent steps that lead out of where it
starts, and names. -/
theorem exists_normalComponents (s : String) :
    ∃ names : List String, (∀ n ∈ names, IsName n) ∧
      normalComponents s = (stack (isAbsolute s) (climbs s) names).reverse := by
  obtain ⟨names, hnames, hfold⟩ :=
    @exists_stack_foldl (isAbsolute s) (steps s) 0 [] isStep_of_mem_steps (by simp)
  refine ⟨names, hnames, ?_⟩
  rw [normalComponents_eq, hfold, List.length_nil, Nat.zero_add]
  rfl

/-- The components of a collapsed path are those that collapsing left. -/
theorem components_normalize (s : String) : components (normalize s) = normalComponents s := by
  obtain ⟨names, hnames, hs⟩ := exists_normalComponents s
  rw [normalize, hs, reverse_stack, components_ofComponents _ (isStep_of_mem_collapsed _ hnames)]

/-- The components of an absolute path start at the root. -/
theorem isAbsolute_iff_head? : isAbsolute s = true ↔ (components s).head? = some .root := by
  have hsteps : (steps s).head? ≠ some .root := fun h =>
    isStep_of_mem_steps _ (List.mem_of_head? h)
  unfold components
  dsimp only
  split
  · rename_i h
    simp [h]
  · rename_i h
    split
    · simp [h]
    · exact iff_of_false h hsteps

theorem isAbsolute_normalize (s : String) : isAbsolute (normalize s) = isAbsolute s := by
  obtain ⟨names, hnames, hs⟩ := exists_normalComponents s
  have hhead : (normalComponents s).head? = some .root ↔ isAbsolute s = true := by
    rw [hs, reverse_stack]
    cases isAbsolute s with
    | true => simp [placed]
    | false =>
        refine iff_of_false (fun h => ?_) (by simp)
        exact isStep_of_mem_collapsed _ hnames .root (List.mem_of_head? h)
  rw [Bool.eq_iff_iff, isAbsolute_iff_head?, components_normalize, hhead]

/-- A collapsed path is collapsed. -/
theorem normalize_normalize (s : String) : normalize (normalize s) = normalize s := by
  obtain ⟨names, -, hs⟩ := exists_normalComponents s
  rw [normalize, normalComponents, components_normalize, hs, foldl_step_collapsed, ← hs, normalize]

theorem join_of_isAbsolute (h : isAbsolute s = true) : join base s = s := by
  rw [join, if_pos h]

theorem isAbsolute_join (h : isAbsolute base = true) : isAbsolute (join base s) = true := by
  unfold join
  split
  · assumption
  · obtain ⟨rest, hrest⟩ := isAbsolute_iff.mp h
    split
    · exact isAbsolute_iff.mpr ⟨rest ++ s.toList, by simp [hrest]⟩
    · exact isAbsolute_iff.mpr ⟨rest ++ '/' :: s.toList, by simp [hrest]⟩

/-- A path that was read from inside an absolute directory stands for itself there. -/
theorem normalize_join_of_eq
    (hroot : isAbsolute root = true)
    (h : normalize (join root path) = s) :
    normalize (join root s) = s := by
  have hjoin : isAbsolute (join root path) = true := isAbsolute_join hroot
  subst h
  rw [join_of_isAbsolute ((isAbsolute_normalize _).trans hjoin), normalize_normalize]

end Path

/-- What is found has an absolute path. -/
theorem FileSystem.isAbsolute_of_canonical?
    {files : FileSystem}
    {path found : String}
    (h : files.canonical? path = some found) :
    Path.isAbsolute found = true := by
  obtain ⟨names, -, rfl⟩ := Option.map_eq_some_iff.mp h
  exact Path.isAbsolute_slash_append

end EndpointPayload
