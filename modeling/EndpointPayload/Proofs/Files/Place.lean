import EndpointPayload.Proofs.Files.Path
import Mathlib.Data.Fintype.EquivFin

/-!
# The places that paths lead to

`Path.go` walks from a list of names along one component, up from the root to the root again.  What
a tree finds at a path is where this walk ends, and collapsing a path does not change where it ends.
A tree that finds a path also finds the collapsed one, since every step of the latter is at a place
that the path has been to.

`Entry.full` is a tree that finds all paths over some names, as far as it is deep.  So two paths
that lead to the same place wherever they are found are walks to the same place from everywhere, and
such paths collapse to the same path, but for the steps out of the root.
-/

namespace EndpointPayload

namespace Path

/-! ## Walks -/

/-- The names that one more component leads to, innermost first. -/
def go : List String → Component → List String
  | _, .root => []
  | names, .current => names
  | names, .parent => names.drop 1
  | names, .name n => n :: names

/-- Taking a component onto a path takes the walk along the path one component on. -/
theorem foldl_go_step (here : List String) (done : List Component) (c : Component) :
    (step done c).reverse.foldl go here = go (done.reverse.foldl go here) c := by
  cases c with
  | root => rfl
  | current => rfl
  | name n => simp [step]
  | parent =>
      cases done with
      | nil => rfl
      | cons last done => cases last <;> simp [step, go]

theorem foldl_go_foldl_step (here : List String) (cs done : List Component) :
    (cs.foldl step done).reverse.foldl go here = cs.foldl go (done.reverse.foldl go here) := by
  induction cs generalizing done with
  | nil => rfl
  | cons c cs ih => rw [List.foldl_cons, ih, foldl_go_step, List.foldl_cons]

theorem foldl_go_normalComponents (here : List String) (s : String) :
    (normalComponents s).foldl go here = (components s).foldl go here :=
  foldl_go_foldl_step here (components s) []

theorem foldl_go_names (here names : List String) :
    (names.map Component.name).foldl go here = names.reverse ++ here := by
  induction names generalizing here with
  | nil => rfl
  | cons n names ih =>
      rw [List.map_cons, List.foldl_cons, ih]
      simp [go]

theorem foldl_go_parents (here : List String) (parents : Nat) :
    (List.replicate parents Component.parent).foldl go here = here.drop parents := by
  induction parents generalizing here with
  | zero => rfl
  | succ parents ih =>
      rw [List.replicate_succ, List.foldl_cons, ih, go, List.drop_drop, Nat.add_comm]

/-- Where a collapsed path leads: up some names and then down its own. -/
theorem foldl_go_stack
    (here : List String)
    (absolute : Bool)
    (parents : Nat)
    (names : List String) :
    (stack absolute parents names).reverse.foldl go here =
      names.reverse ++ if absolute then [] else here.drop parents := by
  rw [reverse_stack]
  cases absolute with
  | true =>
      simp [placed, foldl_go_names, foldl_go_parents, go]
  | false => simp [placed, foldl_go_names, foldl_go_parents]

/-- Some name is none of the given ones. -/
theorem exists_fresh (names : List String) : ∃ name, name ∉ names := by
  obtain ⟨name, hname⟩ := Infinite.exists_notMem_finset names.toFinset
  exact ⟨name, by simpa using hname⟩

/-- Collapsed paths that lead to the same place from everywhere are the same, but for the steps out
of the root. -/
theorem eq_of_forall_foldl_go
    {absolute absolute' : Bool}
    {parents parents' : Nat}
    {names names' : List String}
    (h : ∀ here, (stack absolute parents names).reverse.foldl go here =
      (stack absolute' parents' names').reverse.foldl go here) :
    absolute = absolute' ∧ names = names' ∧ (absolute = false → parents = parents') := by
  simp only [foldl_go_stack] at h
  -- From a place that is deep enough and none of the names, a relative path shows how far it goes
  -- up.
  obtain ⟨fresh, hfresh⟩ := exists_fresh (names ++ names')
  rw [List.mem_append, not_or] at hfresh
  have hcount : ∀ {xs : List String}, fresh ∉ xs → xs.reverse.count fresh = 0 := fun hxs => by
    rw [List.count_reverse, List.count_eq_zero]
    exact hxs
  let depth := parents + parents' + 1
  have hleft : ∀ (a : Bool) (n : Nat),
      (if a then [] else (List.replicate depth fresh).drop n).count fresh =
        if a then 0 else depth - n := fun a n => by
    cases a <;> simp
  have hhere := h (List.replicate depth fresh)
  have hshown := congrArg (List.count fresh) hhere
  rw [List.count_append, List.count_append, hcount hfresh.1, hcount hfresh.2, hleft,
    hleft] at hshown
  have habsolute : absolute = absolute' := by
    cases absolute <;> cases absolute' <;> simp [depth] at hshown ⊢ <;> omega
  subst habsolute
  have hparents : absolute = false → parents = parents' := by
    rintro rfl
    simp only [Bool.false_eq_true, if_false] at hshown
    omega
  have hnames : names.reverse = names'.reverse := by
    cases absolute with
    | true => simpa using hhere
    | false =>
        rw [hparents rfl] at hhere
        exact List.append_cancel_right hhere
  exact ⟨rfl, List.reverse_inj.mp hnames, hparents⟩

end Path

/-! ## Walks in a tree -/

namespace FileSystem

variable {tree : Entry} {names found here : List String} {c : Component} {cs : List Component}

/-- The names that one more component is found at, from a place that has to be a directory. -/
def move? (tree : Entry) (names : List String) (c : Component) : Option (List String) :=
  match tree.at? names.reverse with
  | some (.directory es) =>
    match c with
    | .name n => if (Entry.child? n es).isSome then some (n :: names) else none
    | c => some (Path.go names c)
  | _ => none

theorem follow_cons (tree : Entry) (names : List String) (c : Component) (cs : List Component) :
    follow tree names (c :: cs) = (move? tree names c).bind fun next => follow tree next cs := by
  unfold move?
  rw [follow]
  cases tree.at? names.reverse with
  | none => rfl
  | some e =>
      cases e with
      | file text => rfl
      | directory es =>
          cases c with
          | name n =>
              dsimp only
              split <;> rfl
          | _ => rfl

/-- What one more component finds, it finds from a directory, and where the walk goes. -/
theorem of_move?
    (h : move? tree names c = some found) :
    (∃ es, tree.at? names.reverse = some (.directory es)) ∧ found = Path.go names c := by
  unfold move? at h
  split at h
  · rename_i es hdirectory
    refine ⟨⟨es, hdirectory⟩, ?_⟩
    split at h
    · exact (Option.some.inj (Option.ite_none_right_eq_some.mp h).2).symm
    · exact (Option.some.inj h).symm
  · cases h

/-- What is found at a path is where the walk along it ends. -/
theorem foldl_go_of_follow
    (h : follow tree names cs = some found) :
    found = cs.foldl Path.go names := by
  induction cs generalizing names with
  | nil =>
      rw [follow] at h
      exact (Option.some.inj (Option.ite_none_right_eq_some.mp h).2).symm
  | cons c cs ih =>
      rw [follow_cons] at h
      obtain ⟨next, hmove, hfollow⟩ := Option.bind_eq_some_iff.mp h
      rw [List.foldl_cons, ← (of_move? hmove).2]
      exact ih hfollow

/-- Only what is there can be gone on from. -/
theorem isSome_at?_of_follow
    (h : follow tree names cs = some found) :
    (tree.at? names.reverse).isSome := by
  cases cs with
  | nil =>
      rw [follow] at h
      exact (Option.ite_none_right_eq_some.mp h).1
  | cons c cs =>
      rw [follow_cons] at h
      obtain ⟨next, hmove, -⟩ := Option.bind_eq_some_iff.mp h
      obtain ⟨⟨es, hdirectory⟩, -⟩ := of_move? hmove
      rw [hdirectory, Option.isSome_some]

theorem follow_append (cs ds : List Component) :
    follow tree names (cs ++ ds) = (follow tree names cs).bind fun next => follow tree next ds := by
  induction cs generalizing names with
  | nil =>
      rw [List.nil_append, follow]
      split
      · rfl
      · rename_i hmissing
        rw [Option.bind_none, Option.eq_none_iff_forall_not_mem]
        intro found hfound
        exact hmissing (isSome_at?_of_follow hfound)
  | cons c cs ih =>
      rw [List.cons_append, follow_cons, follow_cons, Option.bind_assoc]
      exact congrArg _ (funext fun next => ih)

/-- A walk that goes on from somewhere starts at a directory. -/
theorem exists_directory_of_follow
    (h : follow tree names (c :: cs) = some found) :
    ∃ es, tree.at? names.reverse = some (.directory es) := by
  rw [follow_cons] at h
  obtain ⟨next, hmove, -⟩ := Option.bind_eq_some_iff.mp h
  exact (of_move? hmove).1

/-- Where a directory is, a dot finds it again, and a slash finds the root. -/
theorem follow_of_directory
    {es : List (String × Entry)}
    (h : tree.at? names.reverse = some (.directory es)) :
    follow tree names [] = some names ∧ follow tree names [.root] = some [] := by
  constructor
  · rw [follow, h]
    rfl
  · rw [follow, h]
    rfl

/-- Taking a component onto a path keeps what is found. -/
theorem follow_step
    {done : List Component}
    (h : follow tree here (done.reverse ++ [c]) = some found) :
    follow tree here (Path.step done c).reverse = some found := by
  have hend := foldl_go_of_follow h
  rw [List.foldl_append] at hend
  cases c with
  | name n =>
      rw [Path.step, List.reverse_cons]
      exact h
  | root =>
      obtain ⟨first, rest, hfirst⟩ := List.exists_cons_of_ne_nil
        (List.append_ne_nil_of_right_ne_nil done.reverse (List.cons_ne_nil Component.root []))
      obtain ⟨es, hdirectory⟩ := exists_directory_of_follow (hfirst ▸ h)
      rw [hend]
      exact (follow_of_directory hdirectory).2
  | current =>
      obtain ⟨middle, hdone, -⟩ := Option.bind_eq_some_iff.mp ((follow_append _ _).symm.trans h)
      rw [hend, ← foldl_go_of_follow hdone]
      exact hdone
  | parent =>
      cases done with
      | nil => exact h
      | cons last done =>
          cases last with
          | name n =>
              -- One name down and up again: what was found before the name.
              rw [List.reverse_cons, List.append_assoc] at h
              obtain ⟨middle, hdone, -⟩ :=
                Option.bind_eq_some_iff.mp ((follow_append _ _).symm.trans h)
              rw [hend, List.reverse_cons, List.foldl_append, ← foldl_go_of_follow hdone]
              exact hdone
          | _ => simpa [Path.step] using h

/-- A tree that finds a path finds the collapsed path at the same place. -/
theorem follow_foldl_step
    {done : List Component}
    (h : follow tree here (done.reverse ++ cs) = some found) :
    follow tree here (cs.foldl Path.step done).reverse = some found := by
  induction cs generalizing done with
  | nil => rwa [List.append_nil] at h
  | cons c cs ih =>
      rw [List.append_cons, follow_append] at h
      obtain ⟨middle, hdone, hrest⟩ := Option.bind_eq_some_iff.mp h
      refine ih ?_
      rw [follow_append, follow_step hdone]
      exact hrest

theorem follow_normalComponents
    {s : String}
    (h : follow tree here (Path.components s) = some found) :
    follow tree here (Path.normalComponents s) = some found :=
  @follow_foldl_step _ _ _ _ [] h

end FileSystem

/-! ## Full trees -/

namespace Entry

variable {names : List String} {name : String} {e : Entry}

/-- Directories in which every one of some names is a directory, down to some depth. -/
def full (names : List String) : Nat → Entry
  | 0 => .directory []
  | depth + 1 => .directory (names.map fun name => (name, full names depth))

theorem child?_map (h : name ∈ names) : child? name (names.map fun n => (n, e)) = some e := by
  induction names with
  | nil => cases h
  | cons n names ih =>
      rw [List.map_cons, child?]
      split
      · rfl
      · rename_i hne
        exact ih (List.mem_of_ne_of_mem (Ne.symm hne) h)

theorem at?_full :
    ∀ {path : List String} {depth : Nat}, path ⊆ names → path.length ≤ depth →
      (full names depth).at? path = some (full names (depth - path.length))
  | [], depth, _, _ => by simp [at?]
  | name :: path, 0, _, hdepth => by simp at hdepth
  | name :: path, depth + 1, hpath, hdepth => by
      rw [List.cons_subset] at hpath
      rw [full, at?, child?_map hpath.1]
      dsimp only
      rw [at?_full hpath.2 (by simpa using hdepth), List.length_cons, Nat.add_sub_add_right]

end Entry

namespace FileSystem

section Full

variable {names here : List String} {c : Component} {cs : List Component} {depth : Nat}

theorem move?_full
    (hhere : here ⊆ names)
    (hc : ∀ n, c = .name n → n ∈ names)
    (hdepth : here.length < depth) :
    move? (Entry.full names depth) here c = some (Path.go here c) := by
  obtain ⟨left, hleft⟩ := Nat.exists_eq_succ_of_ne_zero (Nat.sub_ne_zero_of_lt hdepth)
  have hat : (Entry.full names depth).at? here.reverse = some (Entry.full names (left + 1)) := by
    rw [Entry.at?_full (by simpa using hhere) (by simpa using hdepth.le), List.length_reverse,
      hleft]
  unfold move?
  rw [hat, Entry.full]
  cases c with
  | name n =>
      dsimp only
      rw [Entry.child?_map (hc n rfl), Option.isSome_some, if_pos rfl]
      rfl
  | _ => rfl

theorem go_subset
    (hhere : here ⊆ names)
    (hc : ∀ n, c = .name n → n ∈ names) :
    Path.go here c ⊆ names ∧ (Path.go here c).length ≤ here.length + 1 := by
  cases c with
  | root => simp [Path.go]
  | current => simpa [Path.go] using hhere
  | parent =>
      refine ⟨List.Subset.trans (List.drop_subset 1 here) hhere, ?_⟩
      simp only [Path.go, List.length_drop]
      omega
  | name n => exact ⟨List.cons_subset.mpr ⟨hc n rfl, hhere⟩, Nat.le_refl _⟩

/-- In a full tree every walk that stays above its depth finds something. -/
theorem follow_full
    (hcs : ∀ n, Component.name n ∈ cs → n ∈ names)
    (hhere : here ⊆ names)
    (hdepth : here.length + cs.length ≤ depth) :
    follow (Entry.full names depth) here cs = some (cs.foldl Path.go here) := by
  induction cs generalizing here with
  | nil =>
      rw [follow, Entry.at?_full (by simpa using hhere) (by simpa using hdepth)]
      rfl
  | cons c cs ih =>
      rw [List.length_cons] at hdepth
      have hc : ∀ n, c = .name n → n ∈ names := fun n hn => hcs n (hn ▸ List.mem_cons_self)
      obtain ⟨hsubset, hlength⟩ := go_subset hhere hc
      rw [follow_cons, move?_full hhere hc (by omega), Option.bind_some, List.foldl_cons]
      exact ih (fun n hn => hcs n (List.mem_cons_of_mem _ hn)) hsubset (by omega)

/-- All that a full tree finds are directories. -/
theorem exists_directory_of_full
    (hcs : ∀ n, Component.name n ∈ cs → n ∈ names)
    (hhere : here ⊆ names)
    (hdepth : here.length + cs.length < depth) :
    ∃ es, (Entry.full names depth).at? (cs.foldl Path.go here).reverse = some (.directory es) := by
  have hfollow : follow (Entry.full names depth) here cs = some (cs.foldl Path.go here) :=
    follow_full hcs hhere hdepth.le
  -- One more dot is found only where a directory is.
  have hdot : follow (Entry.full names depth) here (cs ++ [Component.current]) =
      some ((cs ++ [Component.current]).foldl Path.go here) :=
    follow_full (by simpa using hcs) hhere (by rw [List.length_append]; exact hdepth)
  rw [follow_append, hfollow, Option.bind_some] at hdot
  exact exists_directory_of_follow hdot

end Full

/-! ## Places -/

/-- A path that is not blank; the blank path, which has no components, is read as a dot. -/
def dotted (path : String) : String := if path = "" then "." else path

/-- The names that lead to what a path finds. -/
def place? (fs : FileSystem) (path : String) : Option (List String) := fs.locate? (dotted path)

variable {fs : FileSystem} {path : String} {found here : List String}

theorem dotted_ne_blank (path : String) : dotted path ≠ "" := by
  unfold dotted
  split
  · decide
  · assumption

theorem components_dotted (path : String) :
    Path.components (dotted path) = Path.components path ∨
      Path.components (dotted path) = [.current] ∧ Path.components path = [] := by
  unfold dotted
  split
  · rename_i hblank
    rw [hblank]
    exact .inr (by decide +kernel)
  · exact .inl rfl

theorem foldl_go_dotted (here : List String) (path : String) :
    (Path.components (dotted path)).foldl Path.go here =
      (Path.components path).foldl Path.go here := by
  rcases components_dotted path with h | ⟨hdot, hblank⟩
  · rw [h]
  · rw [hdot, hblank]
    rfl

theorem normalComponents_dotted (path : String) :
    Path.normalComponents (dotted path) = Path.normalComponents path := by
  unfold Path.normalComponents
  rcases components_dotted path with h | ⟨hdot, hblank⟩
  · rw [h]
  · rw [hdot, hblank]
    rfl

/-- A place is found by following the path, and it is no file where the path means a directory. -/
theorem place?_eq_some_iff :
    fs.place? path = some found ↔
      follow fs.tree fs.here.reverse (Path.components (dotted path)) = some found.reverse ∧
        ∀ text, fs.tree.at? found = some (.file text) → meansDirectory (dotted path) = false := by
  unfold place? locate?
  rw [if_neg (dotted_ne_blank path)]
  cases hfollow : follow fs.tree fs.here.reverse (Path.components (dotted path)) with
  | none => simp
  | some names =>
      have hfound : some names = some found.reverse ↔ names.reverse = found := by
        rw [Option.some.injEq, ← List.reverse_inj, List.reverse_reverse]
      dsimp only
      rw [hfound]
      split
      · rename_i text hfile
        split
        · rename_i hmeans
          refine iff_of_false (by simp) fun ⟨hnames, hfiles⟩ => ?_
          rw [hfiles text (hnames ▸ hfile)] at hmeans
          cases hmeans
        · rename_i hmeans
          refine ⟨fun h => ⟨Option.some.inj h, fun _ _ => Bool.eq_false_iff.mpr hmeans⟩,
            fun h => ?_⟩
          rw [h.1]
      · rename_i hother
        refine ⟨fun h => ?_, fun h => congrArg some h.1⟩
        have hnames := Option.some.inj h
        exact ⟨hnames, fun text hfile => absurd (hnames ▸ hfile) (hother text)⟩

/-- What is found is where the walk ends. -/
theorem place?_eq
    (h : fs.place? path = some found) :
    found = ((Path.components path).foldl Path.go fs.here.reverse).reverse := by
  have hend := foldl_go_of_follow (place?_eq_some_iff.mp h).1
  rw [foldl_go_dotted] at hend
  rw [← hend, List.reverse_reverse]

/-- A text that is not blank has a component. -/
theorem components_ne_nil (h : path ≠ "") : Path.components path ≠ [] := by
  unfold Path.components
  dsimp only
  split
  · exact List.cons_ne_nil _ _
  · rename_i hrelative
    cases hpieces : Text.splitChars '/' path.toList with
    | nil => exact absurd hpieces (Text.splitChars_ne_nil _ _)
    | cons piece rest =>
        have htext := Text.append_flatMap_of_splitChars hpieces
        have hpiece : piece ≠ [] := by
          rintro rfl
          cases rest with
          | nil => exact h (String.ext htext.symm)
          | cons next rest =>
              rw [List.nil_append, List.flatMap_cons, List.cons_append] at htext
              exact hrelative (Path.isAbsolute_iff.mpr ⟨_, htext.symm⟩)
        rw [Path.pieces, Text.split, hpieces, List.map_cons, List.head?_cons]
        split
        · exact List.cons_ne_nil _ _
        · rename_i hdot
          rw [Option.some.injEq] at hdot
          have hread : Path.component? (String.ofList piece) ≠ none := by
            simp [Path.component?, hpiece, hdot]
            split <;> simp
          obtain ⟨c, hc⟩ := Option.ne_none_iff_exists'.mp hread
          rw [List.filterMap_cons_some hc]
          exact List.cons_ne_nil _ _

/-- A collapsed path that can only mean a directory is the root. -/
theorem components_normalize_of_meansDirectory
    (h : meansDirectory (dotted (Path.normalize path)) = true) :
    Path.components (Path.normalize path) = [.root] := by
  obtain ⟨names, hnames, hpath⟩ := Path.exists_normalComponents path
  have hsteps := Path.isStep_of_mem_collapsed (Path.climbs path) hnames
  rw [Path.reverse_stack] at hpath
  rw [Path.components_normalize, hpath]
  cases hcollapsed : List.replicate (Path.climbs path) Component.parent ++
      names.map Component.name with
  | cons c cs =>
      rw [hcollapsed] at hsteps hpath
      have hmeans := Path.meansDirectory_ofComponents (Path.isAbsolute path)
        (List.cons_ne_nil c cs) hsteps
      rw [← hpath] at hmeans
      unfold dotted at h
      split at h
      · exact absurd h (by decide +kernel)
      · rw [Path.normalize, hmeans] at h
        cases h
  | nil =>
      rw [hcollapsed] at hpath
      cases habsolute : Path.isAbsolute path with
      | true => rfl
      | false =>
          rw [habsolute] at hpath
          rw [Path.normalize, hpath] at h
          exact absurd h (by decide +kernel)

/-- Where a path is found, the collapsed path is found, and at the same place. -/
theorem place?_normalize
    (h : fs.place? path = some found) :
    fs.place? (Path.normalize path) = some found := by
  obtain ⟨hfollow, hfiles⟩ := place?_eq_some_iff.mp h
  have hnormal := follow_normalComponents hfollow
  rw [normalComponents_dotted, ← Path.components_normalize] at hnormal
  -- The walk starts at a directory, for there is a component to follow.
  obtain ⟨c, cs, hcs⟩ := List.exists_cons_of_ne_nil (components_ne_nil (dotted_ne_blank path))
  obtain ⟨es, hstart⟩ := exists_directory_of_follow (hcs ▸ hfollow)
  refine place?_eq_some_iff.mpr ⟨?_, fun text hfile => ?_⟩
  · rcases components_dotted (Path.normalize path) with hsame | ⟨hdot, hblank⟩
    · rw [hsame]
      exact hnormal
    · rw [hblank] at hnormal
      rw [hdot, follow, hstart]
      exact hnormal
  · rw [Bool.eq_false_iff]
    intro hmeans
    rw [components_normalize_of_meansDirectory hmeans] at hnormal
    have hroot : found.reverse = [] := foldl_go_of_follow hnormal
    rw [List.reverse_eq_nil_iff] at hroot
    rw [hroot, Entry.at?, Option.some.injEq] at hfile
    rw [hfile] at hstart
    cases hhere : fs.here.reverse.reverse with
    | nil =>
        rw [hhere] at hstart
        cases hstart
    | cons n names =>
        rw [hhere] at hstart
        cases hstart

theorem place?_full
    {names : List String}
    {depth : Nat}
    (hcs : ∀ n, Component.name n ∈ Path.components (dotted path) → n ∈ names)
    (hhere : here ⊆ names)
    (hdepth : here.length + (Path.components (dotted path)).length < depth) :
    (FileSystem.mk (Entry.full names depth) here).place? path =
      some ((Path.components path).foldl Path.go here.reverse).reverse := by
  have hback : here.reverse ⊆ names := by simpa using hhere
  rw [← List.length_reverse] at hdepth
  obtain ⟨es, hdirectory⟩ := exists_directory_of_full hcs hback hdepth
  rw [place?_eq_some_iff, List.reverse_reverse, ← foldl_go_dotted]
  refine ⟨follow_full hcs hback hdepth.le, fun text hfile => ?_⟩
  rw [hdirectory] at hfile
  cases hfile

/-- Some tree finds both of two paths, read from any place. -/
theorem exists_place? (here : List String) (p q : String) :
    ∃ fs : FileSystem, fs.here = here ∧
      fs.place? p = some ((Path.components p).foldl Path.go here.reverse).reverse ∧
      fs.place? q = some ((Path.components q).foldl Path.go here.reverse).reverse := by
  let cs := Path.components (dotted p) ++ Path.components (dotted q)
  let names := here ++ cs.map Component.text
  have hhere : here ⊆ names := List.subset_append_left _ _
  have hnames : ∀ n, Component.name n ∈ cs → n ∈ names := fun n hn =>
    List.mem_append_right _ (List.mem_map.mpr ⟨.name n, hn, rfl⟩)
  have hcs : cs.length =
      (Path.components (dotted p)).length + (Path.components (dotted q)).length :=
    List.length_append
  refine ⟨⟨Entry.full names (here.length + cs.length + 1), here⟩, rfl, ?_, ?_⟩
  · exact place?_full (fun n hn => hnames n (List.mem_append_left _ hn)) hhere (by omega)
  · exact place?_full (fun n hn => hnames n (List.mem_append_right _ hn)) hhere (by omega)

end FileSystem

/-! ## The same location -/

namespace Path

/-- Two paths lead to the same place in every tree that has what they lead to, wherever they are
read from. -/
def SameLocation (p q : String) : Prop :=
  ∀ (fs : FileSystem) (a b : List String), fs.place? p = some a → fs.place? q = some b → a = b

theorem sameLocation_iff {p q : String} :
    SameLocation p q ↔ ∀ here, (components p).foldl go here = (components q).foldl go here := by
  constructor
  · intro h here
    obtain ⟨fs, hfs, hp, hq⟩ := FileSystem.exists_place? here.reverse p q
    simpa using h fs _ _ hp hq
  · intro h fs a b ha hb
    rw [FileSystem.place?_eq ha, FileSystem.place?_eq hb, h]

theorem count_parent_stack (absolute : Bool) (parents : Nat) (names : List String) :
    (stack absolute parents names).count .parent = parents := by
  have hnames : Component.parent ∉ (names.map Component.name).reverse := by simp
  cases absolute <;> simp [stack, placed, List.count_eq_zero.mpr hnames]

/-- Paths collapse to the same path if they lead to the same place, and absolute ones climb out of
the root equally often. -/
theorem normalize_eq_iff (p q : String) :
    normalize p = normalize q ↔
      SameLocation p q ∧ (isAbsolute p = true → climbs p = climbs q) := by
  obtain ⟨names, -, hp⟩ := exists_normalComponents p
  obtain ⟨names', -, hq⟩ := exists_normalComponents q
  constructor
  · intro h
    have hcomponents : normalComponents p = normalComponents q := by
      rw [← components_normalize, ← components_normalize, h]
    refine ⟨sameLocation_iff.mpr fun here => ?_, fun _ => ?_⟩
    · rw [← foldl_go_normalComponents, ← foldl_go_normalComponents, hcomponents]
    · rw [hp, hq, List.reverse_inj] at hcomponents
      simpa [count_parent_stack] using congrArg (List.count .parent) hcomponents
  · rintro ⟨hsame, hclimbs⟩
    have hwalks : ∀ here, (stack (isAbsolute p) (climbs p) names).reverse.foldl go here =
        (stack (isAbsolute q) (climbs q) names').reverse.foldl go here := fun here => by
      rw [← hp, ← hq, foldl_go_normalComponents, foldl_go_normalComponents]
      exact sameLocation_iff.mp hsame here
    obtain ⟨habsolute, rfl, hrelative⟩ := eq_of_forall_foldl_go hwalks
    have hparents : climbs p = climbs q := by
      cases hp' : isAbsolute p with
      | true => exact hclimbs hp'
      | false => exact hrelative hp'
    rw [normalize, normalize, hp, hq, habsolute, hparents]

end Path
end EndpointPayload
