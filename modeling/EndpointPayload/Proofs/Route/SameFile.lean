import EndpointPayload.Proofs.Files.Place
import EndpointPayload.Proofs.Route.Bindings
import EndpointPayload.Route.Workspace

/-!
# Files that meet by their paths

What an import means is a collapsed path with an ending or an index file put to it, and it is still
collapsed: the ending makes a name of the last component, whatever that is.  The files of a project
are collapsed too, and all mounts between files are of what imports mean.  So an import and a file
of the project that lead to the same place have the same path, unless one of them climbs out of the
root more often than the other.
-/

namespace EndpointPayload

open Source

namespace Path

section Collapsed

variable {absolute : Bool} {parents : Nat} {names : List String} {n s e : String}

/-- The text of the root if the path is absolute, of parent steps and of names. -/
def collapsed (absolute : Bool) (parents : Nat) (names : List String) : String :=
  ofComponents (stack absolute parents names).reverse

theorem exists_collapsed (s : String) :
    ∃ names, (∀ n ∈ names, IsName n) ∧
      normalize s = collapsed (isAbsolute s) (climbs s) names := by
  obtain ⟨names, hnames, hs⟩ := exists_normalComponents s
  exact ⟨names, hnames, congrArg ofComponents hs⟩

theorem components_collapsed (hnames : ∀ n ∈ names, IsName n) :
    components (collapsed absolute parents names) = (stack absolute parents names).reverse := by
  rw [collapsed, reverse_stack, components_ofComponents _ (isStep_of_mem_collapsed _ hnames)]

theorem normalize_collapsed (hnames : ∀ n ∈ names, IsName n) :
    normalize (collapsed absolute parents names) = collapsed absolute parents names := by
  rw [normalize, normalComponents, components_collapsed hnames, foldl_step_collapsed, collapsed]

theorem isAbsolute_of_isName (h : IsName n) : isAbsolute n = false := by
  rw [Bool.eq_false_iff]
  intro habsolute
  obtain ⟨rest, hrest⟩ := isAbsolute_iff.mp habsolute
  exact h.no_slash (by simp [hrest])

theorem collapsed_eq (absolute : Bool) (parents : Nat) (names : List String) :
    collapsed absolute parents names =
      ofComponents (placed absolute (List.replicate parents .parent ++ names.map .name)) :=
  congrArg ofComponents (reverse_stack parents names)

/-- A name joined to a collapsed path is one name more. -/
theorem join_collapsed
    (hnames : ∀ n ∈ names, IsName n)
    (hn : IsName n) :
    join (collapsed absolute parents names) n = collapsed absolute parents (names ++ [n]) := by
  have hsteps := isStep_of_mem_collapsed parents hnames
  rw [collapsed_eq, collapsed_eq, List.map_append, List.map_singleton, ← List.append_assoc, join,
    isAbsolute_of_isName hn, if_neg Bool.false_ne_true]
  generalize List.replicate parents Component.parent ++ names.map Component.name = cs at hsteps
  by_cases hcs : cs = []
  · rw [hcs]
    cases absolute with
    | true => simp [placed, ofComponents, endsWith_iff, Component.text]
    | false => simp [placed, ofComponents, Component.text]
  · have hfile := meansDirectory_ofComponents absolute hcs hsteps
    rw [FileSystem.meansDirectory, Bool.or_eq_false_iff] at hfile
    have hblank : ofComponents (placed absolute cs) ≠ "" := fun h => by
      have hread := components_ofComponents absolute hsteps
      rw [h] at hread
      cases absolute with
      | true => cases hread
      | false => exact hcs hread.symm
    have hall : ∀ c ∈ cs ++ [.name n], IsStep c :=
      List.forall_mem_append.mpr ⟨hsteps, List.forall_mem_singleton.mpr hn⟩
    rw [hfile.1, Bool.or_false, if_neg (by simpa using hblank), ofComponents_concat hcs hall,
      Component.text]

/-- An ending makes a name of the last step. -/
theorem ofComponents_append
    {cs : List Component}
    {c : Component}
    (hcs : ∀ d ∈ cs ++ [c], IsStep d)
    (he : IsName (c.text ++ e)) :
    ofComponents (placed absolute (cs ++ [c])) ++ e =
      ofComponents (placed absolute (cs ++ [.name (c.text ++ e)])) := by
  have hall : ∀ d ∈ cs ++ [.name (c.text ++ e)], IsStep d :=
    List.forall_mem_append.mpr
      ⟨fun d hd => hcs d (List.mem_append_left _ hd), List.forall_mem_singleton.mpr he⟩
  by_cases hempty : cs = []
  · rw [ofComponents_placed hcs, ofComponents_placed hall, hempty]
    simp [Component.text, String.append_assoc]
  · rw [ofComponents_concat hempty hcs, ofComponents_concat hempty hall]
    simp only [Component.text, String.append_assoc]

/-- An ending makes a name of the last component of a collapsed path, and of nothing too. -/
theorem exists_collapsed_append
    (absolute : Bool)
    (parents : Nat)
    (hnames : ∀ n ∈ names, IsName n)
    (hname : IsName e)
    (he : ∀ c, IsStep c → IsName (c.text ++ e)) :
    ∃ parents' names', (∀ n ∈ names', IsName n) ∧
      collapsed absolute parents names ++ e = collapsed absolute parents' names' := by
  have hsteps := isStep_of_mem_collapsed parents hnames
  cases names using List.reverseRecOn with
  | append_singleton before last =>
      have hlast := he (.name last) (hnames last (by simp))
      refine ⟨parents, before ++ [last ++ e], ?_, ?_⟩
      · exact List.forall_mem_append.mpr
          ⟨fun n hn => hnames n (List.mem_append_left _ hn), List.forall_mem_singleton.mpr hlast⟩
      · rw [List.map_append, List.map_singleton, ← List.append_assoc] at hsteps
        rw [collapsed_eq, collapsed_eq, List.map_append, List.map_append, List.map_singleton,
          List.map_singleton, ← List.append_assoc, ← List.append_assoc]
        exact ofComponents_append hsteps hlast
  | nil =>
      cases parents with
      | zero =>
          refine ⟨0, [e], List.forall_mem_singleton.mpr hname, ?_⟩
          cases absolute <;> simp [collapsed_eq, placed, ofComponents, Component.text]
      | succ parents =>
          have hparent := he .parent trivial
          refine ⟨parents, [".." ++ e], List.forall_mem_singleton.mpr hparent, ?_⟩
          rw [List.map_nil, List.append_nil, List.replicate_succ'] at hsteps
          rw [collapsed_eq, collapsed_eq, List.map_nil, List.append_nil, List.replicate_succ',
            List.map_singleton]
          exact ofComponents_append hsteps hparent

end Collapsed

end Path

namespace Specifier

variable {files : FileSystem} {file spec base target s e : String}

theorem isName_of_length
    (hlength : 2 < s.toList.length)
    (hslash : '/' ∉ s.toList) :
    Path.IsName s where
  ne_blank := by
    rintro rfl
    simp at hlength
  ne_current := by
    rintro rfl
    simp at hlength
  ne_parent := by
    rintro rfl
    simp at hlength
  no_slash := hslash

/-- An ending is a name, and it makes names of an index and of every step. -/
theorem isName_of_mem_extensions (he : e ∈ extensions) :
    Path.IsName ("." ++ e) ∧ Path.IsName ("index." ++ e) ∧
      ∀ c, Path.IsStep c → Path.IsName (c.text ++ ("." ++ e)) := by
  have hending : ∀ x ∈ extensions, x.toList.length ≥ 2 ∧ '/' ∉ x.toList := by decide
  obtain ⟨hlength, hslash⟩ := hending e he
  refine ⟨isName_of_length ?_ ?_, isName_of_length ?_ ?_, fun c hc => isName_of_length ?_ ?_⟩
  · simp
    omega
  · simp [hslash]
  · simp
  · simp [hslash]
  · simp
    omega
  · simp [hslash, Path.no_slash_text hc]

/-- What an import may mean is collapsed if its base is. -/
theorem normalize_of_mem_candidates
    (hbase : Path.normalize base = base)
    (h : target ∈ candidates base) :
    Path.normalize target = target := by
  obtain ⟨names, hnames, hbase'⟩ := Path.exists_collapsed base
  rw [hbase] at hbase'
  rw [candidates, List.mem_cons, List.mem_append, List.mem_map, List.mem_map] at h
  rcases h with rfl | ⟨e, he, rfl⟩ | ⟨e, he, rfl⟩
  · exact hbase
  · obtain ⟨hending, -, hstep⟩ := isName_of_mem_extensions he
    obtain ⟨parents', names', hnames', htext⟩ :=
      Path.exists_collapsed_append (Path.isAbsolute base) (Path.climbs base) hnames hending hstep
    rw [hbase', String.append_assoc, htext, Path.normalize_collapsed hnames']
  · obtain ⟨-, hindex, -⟩ := isName_of_mem_extensions he
    rw [hbase', Path.join_collapsed hnames hindex]
    exact Path.normalize_collapsed
      (List.forall_mem_append.mpr ⟨hnames, List.forall_mem_singleton.mpr hindex⟩)

/-- What an import means is collapsed. -/
theorem normalize_of_imported?
    (h : files.imported? file spec = some target) :
    Path.normalize target = target := by
  obtain ⟨-, h⟩ := Option.ite_none_right_eq_some.mp h
  exact normalize_of_mem_candidates (Path.normalize_normalize _) (List.mem_of_find?_eq_some h)

end Specifier

/-! ## Mounts between files -/

namespace Binding

/-- The file that a binding is from. -/
def origin : Binding → String
  | file _ f => f
  | item _ i => i.file

variable {files : FileSystem} {script source : String} {node part value : Tree} {b : Binding}

theorem ClauseBrings.origin_eq (h : ClauseBrings source part b) : b.origin = source := by
  cases h <;> rfl

theorem PatternBrings.origin_eq (h : PatternBrings source part b) : b.origin = source := by
  cases h <;> rfl

/-- A required file is one that an import means. -/
theorem Requires.exists_imported?
    {member : Option String}
    (h : Requires files script value source member) :
    ∃ spec, files.imported? script spec = some source := by
  induction h with
  | file _ _ _ hsource => exact ⟨_, hsource⟩
  | member _ _ _ ih => exact ih

/-- A binding is from a file that an import means. -/
theorem Brings.exists_imported? (h : Brings files script node b) :
    ∃ spec, files.imported? script spec = some b.origin := by
  cases h with
  | clause _ hsource _ _ _ hb =>
      rw [hb.origin_eq]
      exact ⟨_, hsource⟩
  | importRequire _ hsource _ _ _ => exact ⟨_, hsource⟩
  | requiredFile _ hvalue _ => exact hvalue.exists_imported?
  | requiredMember _ hvalue _ => exact hvalue.exists_imported?
  | pattern _ hvalue _ _ hb =>
      rw [hb.origin_eq]
      exact hvalue.exists_imported?

end Binding

namespace Imports

/-- A name stands for a file that an import means. -/
theorem exists_imported?_of_file?
    {files : FileSystem}
    {script : Script}
    {name file : String}
    (h : (ofScript files script).file? name = some file) :
    ∃ spec, files.imported? script.path spec = some file := by
  have hbinding : ∃ b ∈ (ofScript files script).bindings, b.origin = file := by
    rcases Option.or_eq_some_iff.mp h with hmodule | ⟨-, hitem⟩
    · obtain ⟨b, hb, hfile⟩ := List.exists_of_findSome?_eq_some hmodule
      refine ⟨b, List.mem_reverse.mp hb, ?_⟩
      cases b with
      | file n f => exact Option.some.inj (Option.ite_none_right_eq_some.mp hfile).2
      | item n i => cases hfile
    · obtain ⟨i, hi, rfl⟩ := Option.map_eq_some_iff.mp hitem
      obtain ⟨b, hb, hexport⟩ := List.exists_of_findSome?_eq_some hi
      refine ⟨b, List.mem_reverse.mp hb, ?_⟩
      cases b with
      | file n f => cases hexport
      | item n j =>
          exact congrArg Export.file (Option.some.inj (Option.ite_none_right_eq_some.mp hexport).2)
  obtain ⟨b, hb, rfl⟩ := hbinding
  obtain ⟨node, -, hbrings⟩ := mem_bindings_iff.mp hb
  exact hbrings.exists_imported?

end Imports

namespace Mounts

theorem exists_imported?_of_mountAt?
    {files : FileSystem}
    {script file : String}
    {node : Tree}
    {m : Mount}
    (h : mountAt? files script node = some m)
    (hm : m.target = .file file) :
    ∃ spec, files.imported? script spec = some file := by
  have htarget : ∃ argument, target? files script argument = some (.file file) := by
    unfold mountAt? at h
    split at h
    · split at h
      · rename_i path target hpath hargument
        cases h
        dsimp only at hm
        rw [hm] at hargument
        exact ⟨_, hargument⟩
      · cases h
    · cases h
  obtain ⟨argument, hargument⟩ := htarget
  unfold target? at hargument
  split at hargument
  · cases hargument
  · obtain ⟨found, hfound, hfile⟩ := Option.map_eq_some_iff.mp hargument
    cases hfile
    exact (Binding.requiredFile?_eq_some_iff.mp hfound).exists_imported?
  · cases hargument

end Mounts

namespace Workspace

variable {w : Workspace} {e : MountEdge String} {path : String}

/-- All mounts between files are of files that imports mean. -/
theorem exists_imported?_of_mem_edges (h : e ∈ FileRoutes.edges w.readable) :
    ∃ file spec, w.files.imported? file spec = some e.target := by
  obtain ⟨f, hf, hedge⟩ := List.mem_flatMap.mp h
  obtain ⟨m, hm, he⟩ := List.mem_filterMap.mp hedge
  obtain ⟨read, -, hread⟩ := List.mem_filterMap.mp hf
  obtain ⟨script, -, rfl⟩ := Option.map_eq_some_iff.mp hread
  obtain ⟨node, -, hmount⟩ := List.mem_filterMap.mp hm
  refine ⟨script.path, ?_⟩
  unfold FileRoutes.edge? at he
  dsimp only at he
  split at he
  · cases he
  · rename_i target htarget
    have hfile : e.target = target := by
      split at he
      · cases he
      · cases he
        rfl
    rw [hfile]
    split at htarget
    · exact Imports.exists_imported?_of_file? htarget
    · rename_i file hrequired
      cases htarget
      exact Mounts.exists_imported?_of_mountAt? hmount hrequired

/-- The files of a project are collapsed paths. -/
theorem normalize_of_mem_candidates (h : path ∈ w.candidates) : Path.normalize path = path := by
  rw [candidates, List.mem_mergeSort, List.mem_map] at h
  obtain ⟨found, -, rfl⟩ := h
  exact Path.normalize_normalize _

end Workspace

/-- Collapsing paths is canonical but for the steps out of the root.  Two paths collapse to the same
path exactly if they lead to the same place wherever some tree has both, and absolute ones climb out
of the root equally often; some tree has both, read from any place.  A collapsed path collapses to
itself and leads where the path leads, and it has parent steps only at its start, as many as the
path climbs out of where it starts.  So what an import means, and this is what all mounts between
files are of, is the same path as a file of the project exactly under these two conditions. -/
theorem Path.normalize_eq_iff_sameLocation (p q : String) :
    (normalize p = normalize q ↔
      SameLocation p q ∧ (isAbsolute p = true → climbs p = climbs q)) ∧
    (∀ here, ∃ fs : FileSystem, fs.here = here ∧
      (fs.place? p).isSome = true ∧ (fs.place? q).isSome = true) ∧
    normalize (normalize p) = normalize p ∧
    (∀ (fs : FileSystem) place, fs.place? p = some place →
      fs.place? (normalize p) = some place) ∧
    (∃ names : List String, (∀ n ∈ names, IsName n) ∧
      components (normalize p) = placed (isAbsolute p)
        (List.replicate (climbs p) .parent ++ names.map .name)) ∧
    (∀ (w : Workspace) file spec target scanned,
      w.files.imported? file spec = some target → scanned ∈ w.candidates →
        (target = scanned ↔
          SameLocation target scanned ∧
            (isAbsolute target = true → climbs target = climbs scanned))) ∧
    ∀ w : Workspace, ∀ e ∈ FileRoutes.edges w.readable,
      ∃ file spec, w.files.imported? file spec = some e.target := by
  refine ⟨normalize_eq_iff p q, fun here => ?_, normalize_normalize p,
    fun _ _ => FileSystem.place?_normalize, ?_, fun w file spec target scanned htarget
      hscanned => ?_, fun w e => Workspace.exists_imported?_of_mem_edges⟩
  · obtain ⟨fs, hhere, hp, hq⟩ := FileSystem.exists_place? here p q
    exact ⟨fs, hhere, by rw [hp, Option.isSome_some], by rw [hq, Option.isSome_some]⟩
  · obtain ⟨names, hnames, hp⟩ := exists_normalComponents p
    exact ⟨names, hnames, by rw [components_normalize, hp, reverse_stack]⟩
  · rw [← normalize_eq_iff, Specifier.normalize_of_imported? htarget,
      Workspace.normalize_of_mem_candidates hscanned]

namespace Climbing

/-- A project at the root, read from inside its directory, which may take a file from above. -/
def project : Workspace :=
  ⟨⟨.directory [
    ("app.js", .file (some "app.get('/x', h);")),
    ("routes", .directory [("a.js", .file (some ""))])], ["routes"]⟩, "/", []⟩

theorem mem_candidates : "/app.js" ∈ project.candidates := by
  rw [Workspace.candidates, List.mem_mergeSort]
  decide +kernel

/-- The directory above the root is the root. -/
theorem imported?_above :
    project.files.imported? "/routes/a.js" "../../app" = some "/../app.js" := by
  decide +kernel

theorem sameLocation_above : Path.SameLocation "/../app.js" "/app.js" := by
  have habove : Path.components "/../app.js" = [.root, .parent, .name "app.js"] := by decide +kernel
  have happ : Path.components "/app.js" = [.root, .name "app.js"] := by decide +kernel
  refine Path.sameLocation_iff.mpr fun here => ?_
  rw [habove, happ]
  rfl

end Climbing

open Climbing in
/-- A step down and up again leads nowhere else, what is collapsed is found where it was, and a step
out of the root makes another path of the same file. -/
theorem Path.normalize_eq_of_down_and_up :
    SameLocation "/routes/../app.js" "/app.js" ∧
      project.files.place? "../routes/./a.js" = some ["routes", "a.js"] ∧
      project.files.place? (normalize "../routes/./a.js") = some ["routes", "a.js"] ∧
      project.files.imported? "/routes/a.js" "../../app" = some "/../app.js" ∧
      "/app.js" ∈ project.candidates ∧
      climbs "/../app.js" ≠ climbs "/app.js" := by
  obtain ⟨heq, -, -, -, -, htarget, -⟩ :=
    normalize_eq_iff_sameLocation "/routes/../app.js" "/app.js"
  obtain ⟨-, -, -, hplace, -⟩ := normalize_eq_iff_sameLocation "../routes/./a.js" "/routes/a.js"
  have hfound : project.files.place? "../routes/./a.js" = some ["routes", "a.js"] := by
    decide +kernel
  have habove := htarget _ _ _ _ _ imported?_above mem_candidates
  exact ⟨(heq.mp (by decide +kernel)).1, hfound, hplace _ _ hfound, imported?_above,
    mem_candidates, fun hclimbs =>
      absurd (habove.mpr ⟨sameLocation_above, fun _ => hclimbs⟩) (by decide)⟩

/-- The step out of the root stays where it leads nowhere, in paths and in what imports mean. -/
theorem Path.not_forall_normalize_eq_iff :
    (¬ ∀ p q, isAbsolute p = true → isAbsolute q = true →
      (normalize p = normalize q ↔ SameLocation p q)) ∧
    ¬ ∀ (w : Workspace) file spec target scanned,
      w.files.imported? file spec = some target → scanned ∈ w.candidates →
        SameLocation target scanned → target = scanned := by
  constructor
  · intro h
    have hsame : SameLocation "/.." "/" := by
      have habove : components "/.." = [.root, .parent] := by decide +kernel
      have hroot : components "/" = [.root] := by decide +kernel
      refine sameLocation_iff.mpr fun here => ?_
      rw [habove, hroot]
      rfl
    have heq := (h "/.." "/" (by decide +kernel) (by decide +kernel)).mpr hsame
    exact absurd heq (by decide +kernel)
  · intro h
    have heq := h _ _ _ _ _ Climbing.imported?_above Climbing.mem_candidates
      Climbing.sameLocation_above
    exact absurd heq (by decide)

end EndpointPayload
