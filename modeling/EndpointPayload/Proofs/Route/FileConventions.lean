import EndpointPayload.Proofs.Files.Glob
import EndpointPayload.Proofs.Files.Path
import EndpointPayload.Route.FileConventions

/-!
# Files with routes at any depth

Whether a file holds routes is told by the last part of its path: the patterns all start with any
directories, and the extension is that of the last name.  Only the ignored names look at the whole
path.

**Input.**  Further ignored names, the path of a file as read from the root of a project, and names
of directories to put in front of it.

**Results.**
* `isRouteFile_iff`: what makes a path that of a file with routes.
* `isRouteFile_join`: it is so as well below a directory that is not ignored.
* `isRouteFile_laws`: no depth matters, each ignored name rules a path out, and more of them rule
  out more.
-/

namespace EndpointPayload

namespace Path

variable {s directory file path : String} {c : Component}

/-- The steps of a path inside a directory are those to the directory and those of the path. -/
theorem steps_below (directory path : String) :
    steps (directory ++ "/" ++ path) = steps directory ++ steps path := by
  rw [steps, pieces, Text.split_slash_append, List.filterMap_append]
  rfl

/-- At most the root or a dot stands in front of the steps. -/
theorem components_eq (s : String) :
    components s = .root :: steps s ∨ components s = .current :: steps s ∨
      components s = steps s := by
  rw [components]
  split
  · exact .inl rfl
  · split
    · exact .inr (.inl rfl)
    · exact .inr (.inr rfl)

theorem name_mem_components_iff {n : String} : .name n ∈ components s ↔ .name n ∈ steps s := by
  rcases components_eq s with h | h | h <;> simp [h]

/-- The name of a file is its last step. -/
theorem fileName?_eq_some_iff :
    fileName? s = some file ↔ (steps s).getLast? = some (.name file) := by
  have hlast : fileName? s = some file ↔ (components s).getLast? = some (.name file) := by
    rw [fileName?]
    split
    · rename_i n hn
      rw [hn]
      simp
    · rename_i hnone
      exact ⟨fun h => absurd h (by simp), fun h => absurd h (hnone file)⟩
  rw [hlast]
  rcases components_eq s with h | h | h
  · cases hsteps : steps s <;> simp [h, hsteps]
  · cases hsteps : steps s <;> simp [h, hsteps]
  · rw [h]

theorem extension?_below
    {ext : String}
    (h : extension? path = some ext) :
    extension? (directory ++ "/" ++ path) = some ext := by
  obtain ⟨file, hfile, hext⟩ := Option.bind_eq_some_iff.mp h
  have hbelow : fileName? (directory ++ "/" ++ path) = some file := by
    rw [fileName?_eq_some_iff] at hfile ⊢
    rw [steps_below, List.getLast?_append, hfile, Option.some_or]
  rw [extension?, hbelow]
  exact hext

/-- A text that can stand for an entry of a directory, a dot and a parent step among them. -/
structure IsPiece (s : String) : Prop where
  ne_blank : s ≠ ""
  no_slash : '/' ∉ s.toList

theorem IsPiece.join_eq
    (h : IsPiece directory)
    (hpath : isAbsolute path = false) :
    join directory path = directory ++ "/" ++ path := by
  have hend : directory.endsWith "/" = false := by
    rw [Bool.eq_false_iff, Ne, endsWith_iff]
    rintro ⟨front, hfront⟩
    exact h.no_slash (by simp [← hfront])
  rw [join, hpath, hend]
  simp [h.ne_blank]

theorem IsPiece.isAbsolute_join
    (h : IsPiece directory)
    (hpath : isAbsolute path = false) :
    isAbsolute (join directory path) = false := by
  rw [h.join_eq hpath, Bool.eq_false_iff, Ne, isAbsolute_iff]
  rintro ⟨rest, hrest⟩
  cases hchars : directory.toList with
  | nil => exact h.ne_blank (String.toList_eq_nil_iff.mp hchars)
  | cons first others =>
      obtain rfl : first = '/' := by simpa [hchars] using congrArg List.head? hrest
      exact h.no_slash (by simp [hchars])

theorem IsPiece.eq_of_mem_steps
    {n : String}
    (h : IsPiece directory)
    (hn : .name n ∈ steps directory) :
    n = directory := by
  obtain ⟨piece, hpiece, hn⟩ := List.mem_filterMap.mp hn
  rw [pieces, Text.split_of_not_mem h.no_slash, List.mem_singleton] at hpiece
  rw [hpiece, component?] at hn
  split at hn
  · cases hn
  · split at hn
    · cases hn
    · cases hn
      rfl

end Path

namespace RouteFile

variable {extra more : List String} {path : String}

/-- A path is ignored for one of its names. -/
theorem isIgnored_iff :
    isIgnored extra path = true ↔
      ∃ n, .name n ∈ Path.components path ∧ n ∈ ignoredNames ++ extra := by
  rw [isIgnored, List.any_eq_true]
  constructor
  · rintro ⟨c, hc, hignored⟩
    cases c with
    | name n => exact ⟨n, hc, List.contains_iff_mem.mp hignored⟩
    | root => cases hignored
    | current => cases hignored
    | parent => cases hignored
  · rintro ⟨n, hn, hmem⟩
    exact ⟨.name n, hn, List.contains_iff_mem.mpr hmem⟩

/-- A path of a file with routes: the file is a script, no name on the way is ignored, and the path
is spelled as one of the patterns says. -/
structure IsConventional (extra : List String) (path : String) : Prop where
  isScript : ∃ ext dialect, Path.extension? path = some ext ∧
    Source.Dialect.ofExtension? ext = some dialect
  not_ignored : ∀ n, .name n ∈ Path.components path → n ∉ ignoredNames ++ extra
  spelled : ∃ g ∈ globs, ∃ pattern ∈ g.patterns, Glob.Spells pattern (g.seen path)

theorem isSome_dialect_iff :
    ((Path.extension? path).bind Source.Dialect.ofExtension?).isSome = true ↔
      ∃ ext dialect, Path.extension? path = some ext ∧
        Source.Dialect.ofExtension? ext = some dialect := by
  rw [Option.isSome_iff_exists]
  constructor
  · rintro ⟨dialect, h⟩
    obtain ⟨ext, hext, hdialect⟩ := Option.bind_eq_some_iff.mp h
    exact ⟨ext, dialect, hext, hdialect⟩
  · rintro ⟨ext, dialect, hext, hdialect⟩
    exact ⟨dialect, Option.bind_eq_some_iff.mpr ⟨ext, hext, hdialect⟩⟩

theorem isRouteFile_iff : isRouteFile extra path = true ↔ IsConventional extra path := by
  rw [isRouteFile, Bool.and_eq_true, Bool.and_eq_true, isSome_dialect_iff, Bool.not_eq_true',
    Bool.eq_false_iff, Ne, isIgnored_iff, List.any_eq_true]
  constructor
  · rintro ⟨⟨hscript, hignored⟩, g, hg, hmatch⟩
    exact ⟨hscript, fun n hn hmem => hignored ⟨n, hn, hmem⟩, g, hg, Glob.isMatch_iff.mp hmatch⟩
  · rintro ⟨hscript, hignored, g, hg, hspelled⟩
    refine ⟨⟨hscript, ?_⟩, g, hg, Glob.isMatch_iff.mpr hspelled⟩
    rintro ⟨n, hn, hmem⟩
    exact hignored n hn hmem

/-- Every pattern is for any directory. -/
theorem isDeep_of_mem_globs {g : Glob} (h : g ∈ globs) : g.IsDeep := by
  obtain ⟨text, htext, hread⟩ := List.mem_filterMap.mp h
  have htexts : ∀ text ∈ patterns, Glob.IsDeepText text := by decide
  exact Glob.isDeep_of_ofText? (htexts text htext) hread

/-- A file with routes is one below a directory that is not ignored as well. -/
theorem isRouteFile_join
    {directory : String}
    (h : isRouteFile extra path = true)
    (hpath : Path.isAbsolute path = false)
    (hdirectory : Path.IsPiece directory)
    (hignored : directory ∉ ignoredNames ++ extra) :
    isRouteFile extra (Path.join directory path) = true := by
  obtain ⟨⟨ext, dialect, hext, hdialect⟩, hnames, g, hg, hspelled⟩ := isRouteFile_iff.mp h
  rw [hdirectory.join_eq hpath]
  refine isRouteFile_iff.mpr ⟨⟨ext, dialect, Path.extension?_below hext, hdialect⟩, ?_, g, hg, ?_⟩
  · intro n hn
    rw [Path.name_mem_components_iff, Path.steps_below, List.mem_append] at hn
    rcases hn with hn | hn
    · rw [hdirectory.eq_of_mem_steps hn]
      exact hignored
    · exact hnames n (Path.name_mem_components_iff.mpr hn)
  · exact Glob.isMatch_iff.mp
      ((isDeep_of_mem_globs hg).isMatch_below (Glob.isMatch_iff.mpr hspelled) directory)

/-- So it is below any directories none of which is ignored. -/
theorem isRouteFile_foldr_join
    {directories : List String}
    (h : isRouteFile extra path = true)
    (hpath : Path.isAbsolute path = false)
    (hdirectories : ∀ d ∈ directories, Path.IsPiece d ∧ d ∉ ignoredNames ++ extra) :
    isRouteFile extra (directories.foldr Path.join path) = true ∧
      Path.isAbsolute (directories.foldr Path.join path) = false := by
  induction directories with
  | nil => exact ⟨h, hpath⟩
  | cons d ds ih =>
      obtain ⟨hroute, habsolute⟩ := ih fun e he => hdirectories e (List.mem_cons_of_mem d he)
      obtain ⟨hpiece, hignored⟩ := hdirectories d List.mem_cons_self
      exact ⟨isRouteFile_join hroute habsolute hpiece hignored, hpiece.isAbsolute_join habsolute⟩

theorem isRouteFile_of_subset
    (hmore : extra ⊆ more)
    (h : isRouteFile more path = true) :
    isRouteFile extra path = true := by
  obtain ⟨hscript, hnames, hspelled⟩ := isRouteFile_iff.mp h
  refine isRouteFile_iff.mpr ⟨hscript, fun n hn hmem => hnames n hn ?_, hspelled⟩
  exact (List.mem_append.mp hmem).elim (fun hknown => List.mem_append_left _ hknown)
    fun hextra => List.mem_append_right _ (hmore hextra)

/-- Which files hold routes.  A path is that of a file with routes exactly if the file is a script,
no name on the way is ignored, and the path is spelled as a pattern says.  Directories in front of
the path that are not ignored do not matter, a name on the way that is ignored rules the path out,
and with more ignored names no path is let in that was ruled out before. -/
theorem isRouteFile_laws (extra : List String) :
    (∀ path, isRouteFile extra path = true ↔ IsConventional extra path) ∧
    (∀ (path : String) (directories : List String),
      Path.isAbsolute path = false →
      (∀ d ∈ directories, Path.IsPiece d ∧ d ∉ ignoredNames ++ extra) →
      isRouteFile extra path = true →
      isRouteFile extra (directories.foldr Path.join path) = true) ∧
    (∀ path n,
      .name n ∈ Path.components path →
      n ∈ ignoredNames ++ extra →
      isRouteFile extra path = false) ∧
    ∀ path more,
      extra ⊆ more →
      isRouteFile extra path = false →
      isRouteFile more path = false := by
  refine ⟨fun path => isRouteFile_iff, ?_, ?_, ?_⟩
  · intro path directories hpath hdirectories h
    exact (isRouteFile_foldr_join h hpath hdirectories).1
  · intro path n hn hmem
    rw [Bool.eq_false_iff]
    intro h
    exact (isRouteFile_iff.mp h).not_ignored n hn hmem
  · intro path more hmore h
    rw [Bool.eq_false_iff] at h ⊢
    exact fun hroute => h (isRouteFile_of_subset hmore hroute)

/-- The user routes of a version below two directories, below one that is ignored, and with the name
of the version ignored. -/
theorem isRouteFile_laws_users :
    isRouteFile [] (["src", "api"].foldr Path.join "v1/users.routes.js") = true ∧
      isRouteFile [] "build/v1/users.routes.js" = false ∧
      isRouteFile ["legacy", "v1"] "legacy/users.routes.js" = false := by
  obtain ⟨-, hbelow, hignored, -⟩ := isRouteFile_laws []
  obtain ⟨-, -, hlegacy, hmore⟩ := isRouteFile_laws ["legacy"]
  have hsrc : Path.IsPiece "src" := ⟨by decide, by decide⟩
  have hapi : Path.IsPiece "api" := ⟨by decide, by decide⟩
  refine ⟨?_, ?_, ?_⟩
  · refine hbelow "v1/users.routes.js" ["src", "api"] (by decide +kernel) ?_ (by decide +kernel)
    intro d hd
    simp only [List.mem_cons, List.not_mem_nil, or_false] at hd
    rcases hd with rfl | rfl
    · exact ⟨hsrc, by decide⟩
    · exact ⟨hapi, by decide⟩
  · exact hignored _ "build" (by decide +kernel) (by decide)
  · refine hmore _ ["legacy", "v1"] (by decide) ?_
    exact hlegacy _ "legacy" (by decide +kernel) (by decide)

/-- Not every component that is an ignored name rules a path out: a parent step is no name. -/
theorem not_forall_isRouteFile_eq_false :
    ¬ ∀ (extra : List String) (path : String) (c : Component),
      Path.isAbsolute path = false →
      c ∈ Path.components path →
      c.text ∈ ignoredNames ++ extra →
      isRouteFile extra path = false := by
  intro hall
  have hruled : isRouteFile [".."] "../app.js" = false :=
    hall [".."] "../app.js" .parent (by decide +kernel) (by decide +kernel) (by decide)
  have hroute : isRouteFile [".."] "../app.js" = true := by decide +kernel
  rw [hruled] at hroute
  cases hroute

end RouteFile
end EndpointPayload
