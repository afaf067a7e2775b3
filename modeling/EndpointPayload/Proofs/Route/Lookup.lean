import EndpointPayload.Proofs.Route.Mounted
import Mathlib

/-!
# Routes by verb and path

Every path of a route starts with exactly one slash: the path of a registration is normal in its own
script, and stays normal below a mount of the script, whatever slashes the mounts and the literals
have.  So a route is found by its verb in any letter case and by its path with more slashes at the
front or with none.
-/

namespace EndpointPayload

namespace Text

theorem toUpper_toLower (c : Char) : c.toLower.toUpper = c.toUpper := by
  by_cases hupper : c.val ≥ 'A'.val ∧ c.val ≤ 'Z'.val
  · have hcode : c.val ≥ 65 ∧ c.val ≤ 90 := hupper
    have hnot : ¬ (c.val ≥ 'a'.val ∧ c.val ≤ 'z'.val) := by
      change ¬ ((97 : UInt32) ≤ c.val ∧ c.val ≤ (122 : UInt32))
      grind
    rw [Char.toLower, dif_pos hupper, Char.toUpper, Char.toUpper, dif_neg hnot, dif_pos]
    · -- adding 32 and then its complement comes back to the code of the letter
      apply Char.ext
      change c.val + 32 + 4294967264 = c.val
      grind
    · change (97 : UInt32) ≤ c.val + 32 ∧ c.val + 32 ≤ (122 : UInt32)
      grind
  · rw [Char.toLower, dif_neg hupper]

/-- Texts that differ in letter case are the same in upper case. -/
theorem toUpper_eq_of_lower_eq
    {s t : String}
    (h : lower s = lower t) :
    s.map Char.toUpper = t.map Char.toUpper := by
  have hback : ∀ u : String, (lower u).map Char.toUpper = u.map Char.toUpper := by
    intro u
    apply String.toList_inj.mp
    rw [lower, String.toList_map, String.toList_map, String.toList_map, List.map_map]
    exact List.map_congr_left fun c _ => toUpper_toLower c
  rw [← hback s, ← hback t, h]

end Text

namespace Verb

/-- The name of a verb says it in any letter case. -/
theorem ofName?_of_lower_eq
    {s : String}
    {v : Verb}
    (h : Text.lower s = Text.lower v.name) :
    ofName? s = some v := by
  rw [ofName?, Text.toUpper_eq_of_lower_eq h]
  exact ofName?_name v

/-- The name of a verb is read in any letter case. -/
theorem read_of_lower_eq
    {s : String}
    {v : Verb}
    (h : Text.lower s = Text.lower v.name) :
    read s = .ok v := by
  rw [read, ofName?_of_lower_eq h]

theorem lower_lower_name (v : Verb) : Text.lower (Text.lower v.name) = Text.lower v.name := by
  apply String.toList_inj.mp
  simp only [Text.lower, String.toList_map]
  cases v <;> decide

end Verb

namespace Registration

/-- A mount keeps the path of a route normal. -/
theorem isNormal_mounted
    {r : Registration}
    (hr : r.IsLocal)
    (mount : Option String) :
    RoutePath.IsNormal (r.mounted mount).path := by
  unfold mounted
  split
  · exact hr.isNormal
  · cases mount with
    | none => exact hr.isNormal
    | some above => exact RoutePath.isNormal_join above r.route.path

end Registration

namespace Workspace

variable {w : Workspace} {r : Route}

theorem isNormal_of_mem_routes (h : r ∈ w.routes) : RoutePath.IsNormal r.path := by
  obtain ⟨f, hf, hr⟩ := List.mem_flatMap.mp h
  obtain ⟨registration, hregistration, rfl⟩ := List.mem_map.mp hr
  obtain ⟨path, -, hread⟩ := List.mem_filterMap.mp hf
  exact Registration.isNormal_mounted (FileRoutes.isLocal_of_mem hread hregistration) _

theorem mem_routesIn_iff {file : String} :
    r ∈ w.routesIn file ↔
      ∃ f, FileRoutes.read? w.files (Path.normalize (Path.join w.root file)) = some f ∧
        ∃ registration ∈ f.registrations, registration.route = r := by
  unfold routesIn
  generalize Path.normalize (Path.join w.root file) = path
  dsimp only
  cases FileRoutes.read? w.files path with
  | none => simp
  | some f => simp

theorem isNormal_of_mem_routesIn
    {file : String}
    (h : r ∈ w.routesIn file) :
    RoutePath.IsNormal r.path := by
  obtain ⟨f, hread, registration, hregistration, rfl⟩ := mem_routesIn_iff.mp h
  exact (FileRoutes.isLocal_of_mem hread hregistration).isNormal

/-- A route is found, or one before it with the same verb and path. -/
theorem find?_of_mem
    {name path : String}
    (h : r ∈ w.routes)
    (hname : Text.lower name = Text.lower r.verb.name)
    (hpath : RoutePath.normalize path = r.path) :
    ∃ found ∈ w.routes,
      w.find? name path = .ok (some found) ∧ found.verb = r.verb ∧ found.path = r.path := by
  have hsome : (w.routes.find? fun s => s.verb = r.verb && s.path = r.path).isSome = true := by
    rw [List.find?_isSome]
    exact ⟨r, h, by simp⟩
  obtain ⟨found, hfound⟩ := Option.isSome_iff_exists.mp hsome
  have hsame := List.find?_some hfound
  rw [Bool.and_eq_true, decide_eq_true_eq, decide_eq_true_eq] at hsame
  refine ⟨found, List.mem_of_find?_eq_some hfound, ?_, hsame⟩
  rw [find?, Verb.read_of_lower_eq hname, hpath, ← hfound]
  rfl

/-- In every project, the path of every route starts with one slash and is normal, in the whole
project as in a single file; and every route is found by the name of its verb in any letter case and
by its path with any number of slashes at the front, or one with the same verb and path is. -/
theorem routes_found (w : Workspace) :
    (∀ r ∈ w.routes,
      RoutePath.StartsWithOneSlash r.path ∧ RoutePath.normalize r.path = r.path) ∧
    (∀ file, ∀ r ∈ w.routesIn file,
      RoutePath.StartsWithOneSlash r.path ∧ RoutePath.normalize r.path = r.path) ∧
    (∀ r ∈ w.routes, ∀ name slashes,
      Text.lower name = Text.lower r.verb.name →
      ∃ found ∈ w.routes,
        w.find? name (RoutePath.withSlashes slashes r.path) = .ok (some found) ∧
          found.verb = r.verb ∧ found.path = r.path) := by
  refine ⟨fun r hr => ?_, fun file r hr => ?_, fun r hr name slashes hname => ?_⟩
  · have hnormal := isNormal_of_mem_routes hr
    exact ⟨RoutePath.isNormal_iff.mp hnormal, hnormal⟩
  · have hnormal := isNormal_of_mem_routesIn hr
    exact ⟨RoutePath.isNormal_iff.mp hnormal, hnormal⟩
  · refine find?_of_mem hr hname ?_
    rw [RoutePath.normalize_withSlashes]
    exact isNormal_of_mem_routes hr

namespace Nested

theorem exists_leaf : ∃ r ∈ project.routes, r.path = "/api/in/b/z" := by
  obtain ⟨-, -, -, -, -, -, hpaths⟩ := exists_mounted
  have hmem : "/api/in/b/z" ∈ project.routes.map Route.path := by
    rw [hpaths]
    exact List.mem_cons_of_mem _ (List.mem_singleton_self _)
  exact List.mem_map.mp hmem

theorem withSlashes_leaf :
    RoutePath.withSlashes 3 "/api/in/b/z" = "///api/in/b/z" ∧
      RoutePath.withSlashes 0 "/api/in/b/z" = "api/in/b/z" :=
  ⟨rfl, rfl⟩

end Nested

/-- A route of the project with the nested routers, by its verb in lower case and its path behind
three slashes and behind none. -/
theorem routes_found_nested :
    ∃ r ∈ Nested.project.routes,
      r.path = "/api/in/b/z" ∧
      RoutePath.StartsWithOneSlash r.path ∧
      (∃ found ∈ Nested.project.routes,
        Nested.project.find? (Text.lower r.verb.name) "///api/in/b/z" = .ok (some found) ∧
          found.path = "/api/in/b/z") ∧
      ∃ found ∈ Nested.project.routes,
        Nested.project.find? (Text.lower r.verb.name) "api/in/b/z" = .ok (some found) ∧
          found.path = "/api/in/b/z" := by
  obtain ⟨r, hr, hpath⟩ := Nested.exists_leaf
  obtain ⟨hthree, hnone⟩ := Nested.withSlashes_leaf
  rw [← hpath] at hthree hnone
  obtain ⟨hslash, -, hfound⟩ := routes_found Nested.project
  have hlower := Verb.lower_lower_name r.verb
  refine ⟨r, hr, hpath, (hslash r hr).1, ?_, ?_⟩
  · obtain ⟨found, hmem, hfind, -, hsame⟩ := hfound r hr _ 3 hlower
    rw [hthree] at hfind
    exact ⟨found, hmem, hfind, hsame.trans hpath⟩
  · obtain ⟨found, hmem, hfind, -, hsame⟩ := hfound r hr _ 0 hlower
    rw [hnone] at hfind
    exact ⟨found, hmem, hfind, hsame.trans hpath⟩

end Workspace
end EndpointPayload
