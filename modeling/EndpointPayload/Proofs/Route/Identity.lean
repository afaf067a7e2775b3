import EndpointPayload.Proofs.Route.Detection
import EndpointPayload.Proofs.Text.Bytes
import EndpointPayload.Snapshot

/-!
# Identities of routes

The identity of a route is the hash of its verb, its path and its file with blanks between them.  No
verb has a blank in it, but paths and files may.  So the same text may be read in two ways: with
some words at the end of the path, or in front of the file.

**Input.**  Any two routes, and any two records of routes.

**Results.**
* `identityText_eq_iff`: two routes have one text if they are the same endpoint or run together.
* `id_eq_iff`: they have one identity in these cases, and if their two texts have one hash.
* `identity_of_endpoints`: when routes and records are told apart.
-/

namespace EndpointPayload

/-- One separator cuts a text in two: two cuts of one text are the same, or one of the fronts goes
on behind a separator with what the other back starts with. -/
theorem append_cons_eq_iff
    {α : Type}
    {x : α}
    {front back front' back' : List α} :
    front ++ x :: back = front' ++ x :: back' ↔
      (front = front' ∧ back = back') ∨
        (∃ shared, front' = front ++ x :: shared ∧ back = shared ++ x :: back') ∨
        ∃ shared, front = front' ++ x :: shared ∧ back' = shared ++ x :: back := by
  rw [List.append_eq_append_iff]
  constructor
  · rintro (⟨more, rfl, hback⟩ | ⟨more, rfl, hback⟩)
    · cases more with
      | nil => exact .inl ⟨(List.append_nil _).symm, (List.cons.inj hback).2⟩
      | cons y shared =>
          obtain ⟨rfl, hshared⟩ := List.cons.inj hback
          exact .inr (.inl ⟨shared, rfl, hshared⟩)
    · cases more with
      | nil => exact .inl ⟨List.append_nil _, (List.cons.inj hback).2.symm⟩
      | cons y shared =>
          obtain ⟨rfl, hshared⟩ := List.cons.inj hback
          exact .inr (.inr ⟨shared, rfl, hshared⟩)
  · rintro (⟨rfl, rfl⟩ | ⟨shared, rfl, rfl⟩ | ⟨shared, rfl, rfl⟩)
    · exact .inl ⟨[], (List.append_nil _).symm, rfl⟩
    · exact .inl ⟨x :: shared, rfl, rfl⟩
    · exact .inr ⟨x :: shared, rfl, rfl⟩

namespace Verb

theorem name_injective : Function.Injective name := by
  intro v w h
  have hread := ofName?_name v
  rw [h, ofName?_name] at hread
  exact (Option.some.inj hread).symm

theorem blank_not_mem_name (v : Verb) : ' ' ∉ v.name.toList := by
  cases v <;> decide

end Verb

namespace Route

variable {r s : Route}

/-- Two routes of one endpoint. -/
structure SameEndpoint (r s : Route) : Prop where
  verb_eq : r.verb = s.verb
  path_eq : r.path = s.path
  filePath_eq : r.filePath = s.filePath

/-- The path of the one route goes on, behind a blank, where the path of the other one ends, with
words that stand in front of the file of the other one. -/
def RunsInto (r s : Route) : Prop :=
  ∃ shared, s.path = r.path ++ " " ++ shared ∧ r.filePath = shared ++ " " ++ s.filePath

/-- Two routes with one verb that differ in which words belong to the path and which to the file. -/
structure RunTogether (r s : Route) : Prop where
  verb_eq : r.verb = s.verb
  runs : RunsInto r s ∨ RunsInto s r

theorem toList_blank_append (a b : String) :
    (a ++ " " ++ b).toList = a.toList ++ ' ' :: b.toList := by
  simp

theorem runsInto_iff_toList :
    RunsInto r s ↔
      ∃ shared, s.path.toList = r.path.toList ++ ' ' :: shared ∧
        r.filePath.toList = shared ++ ' ' :: s.filePath.toList := by
  constructor
  · rintro ⟨shared, hpath, hfile⟩
    refine ⟨shared.toList, ?_, ?_⟩
    · rw [hpath, toList_blank_append]
    · rw [hfile, toList_blank_append]
  · rintro ⟨shared, hpath, hfile⟩
    refine ⟨String.ofList shared, ?_, ?_⟩
    · rw [← String.toList_inj, hpath, toList_blank_append, String.toList_ofList]
    · rw [← String.toList_inj, hfile, toList_blank_append, String.toList_ofList]

/-- Two texts of a path, a blank and a file are the same if the parts are, or if they run into each
other. -/
theorem path_blank_file_eq_iff :
    r.path.toList ++ ' ' :: r.filePath.toList = s.path.toList ++ ' ' :: s.filePath.toList ↔
      (r.path = s.path ∧ r.filePath = s.filePath) ∨ RunsInto r s ∨ RunsInto s r := by
  rw [append_cons_eq_iff, String.toList_inj, String.toList_inj, runsInto_iff_toList,
    runsInto_iff_toList]

theorem toList_identityText (r : Route) :
    r.identityText.toList =
      r.verb.name.toList ++ ' ' :: (r.path.toList ++ ' ' :: r.filePath.toList) := by
  simp [identityText]

/-- The verb ends at the first blank. -/
theorem identityText_eq_iff_of_verb :
    r.identityText = s.identityText ↔
      r.verb = s.verb ∧
        r.path.toList ++ ' ' :: r.filePath.toList = s.path.toList ++ ' ' :: s.filePath.toList := by
  rw [← String.toList_inj, toList_identityText, toList_identityText, append_cons_eq_iff]
  constructor
  · rintro (⟨hverb, hrest⟩ | ⟨shared, hverb, -⟩ | ⟨shared, hverb, -⟩)
    · exact ⟨Verb.name_injective (String.toList_inj.mp hverb), hrest⟩
    · exact absurd (by simp [hverb]) s.verb.blank_not_mem_name
    · exact absurd (by simp [hverb]) r.verb.blank_not_mem_name
  · rintro ⟨hverb, hrest⟩
    exact .inl ⟨by rw [hverb], hrest⟩

theorem identityText_eq_iff :
    r.identityText = s.identityText ↔ SameEndpoint r s ∨ RunTogether r s := by
  rw [identityText_eq_iff_of_verb, path_blank_file_eq_iff]
  constructor
  · rintro ⟨hverb, ⟨hpath, hfile⟩ | hruns⟩
    · exact .inl ⟨hverb, hpath, hfile⟩
    · exact .inr ⟨hverb, hruns⟩
  · rintro (⟨hverb, hpath, hfile⟩ | ⟨hverb, hruns⟩)
    · exact ⟨hverb, .inl ⟨hpath, hfile⟩⟩
    · exact ⟨hverb, .inr hruns⟩

/-- The path of a route that another one runs into is longer. -/
theorem RunsInto.path_ne (h : RunsInto r s) : r.path ≠ s.path := by
  obtain ⟨shared, hpath, -⟩ := runsInto_iff_toList.mp h
  intro hsame
  have hlength := congrArg List.length hpath
  simp [hsame] at hlength

/-- So routes that run together are two endpoints. -/
theorem RunTogether.not_sameEndpoint (h : RunTogether r s) : ¬ SameEndpoint r s := by
  rintro ⟨-, hpath, -⟩
  rcases h.runs with hruns | hruns
  · exact hruns.path_ne hpath
  · exact hruns.path_ne hpath.symm

theorem RunsInto.blank_mem (h : RunsInto r s) : ' ' ∈ s.path.toList ∧ ' ' ∈ r.filePath.toList := by
  obtain ⟨shared, hpath, hfile⟩ := runsInto_iff_toList.mp h
  rw [hpath, hfile]
  simp

/-- Routes run together only over blanks in a path and in a file. -/
theorem RunTogether.blank_mem (h : RunTogether r s) :
    (' ' ∈ r.path.toList ∨ ' ' ∈ s.path.toList) ∧
      (' ' ∈ r.filePath.toList ∨ ' ' ∈ s.filePath.toList) := by
  rcases h.runs with hruns | hruns
  · exact ⟨.inr hruns.blank_mem.1, .inl hruns.blank_mem.2⟩
  · exact ⟨.inl hruns.blank_mem.1, .inr hruns.blank_mem.2⟩

end Route

namespace Sha256

theorem digitChar_injective :
    ∀ m n : Fin 16, Nat.digitChar m = Nat.digitChar n → m = n := by
  decide

theorem hexByte_injective : Function.Injective hexByte := by
  intro a b h
  rw [hexByte, hexByte, List.cons.injEq, List.cons.injEq] at h
  obtain ⟨hhigh, hlow, -⟩ := h
  have ha := a.toNat_lt
  have hb := b.toNat_lt
  have hdiv : a.toNat / 16 = b.toNat / 16 :=
    Fin.val_congr (digitChar_injective ⟨_, by omega⟩ ⟨_, by omega⟩ hhigh)
  have hmod : a.toNat % 16 = b.toNat % 16 :=
    Fin.val_congr (digitChar_injective ⟨_, by omega⟩ ⟨_, by omega⟩ hlow)
  apply UInt8.toNat_inj.mp
  omega

/-- Different bytes have different digits: each byte has two of them. -/
theorem flatMap_hexByte_injective :
    Function.Injective fun bytes : List UInt8 => bytes.flatMap hexByte := by
  intro as
  induction as with
  | nil =>
      intro bs h
      cases bs with
      | nil => rfl
      | cons b bs => simp [hexByte] at h
  | cons a as ih =>
      intro bs h
      cases bs with
      | nil => simp [hexByte] at h
      | cons b bs =>
          simp only [List.flatMap_cons] at h
          obtain ⟨hfirst, hrest⟩ := List.append_inj h rfl
          rw [hexByte_injective hfirst, ih hrest]

theorem hex_injective : Function.Injective hex := by
  intro a b h
  exact flatMap_hexByte_injective (String.ofList_injective h)

end Sha256

namespace Route

variable {r s : Route}

/-- The bytes that the identity of a route is the hash of. -/
def identityBytes (r : Route) : List UInt8 := r.identityText.toUTF8.toList

/-- The texts of two routes are different, but have one hash as far as an identity shows it. -/
structure Collide (r s : Route) : Prop where
  bytes_ne : r.identityBytes ≠ s.identityBytes
  hash_eq : (Sha256.hash r.identityBytes).take 8 = (Sha256.hash s.identityBytes).take 8

theorem identityBytes_eq_iff :
    r.identityBytes = s.identityBytes ↔ SameEndpoint r s ∨ RunTogether r s := by
  rw [identityBytes, identityBytes, Text.toUTF8_inj, identityText_eq_iff]

/-- An identity shows the first bytes of the hash as they are. -/
theorem id_eq_iff_take :
    r.id = s.id ↔
      (Sha256.hash r.identityBytes).take 8 = (Sha256.hash s.identityBytes).take 8 :=
  Sha256.hex_injective.eq_iff

theorem id_eq_iff : r.id = s.id ↔ SameEndpoint r s ∨ RunTogether r s ∨ Collide r s := by
  rw [id_eq_iff_take, ← or_assoc, ← identityBytes_eq_iff]
  constructor
  · intro h
    by_cases hbytes : r.identityBytes = s.identityBytes
    · exact .inl hbytes
    · exact .inr ⟨hbytes, h⟩
  · rintro (hbytes | hcollide)
    · rw [hbytes]
    · exact hcollide.hash_eq

theorem sameCode_iff {a b : Snapshot} :
    a.sameCode b = true ↔ a.route.id = b.route.id ∧ a.codeHash = b.codeHash := by
  rw [Snapshot.sameCode, Bool.and_eq_true, decide_eq_true_iff, decide_eq_true_iff]

/-- How far identities tell endpoints apart.  The bytes that are hashed tell two routes apart unless
they are of one endpoint or run together, and routes that run together are of two endpoints; they
have a blank in a path and in a file, so without blanks in the paths, or without blanks in the
files, the bytes tell all endpoints apart.  Identities, and the comparison of records, can besides
be misled by two texts with one hash, and by nothing else. -/
theorem identity_of_endpoints (r s : Route) :
    (r.identityBytes = s.identityBytes ↔ SameEndpoint r s ∨ RunTogether r s) ∧
    ((r.identityBytes = s.identityBytes ↔ SameEndpoint r s) ↔ ¬ RunTogether r s) ∧
    (RunTogether r s →
      (' ' ∈ r.path.toList ∨ ' ' ∈ s.path.toList) ∧
        (' ' ∈ r.filePath.toList ∨ ' ' ∈ s.filePath.toList)) ∧
    (r.id = s.id ↔ SameEndpoint r s ∨ RunTogether r s ∨ Collide r s) ∧
    ∀ a b : Snapshot,
      a.route = r →
      b.route = s →
      (a.sameCode b = true ↔
        (SameEndpoint r s ∨ RunTogether r s ∨ Collide r s) ∧ a.codeHash = b.codeHash) := by
  refine ⟨identityBytes_eq_iff, ?_, RunTogether.blank_mem, id_eq_iff, ?_⟩
  · rw [identityBytes_eq_iff, or_iff_left_iff_imp]
    exact ⟨fun h htogether => htogether.not_sameEndpoint (h htogether),
      fun h htogether => absurd htogether h⟩
  · rintro a b rfl rfl
    rw [sameCode_iff, id_eq_iff]

end Route

namespace Workspace

/-- Where no file is mounted, the routes are those that the files show by themselves. -/
theorem routes_of_edges_eq_nil
    {w : Workspace}
    (h : FileRoutes.edges w.readable = []) :
    w.routes = w.readable.flatMap fun f => f.registrations.map Registration.route := by
  have hnone : ∀ path, MountEdge.fullPath? ([] : List (MountEdge String)) path = none :=
    fun path => MountEdge.fullPath?_eq_none (by simp)
  simp only [routes, h, hnone, Registration.mounted_none]

namespace Blanks

/-- A file with routes, and another one in a directory with a blank at the end of its name. -/
def files : FileSystem :=
  ⟨.directory [
    ("routes.js", .file (some "r.get('/a /x', h);")),
    ("x ", .directory [("routes.js", .file (some "r.get('/a', h);"))])], []⟩

def project : Workspace := ⟨files, "/", []⟩

/-- What the identity of a route is made of. -/
def parts (r : Route) : Verb × String × String := (r.verb, r.path, r.filePath)

/-- What a file mounts on other files, and the routes that it shows by itself. -/
def shown (f : FileRoutes) : Nat × List (Verb × String × String) :=
  ((f.mounts.uses.filterMap f.edge?).length, f.registrations.map fun r => parts r.route)

theorem candidates_eq : project.candidates = ["/routes.js", "/x /routes.js"] := by
  have hfound : ((project.files.visibleFiles project.root).filter
      (RouteFile.isRouteFile project.ignored)).map
        (fun p => Path.normalize (Path.join project.root p)) = ["/routes.js", "/x /routes.js"] := by
    decide +kernel
  rw [candidates, hfound]
  exact List.mergeSort_of_pairwise (by decide +kernel)

theorem readable_eq :
    ∃ outer inner : FileRoutes,
      project.readable = [outer, inner] ∧
        shown outer = (0, [(.get, "/a /x", "/routes.js")]) ∧
        shown inner = (0, [(.get, "/a", "/x /routes.js")]) := by
  have hshown : ["/routes.js", "/x /routes.js"].map
      (fun p => (FileRoutes.read? project.files p).map shown) = [
        some (0, [(.get, "/a /x", "/routes.js")]),
        some (0, [(.get, "/a", "/x /routes.js")])] := by
    decide +kernel
  simp only [List.map_cons, List.map_nil, List.cons.injEq, Option.map_eq_some_iff, and_true]
    at hshown
  obtain ⟨⟨outer, houter, hshownOuter⟩, inner, hinner, hshownInner⟩ := hshown
  refine ⟨outer, inner, ?_, hshownOuter, hshownInner⟩
  rw [readable, candidates_eq, List.filterMap_cons_some houter, List.filterMap_cons_some hinner,
    List.filterMap_nil]

theorem parts_routes :
    project.routes.map parts =
      [(.get, "/a /x", "/routes.js"), (.get, "/a", "/x /routes.js")] := by
  obtain ⟨outer, inner, hreadable, houter, hinner⟩ := readable_eq
  simp only [shown, Prod.mk.injEq, List.length_eq_zero_iff] at houter hinner
  have hedges : FileRoutes.edges project.readable = [] := by
    rw [hreadable, FileRoutes.edges]
    simp only [List.flatMap_cons, List.flatMap_nil, houter.1, hinner.1]
    rfl
  rw [routes_of_edges_eq_nil hedges, hreadable]
  simp [Function.comp_def, houter.2, hinner.2]

/-- The two routes run together: the directory of the one is the end of the path of the other. -/
theorem exists_runTogether :
    ∃ r ∈ project.routes, ∃ s ∈ project.routes, Route.RunTogether r s := by
  have houter : (.get, "/a /x", "/routes.js") ∈ project.routes.map parts := by
    rw [parts_routes]
    exact List.mem_cons_self
  have hinner : (.get, "/a", "/x /routes.js") ∈ project.routes.map parts := by
    rw [parts_routes]
    exact List.mem_cons_of_mem _ (List.mem_singleton_self _)
  obtain ⟨r, hr, hrparts⟩ := List.mem_map.mp houter
  obtain ⟨s, hs, hsparts⟩ := List.mem_map.mp hinner
  simp only [parts, Prod.mk.injEq] at hrparts hsparts
  obtain ⟨hrverb, hrpath, hrfile⟩ := hrparts
  obtain ⟨hsverb, hspath, hsfile⟩ := hsparts
  refine ⟨r, hr, s, hs, by rw [hrverb, hsverb], .inr ⟨"/x", ?_, ?_⟩⟩
  · rw [hrpath, hspath]
    decide
  · rw [hrfile, hsfile]
    decide

end Blanks
end Workspace

namespace Route

/-- Two routes of one project with one identity: records of the same code are taken for the same. -/
theorem identity_of_endpoints_blanks :
    ∃ r ∈ Workspace.Blanks.project.routes, ∃ s ∈ Workspace.Blanks.project.routes,
      ¬ SameEndpoint r s ∧ r.id = s.id ∧
        (Snapshot.make r none none).sameCode (Snapshot.make s none none) = true := by
  obtain ⟨r, hr, s, hs, htogether⟩ := Workspace.Blanks.exists_runTogether
  obtain ⟨-, -, -, hid, hcode⟩ := identity_of_endpoints r s
  refine ⟨r, hr, s, hs, htogether.not_sameEndpoint, hid.mpr (.inr (.inl htogether)), ?_⟩
  exact (hcode (.make r none none) (.make s none none) rfl rfl).mpr
    ⟨.inr (.inl htogether), rfl⟩

/-- The bytes that are hashed do not tell all endpoints of a project apart. -/
theorem not_forall_identityBytes_eq_iff :
    ¬ ∀ (w : Workspace) (r s : Route),
      r ∈ w.routes →
      s ∈ w.routes →
      (r.identityBytes = s.identityBytes ↔ SameEndpoint r s) := by
  intro hall
  obtain ⟨r, hr, s, hs, htogether⟩ := Workspace.Blanks.exists_runTogether
  have hbytes : r.identityBytes = s.identityBytes := identityBytes_eq_iff.mpr (.inr htogether)
  exact htogether.not_sameEndpoint ((hall Workspace.Blanks.project r s hr hs).mp hbytes)

end Route
end EndpointPayload
