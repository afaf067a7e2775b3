import EndpointPayload.Proofs.Route.MountChain

/-!
# Paths joined in any grouping

Joining takes the slashes off the end of the front and off the start of the back, and what is left
is glued: one slash between two texts, and nothing in place of an empty one.  Gluing is associative
and has the empty text for its unit, and the slashes at one end of a text can be taken off before or
after those at the other end.  So the grouping of a chain of paths does not matter, and slashes
alone are a unit up to the slashes that a joined path does not have.
-/

namespace EndpointPayload
namespace RoutePath

section Glued

variable {cs front back : List Char} {c : Char}

/-- Two texts with a slash between them, or one of them alone if the other is empty. -/
def glued (front back : List Char) : List Char :=
  if front.isEmpty then back
  else if back.isEmpty then front
  else front ++ '/' :: back

theorem glued_nil (front : List Char) : glued front [] = front := by
  cases front <;> rfl

theorem nil_glued (back : List Char) : glued [] back = back := rfl

theorem glued_of_ne_nil
    (hfront : front ≠ [])
    (hback : back ≠ []) :
    glued front back = front ++ '/' :: back := by
  simp [glued, hfront, hback]

theorem glued_assoc (xs ys zs : List Char) :
    glued (glued xs ys) zs = glued xs (glued ys zs) := by
  cases xs <;> cases ys <;> cases zs <;> simp [glued]

theorem trimStart_append (h : trimStart front ≠ []) (back : List Char) :
    trimStart (front ++ back) = trimStart front ++ back := by
  rw [trimStart] at h
  rw [trimStart, List.dropWhile_append, if_neg (by simpa using h)]
  rfl

theorem trimEnd_append (front : List Char) (h : trimEnd back ≠ []) :
    trimEnd (front ++ back) = front ++ trimEnd back := by
  have hback : trimStart back.reverse ≠ [] := by simpa [trimEnd] using h
  rw [trimEnd, List.reverse_append, trimStart_append hback, List.reverse_append,
    List.reverse_reverse]
  rfl

theorem trimEnd_trimEnd : trimEnd (trimEnd cs) = trimEnd cs := by
  rw [trimEnd, trimEnd, List.reverse_reverse, trimStart_trimStart]

theorem trimEnd_cons (h : trimEnd cs ≠ []) : trimEnd (c :: cs) = c :: trimEnd cs :=
  trimEnd_append [c] h

/-- A character that is no slash stays, and all before it. -/
theorem trimEnd_cons_of_ne (h : c ≠ '/') : trimEnd (c :: cs) = c :: trimEnd cs := by
  by_cases hcs : trimEnd cs = []
  · have hslashes : ∀ x ∈ cs.reverse, x = '/' := by
      simpa using trimEnd_eq_nil_iff.mp hcs
    have hreverse : trimStart cs.reverse = [] := trimStart_eq_nil_iff.mpr hslashes
    rw [hcs, trimEnd, List.reverse_cons, trimStart, List.dropWhile_append]
    rw [trimStart] at hreverse
    simp [hreverse, h]
  · exact trimEnd_cons hcs

/-- The slashes at both ends come off in any order. -/
theorem trimEnd_trimStart (cs : List Char) : trimEnd (trimStart cs) = trimStart (trimEnd cs) := by
  induction cs with
  | nil => rfl
  | cons c cs ih =>
      by_cases hc : c = '/'
      · subst hc
        rw [trimStart_slash, ih]
        by_cases hcs : trimEnd cs = []
        · have hall : ∀ x ∈ '/' :: cs, x = '/' :=
            List.forall_mem_cons.mpr ⟨rfl, trimEnd_eq_nil_iff.mp hcs⟩
          rw [hcs, trimEnd_eq_nil_iff.mpr hall]
        · rw [trimEnd_cons hcs, trimStart_slash]
      · have hstart : trimStart (c :: cs) = c :: cs := trimStart_of_head? (by simpa using hc)
        rw [hstart, trimEnd_cons_of_ne hc, trimStart_of_head? (by simpa using hc)]

theorem trimEnd_ne_nil
    (hne : cs ≠ [])
    (hhead : trimStart cs = cs) :
    trimEnd cs ≠ [] := by
  intro h
  rw [trimEnd_eq_nil_iff, ← trimStart_eq_nil_iff, hhead] at h
  exact hne h

/-- Slashes come off the start of glued texts at the first of them. -/
theorem trimStart_glued
    (hfront : trimStart front = front)
    (hback : trimStart back = back) :
    trimStart (glued front back) = glued front back := by
  by_cases hf : front = []
  · rw [hf, nil_glued, hback]
  · by_cases hb : back = []
    · rw [hb, glued_nil, hfront]
    · rw [glued_of_ne_nil hf hb, trimStart_append (by rwa [hfront]), hfront]

/-- Slashes come off the end of glued texts at the second of them. -/
theorem trimEnd_glued
    (hfront : trimEnd front = front)
    (hback : trimStart back = back) :
    trimEnd (glued front back) = glued front (trimEnd back) := by
  by_cases hf : front = []
  · rw [hf, nil_glued, nil_glued]
  · by_cases hb : back = []
    · rw [hb]
      exact (congrArg trimEnd (glued_nil front)).trans (hfront.trans (glued_nil front).symm)
    · have hend := trimEnd_ne_nil hb hback
      have hseam : trimEnd ('/' :: back) = '/' :: trimEnd back := trimEnd_cons hend
      rw [glued_of_ne_nil hf hb, glued_of_ne_nil hf hend, trimEnd_append _ (by simp [hseam]), hseam]

end Glued

section Join

variable {a b : String}

/-- A joined path is the two texts without their slashes at the front and at the seam, glued behind
one slash. -/
theorem toList_join (a b : String) :
    (join a b).toList = '/' :: glued (trimEnd (trimStart a.toList)) (trimStart b.toList) := by
  have hseam : trimStart (seam a.toList b.toList) =
      glued (trimEnd (trimStart a.toList)) (trimStart b.toList) := by
    have hglued : seam a.toList b.toList = glued (trimEnd a.toList) (trimStart b.toList) := rfl
    rw [hglued, trimEnd_trimStart]
    by_cases ha : trimEnd a.toList = []
    · rw [ha]
      exact trimStart_trimStart
    · have hstart : trimStart (trimEnd a.toList) ≠ [] := fun h =>
        ha (trimEnd_eq_nil_iff.mpr (forall_mem_trimEnd_iff.mp (trimStart_eq_nil_iff.mp h)))
      by_cases hb : trimStart b.toList = []
      · rw [hb, glued_nil, glued_nil]
      · rw [glued_of_ne_nil ha hb, glued_of_ne_nil hstart hb, trimStart_append hstart]
  simp [join, normalize, hseam]

theorem trimStart_toList_join (a b : String) :
    trimStart (join a b).toList =
      glued (trimEnd (trimStart a.toList)) (trimStart b.toList) := by
  have hfront : trimStart (trimEnd (trimStart a.toList)) = trimEnd (trimStart a.toList) := by
    rw [← trimEnd_trimStart, trimStart_trimStart]
  rw [toList_join, trimStart_slash, trimStart_glued hfront trimStart_trimStart]

theorem join_assoc (a b c : String) : join (join a b) c = join a (join b c) := by
  have hend : trimEnd (glued (trimEnd (trimStart a.toList)) (trimStart b.toList)) =
      glued (trimEnd (trimStart a.toList)) (trimEnd (trimStart b.toList)) :=
    trimEnd_glued trimEnd_trimEnd trimStart_trimStart
  rw [← String.toList_inj, toList_join (join a b) c, toList_join a (join b c),
    trimStart_toList_join, trimStart_toList_join, hend, glued_assoc]

theorem join_slash_left (a : String) : join "/" a = normalize a := by
  rw [← String.toList_inj, toList_join]
  simp [normalize, trimStart, trimEnd, nil_glued]

/-- Slashes alone only take the slashes off the end of what they are joined behind. -/
theorem join_slash_right (a : String) :
    join a "/" = normalize (String.ofList (trimEnd a.toList)) := by
  have hslash : trimStart "/".toList = [] := by decide
  rw [← String.toList_inj, toList_join, hslash, glued_nil, normalize, trimEnd_trimStart]
  simp

/-- A joined path that keeps both sides but for slashes at their ends, with one slash in front and
one where the sides meet. -/
inductive MeetsOnce (a b joined : String) : Prop where
  | intro
      {i j k : Nat}
      {front back : List Char}
      (ha : a.toList = List.replicate i '/' ++ front ++ List.replicate j '/')
      (hb : b.toList = List.replicate k '/' ++ back)
      (hfront : front ≠ [])
      (hback : back ≠ [])
      (hstarts : front.head? ≠ some '/' ∧ back.head? ≠ some '/')
      (hends : front.getLast? ≠ some '/')
      (hjoined : joined.toList = '/' :: front ++ '/' :: back) :
      MeetsOnce a b joined

theorem exists_replicate_trimStart (cs : List Char) :
    ∃ n, cs = List.replicate n '/' ++ trimStart cs := by
  induction cs with
  | nil => exact ⟨0, rfl⟩
  | cons c cs ih =>
      by_cases hc : c = '/'
      · obtain ⟨n, hn⟩ := ih
        refine ⟨n + 1, ?_⟩
        rw [hc, trimStart_slash, List.replicate_succ, List.cons_append, ← hn]
      · exact ⟨0, (trimStart_of_head? (by simpa using hc)).symm⟩

theorem exists_replicate_trimEnd (cs : List Char) :
    ∃ n, cs = trimEnd cs ++ List.replicate n '/' := by
  obtain ⟨n, hn⟩ := exists_replicate_trimStart cs.reverse
  refine ⟨n, List.reverse_injective ?_⟩
  rw [List.reverse_append, List.reverse_replicate, trimEnd, List.reverse_reverse]
  exact hn

theorem getLast?_trimEnd (cs : List Char) : (trimEnd cs).getLast? ≠ some '/' := by
  rw [trimEnd, List.getLast?_reverse]
  exact head?_trimStart cs.reverse

theorem meetsOnce_join
    (ha : ¬ IsSlashes a)
    (hb : ¬ IsSlashes b) :
    MeetsOnce a b (join a b) := by
  obtain ⟨i, hi⟩ := exists_replicate_trimStart a.toList
  obtain ⟨j, hj⟩ := exists_replicate_trimEnd (trimStart a.toList)
  obtain ⟨k, hk⟩ := exists_replicate_trimStart b.toList
  have hfront : trimEnd (trimStart a.toList) ≠ [] := fun h =>
    ha (forall_mem_trimStart_iff.mp (trimEnd_eq_nil_iff.mp h))
  have hback : trimStart b.toList ≠ [] := fun h => hb (trimStart_eq_nil_iff.mp h)
  have hhead : (trimEnd (trimStart a.toList)).head? ≠ some '/' := by
    rw [trimEnd_trimStart]
    exact head?_trimStart _
  have hsides : a.toList =
      List.replicate i '/' ++ trimEnd (trimStart a.toList) ++ List.replicate j '/' := by
    rw [List.append_assoc, ← hj]
    exact hi
  have hjoined : (join a b).toList =
      '/' :: trimEnd (trimStart a.toList) ++ '/' :: trimStart b.toList := by
    rw [toList_join, glued_of_ne_nil hfront hback]
    rfl
  exact .intro hsides hk hfront hback ⟨hhead, head?_trimStart _⟩ (getLast?_trimEnd _) hjoined

end Join

/-! ## Groupings -/

/-- The order in which the paths of a chain are joined. -/
inductive Grouping where
  | path (s : String)
  | pair (front back : Grouping)

namespace Grouping

/-- The path that the joins of a grouping give. -/
def joined : Grouping → String
  | path s => s
  | pair front back => join front.joined back.joined

/-- The paths of the chain, from the front on. -/
def paths : Grouping → List String
  | path s => [s]
  | pair front back => front.paths ++ back.paths

end Grouping

theorem joinAll_append
    {fronts : List String}
    (hfronts : fronts ≠ [])
    (backs : List String)
    (hbacks : backs ≠ []) :
    joinAll (fronts ++ backs) = join (joinAll fronts) (joinAll backs) := by
  induction backs using List.reverseRecOn with
  | nil => exact absurd rfl hbacks
  | append_singleton backs path ih =>
      rw [← List.append_assoc, joinAll_concat (by simp [hfronts])]
      by_cases hne : backs = []
      · rw [hne, List.append_nil]
        rfl
      · rw [ih hne, joinAll_concat hne, join_assoc]

theorem Grouping.paths_ne_nil (g : Grouping) : g.paths ≠ [] := by
  induction g with
  | path s => simp [paths]
  | pair front back ih _ => simp [paths, ih]

/-- Every grouping of a chain gives what joining from the front on gives. -/
theorem Grouping.joined_eq_joinAll (g : Grouping) : g.joined = joinAll g.paths := by
  induction g with
  | path s => rfl
  | pair front back ihFront ihBack =>
      rw [joined, paths, joinAll_append front.paths_ne_nil _ back.paths_ne_nil, ihFront, ihBack]

/-- Paths that are themselves joined from others, joined from the front on. -/
theorem joinAll_map_joined
    {parts : List Grouping}
    (hne : parts ≠ []) :
    joinAll (parts.map Grouping.joined) = joinAll (parts.flatMap Grouping.paths) := by
  induction parts using List.reverseRecOn with
  | nil => exact absurd rfl hne
  | append_singleton parts last ih =>
      rw [List.map_append, List.flatMap_append, List.map_singleton, List.flatMap_singleton]
      by_cases hparts : parts = []
      · rw [hparts]
        exact last.joined_eq_joinAll
      · have hpaths : parts.flatMap Grouping.paths ≠ [] := by
          obtain ⟨first, rest, rfl⟩ := List.exists_cons_of_ne_nil hparts
          simp [first.paths_ne_nil]
        rw [joinAll_concat (by simpa using hparts), ih hparts, last.joined_eq_joinAll,
          joinAll_append hpaths _ last.paths_ne_nil]

/-- A path behind a chain of mounts, whose own paths may be joined from those of routers. -/
theorem join_joined_eq
    {α : Type}
    {chain : List (MountEdge α)}
    {parts : List Grouping}
    {route whole : Grouping}
    (hne : chain ≠ [])
    (hparts : chain.map MountEdge.path = parts.map Grouping.joined)
    (hwhole : whole.paths = parts.reverse.flatMap Grouping.paths ++ route.paths) :
    join (MountEdge.joined chain) route.joined = whole.joined := by
  have hparts_ne : parts.reverse ≠ [] := by
    rintro hnil
    rw [List.reverse_eq_nil_iff.mp hnil, List.map_nil, List.map_eq_nil_iff] at hparts
    exact hne hparts
  have hpaths : parts.reverse.flatMap Grouping.paths ≠ [] := by
    obtain ⟨first, rest, hfirst⟩ := List.exists_cons_of_ne_nil hparts_ne
    simp [hfirst, first.paths_ne_nil]
  rw [whole.joined_eq_joinAll, hwhole, joinAll_append hpaths _ route.paths_ne_nil,
    MountEdge.joined, hparts, ← List.map_reverse, joinAll_map_joined hparts_ne,
    route.joined_eq_joinAll]

/-- Joining is associative.  A slash in front of a path only normalises it, and one behind it takes
the slashes off its end as well.  Exactly one slash is in front of what is joined, and two sides
that are more than slashes meet in exactly one.  All groupings of a chain of paths give the same
path, so a route behind a chain of mounts has that path however the mounts and the route itself are
put together. -/
theorem join_monoid_laws :
    (∀ a b c, join (join a b) c = join a (join b c)) ∧
    (∀ a, join "/" a = normalize a) ∧
    (∀ a, join a "/" = normalize (String.ofList (trimEnd a.toList))) ∧
    (∀ a b, StartsWithOneSlash (join a b)) ∧
    (∀ a b, ¬ IsSlashes a → ¬ IsSlashes b → MeetsOnce a b (join a b)) ∧
    (∀ g h : Grouping, g.paths = h.paths → g.joined = h.joined) ∧
    ∀ (chain : List (MountEdge String)) (parts : List Grouping) (route whole : Grouping),
      chain ≠ [] → chain.map MountEdge.path = parts.map Grouping.joined →
      whole.paths = parts.reverse.flatMap Grouping.paths ++ route.paths →
      join (MountEdge.joined chain) route.joined = whole.joined := by
  refine ⟨join_assoc, join_slash_left, join_slash_right, ?_, fun a b => meetsOnce_join, ?_,
    fun chain parts route whole => join_joined_eq⟩
  · intro a b
    exact isNormal_iff.mp (isNormal_join a b)
  · intro g h hpaths
    rw [g.joined_eq_joinAll, h.joined_eq_joinAll, hpaths]

/-- Two sides with slashes at all their ends; and a route with a path of its own router, in a file
that is mounted on a mounted router of another file. -/
theorem join_monoid_laws_users :
    (¬ IsSlashes "/api//" ∧ ¬ IsSlashes "//users/" ∧
      MeetsOnce "/api//" "//users/" (join "/api//" "//users/")) ∧
    join (MountEdge.joined [⟨"/users.js", some "/app.js", join "/api/" "v1"⟩])
        (join "//users/" ":id") =
      join (join "/api/" (join "v1" "//users/")) ":id" := by
  obtain ⟨-, -, -, -, hmeets, -, hchain⟩ := join_monoid_laws
  have hapi : ¬ IsSlashes "/api//" := fun h => absurd (h 'a' (by decide)) (by decide)
  have husers : ¬ IsSlashes "//users/" := fun h => absurd (h 'u' (by decide)) (by decide)
  refine ⟨⟨hapi, husers, hmeets _ _ hapi husers⟩, ?_⟩
  exact hchain [⟨"/users.js", some "/app.js", join "/api/" "v1"⟩]
    [.pair (.path "/api/") (.path "v1")] (.pair (.path "//users/") (.path ":id"))
    (.pair (.pair (.path "/api/") (.pair (.path "v1") (.path "//users/"))) (.path ":id"))
    (by simp) rfl rfl

end RoutePath
end EndpointPayload
