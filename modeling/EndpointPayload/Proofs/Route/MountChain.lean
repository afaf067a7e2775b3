import EndpointPayload.Proofs.Route.Mounted

/-!
# Chains of mounts and their paths

`MountEdge.fullPath?` takes the mounts of a thing out of the list before it goes on to the parent.
`MountEdge.IsChain` says what that amounts to without any search: the first mount of the thing, the
first mount of its parent, and so on, no thing twice, up to a parent that has no mount or stands on
the chain already.  Every mounted thing has exactly one chain, and its full path is the paths of the
chain joined from the outermost one inwards, cycles or not.

For the mounts between files this gives the mount of every file from the uses that the files show.
-/

namespace EndpointPayload

namespace RoutePath

/-- Paths joined behind one another. -/
def joinAll : List String → String
  | [] => ""
  | path :: rest => rest.foldl join path

theorem joinAll_concat
    {paths : List String}
    (hne : paths ≠ [])
    (path : String) :
    joinAll (paths ++ [path]) = join (joinAll paths) path := by
  cases paths with
  | nil => exact absurd rfl hne
  | cons front rest => simp [joinAll]

end RoutePath

namespace MountEdge

variable {α : Type} [DecidableEq α]

/-- The mounts from a thing outwards, as far as there is a mount of something new. -/
structure IsChain
    (edges : List (MountEdge α))
    (x : α)
    (chain : List (MountEdge α)) :
    Prop where
  /-- It starts at the thing. -/
  starts : chain.head?.map target = some x
  /-- It holds the first mount of each thing. -/
  isFirst : ∀ e ∈ chain, edges.find? (fun e' => e'.target = e.target) = some e
  /-- A mount is followed by one of its parent. -/
  isLinked : chain.IsChain fun e above => e.parent = some above.target
  nodup : (chain.map target).Nodup
  /-- It ends below a thing that stands on it already or has no mount. -/
  ends : ∀ e p, chain.getLast? = some e → e.parent = some p →
    p ∈ chain.map target ∨ ∀ e' ∈ edges, e'.target ≠ p

/-- The paths of a chain, joined from the outermost one inwards. -/
def joined (chain : List (MountEdge α)) : String :=
  RoutePath.joinAll (chain.map path).reverse

section Chains

variable {edges chain : List (MountEdge α)} {e : MountEdge α} {x p : α}

omit [DecidableEq α] in
theorem joined_cons (hne : chain ≠ []) :
    joined (e :: chain) = RoutePath.join (joined chain) e.path := by
  rw [joined, List.map_cons, List.reverse_cons, RoutePath.joinAll_concat (by simpa using hne)]
  rfl

/-- Leaving out the mounts of one thing leaves the first mounts of all others. -/
theorem find?_others {y : α} (hne : y ≠ x) :
    (others edges x).find? (fun e => e.target = y) = edges.find? fun e => e.target = y := by
  rw [others, List.find?_filter]
  congr 1
  funext e
  by_cases hy : e.target = y
  · simp [hy, hne]
  · simp [hy]

theorem target_ne_of_mem_others (h : e ∈ others edges x) : e.target ≠ x := by
  simpa using (List.mem_filter.mp h).2

/-- A thing without a mount among the others is the one left out, or has no mount at all. -/
theorem forall_others_iff :
    (∀ e ∈ others edges x, e.target ≠ p) ↔ p = x ∨ ∀ e ∈ edges, e.target ≠ p := by
  constructor
  · intro h
    by_cases hp : p = x
    · exact .inl hp
    · refine .inr fun e he htarget => h e ?_ htarget
      exact List.mem_filter.mpr ⟨he, by simpa [htarget] using hp⟩
  · rintro (rfl | h) e he
    · exact target_ne_of_mem_others he
    · exact h e (List.mem_filter.mp he).1

/-- A chain holds the first mount of the thing.  It ends there if no parent is mounted otherwise,
and else it goes on with a chain from the parent among the other mounts. -/
theorem IsChain.inv (h : IsChain edges x (e :: chain)) :
    edges.find? (fun e => e.target = x) = some e ∧
      ((chain = [] ∧ ∀ p, e.parent = some p → ∀ e' ∈ others edges x, e'.target ≠ p) ∨
        ∃ p, e.parent = some p ∧ IsChain (others edges x) p chain) := by
  have hx : e.target = x := by simpa using h.starts
  have hfirst := h.isFirst e List.mem_cons_self
  rw [hx] at hfirst
  refine ⟨hfirst, ?_⟩
  cases chain with
  | nil =>
      refine .inl ⟨rfl, fun p hp => forall_others_iff.2 ?_⟩
      have hends := h.ends e p rfl hp
      rwa [List.map_singleton, List.mem_singleton, hx] at hends
  | cons above rest =>
      have hlinked := List.isChain_cons_cons.mp h.isLinked
      have hnodup := h.nodup
      rw [List.map_cons, List.nodup_cons, hx] at hnodup
      refine .inr ⟨above.target, hlinked.1, rfl, fun e' he' => ?_, hlinked.2, hnodup.2, ?_⟩
      · have hne : e'.target ≠ x := fun heq => hnodup.1 (heq ▸ List.mem_map_of_mem he')
        rw [find?_others hne]
        exact h.isFirst e' (List.mem_cons_of_mem _ he')
      · intro last q hlast hq
        have hends := h.ends last q (by rw [List.getLast?_cons_cons]; exact hlast) hq
        rw [List.map_cons, List.mem_cons, hx, or_assoc, or_left_comm] at hends
        exact hends.imp_right forall_others_iff.2

theorem IsChain.ne_nil (h : IsChain edges x chain) : chain ≠ [] := by
  rintro rfl
  simpa using h.starts

theorem IsChain.exists_target (h : IsChain edges x chain) : ∃ e ∈ edges, e.target = x := by
  cases chain with
  | nil => exact absurd rfl h.ne_nil
  | cons e rest =>
      exact ⟨e, List.mem_of_find?_eq_some h.inv.1, by simpa using List.find?_some h.inv.1⟩

/-- The full path of a thing is the joined path of its chain. -/
theorem IsChain.fullPath?_eq (h : IsChain edges x chain) :
    fullPath? edges x = some (joined chain) := by
  induction chain generalizing edges x with
  | nil => exact absurd rfl h.ne_nil
  | cons e chain ih =>
      obtain ⟨hfirst, ⟨rfl, hends⟩ | ⟨p, hparent, habove⟩⟩ := h.inv
      · have hnone : e.parent.bind (fullPath? (others edges x)) = none := by
          cases hp : e.parent with
          | none => rfl
          | some p => exact fullPath?_eq_none (hends p hp)
        rw [fullPath?_of_find? hfirst, hnone]
        rfl
      · rw [fullPath?_of_find? hfirst, hparent, Option.bind_some, ih habove,
          joined_cons habove.ne_nil]
        rfl

/-- There is no second chain. -/
theorem IsChain.eq
    {chain' : List (MountEdge α)}
    (h : IsChain edges x chain)
    (h' : IsChain edges x chain') :
    chain = chain' := by
  induction chain generalizing edges x chain' with
  | nil => exact absurd rfl h.ne_nil
  | cons e chain ih =>
      cases chain' with
      | nil => exact absurd rfl h'.ne_nil
      | cons e' chain' =>
          obtain ⟨hfirst, hrest⟩ := h.inv
          obtain ⟨hfirst', hrest'⟩ := h'.inv
          rw [hfirst, Option.some.injEq] at hfirst'
          subst hfirst'
          rcases hrest with ⟨rfl, hends⟩ | ⟨p, hparent, habove⟩
          · rcases hrest' with ⟨rfl, -⟩ | ⟨p', hparent', habove'⟩
            · rfl
            · obtain ⟨e', he', htarget⟩ := habove'.exists_target
              exact absurd htarget (hends p' hparent' e' he')
          · rcases hrest' with ⟨-, hends'⟩ | ⟨p', hparent', habove'⟩
            · obtain ⟨e', he', htarget⟩ := habove.exists_target
              exact absurd htarget (hends' p hparent e' he')
            · rw [hparent, Option.some.injEq] at hparent'
              subst hparent'
              rw [ih habove habove']

/-- A chain is no longer than the list of mounts. -/
theorem IsChain.length_le (h : IsChain edges x chain) : chain.length ≤ edges.length := by
  have hnodup : chain.Nodup := h.nodup.of_map target
  have hsubset : chain ⊆ edges := fun e he => List.mem_of_find?_eq_some (h.isFirst e he)
  exact (hnodup.subperm hsubset).length_le

theorem isChain_singleton
    (hfirst : edges.find? (fun e => e.target = x) = some e)
    (hends : ∀ p, e.parent = some p → ∀ e' ∈ others edges x, e'.target ≠ p) :
    IsChain edges x [e] := by
  have hx : e.target = x := by simpa using List.find?_some hfirst
  refine ⟨by simp [hx], ?_, .singleton e, List.nodup_singleton _, ?_⟩
  · simpa [hx] using hfirst
  · intro last p hlast hp
    obtain rfl : e = last := by simpa using hlast
    simpa [hx] using forall_others_iff.1 (hends p hp)

/-- The first mount of a thing goes before a chain from its parent among the other mounts. -/
theorem IsChain.cons
    (hfirst : edges.find? (fun e => e.target = x) = some e)
    (hparent : e.parent = some p)
    (h : IsChain (others edges x) p chain) :
    IsChain edges x (e :: chain) := by
  have hx : e.target = x := by simpa using List.find?_some hfirst
  have hnew : ∀ e' ∈ chain, e'.target ≠ x := fun e' he' =>
    target_ne_of_mem_others (List.mem_of_find?_eq_some (h.isFirst e' he'))
  obtain ⟨above, rest, rfl⟩ := List.exists_cons_of_ne_nil h.ne_nil
  have hp : above.target = p := by simpa using h.starts
  refine ⟨by simp [hx], ?_, ?_, ?_, ?_⟩
  · intro e' he'
    rcases List.mem_cons.mp he' with rfl | hmem
    · simpa [hx] using hfirst
    · rw [← find?_others (hnew e' hmem)]
      exact h.isFirst e' hmem
  · exact List.isChain_cons_cons.mpr ⟨by rw [hparent, hp], h.isLinked⟩
  · rw [List.map_cons, List.nodup_cons, hx]
    refine ⟨fun hmem => ?_, h.nodup⟩
    obtain ⟨e', he', heq⟩ := List.mem_map.mp hmem
    exact hnew e' he' heq
  · intro last q hlast hq
    rw [List.getLast?_cons_cons] at hlast
    have hends := (h.ends last q hlast hq).imp_right forall_others_iff.1
    rw [List.map_cons, List.mem_cons, hx, or_assoc, or_left_comm]
    exact hends

/-- Every mounted thing has a chain. -/
theorem exists_isChain (edges : List (MountEdge α)) (x : α) (hx : ∃ e ∈ edges, e.target = x) :
    ∃ chain, IsChain edges x chain := by
  obtain ⟨e, hfirst⟩ : ∃ e, edges.find? (fun e => e.target = x) = some e := by
    obtain ⟨e, he, htarget⟩ := hx
    exact Option.isSome_iff_exists.mp (List.find?_isSome.mpr ⟨e, he, by simpa using htarget⟩)
  by_cases habove : ∃ p, e.parent = some p ∧ ∃ e' ∈ others edges x, e'.target = p
  · obtain ⟨p, hparent, hp⟩ := habove
    obtain ⟨chain, hchain⟩ := exists_isChain (others edges x) p hp
    exact ⟨e :: chain, hchain.cons hfirst hparent⟩
  · push Not at habove
    exact ⟨[e], isChain_singleton hfirst habove⟩
termination_by edges.length
decreasing_by exact length_others_lt hfirst

/-- The full path of a thing is that of its chain, and there is none exactly without a mount. -/
theorem fullPath?_eq_some_iff {path : String} :
    fullPath? edges x = some path ↔ ∃ chain, IsChain edges x chain ∧ joined chain = path := by
  constructor
  · intro hpath
    by_cases hx : ∃ e ∈ edges, e.target = x
    · obtain ⟨chain, hchain⟩ := exists_isChain edges x hx
      rw [hchain.fullPath?_eq, Option.some.injEq] at hpath
      exact ⟨chain, hchain, hpath⟩
    · push Not at hx
      rw [fullPath?_eq_none hx] at hpath
      cases hpath
  · rintro ⟨chain, hchain, rfl⟩
    exact hchain.fullPath?_eq

theorem isSome_fullPath?_iff :
    (fullPath? edges x).isSome = true ↔ ∃ e ∈ edges, e.target = x := by
  rw [Option.isSome_iff_exists]
  constructor
  · rintro ⟨path, hpath⟩
    obtain ⟨chain, hchain, -⟩ := fullPath?_eq_some_iff.1 hpath
    exact hchain.exists_target
  · intro hx
    obtain ⟨chain, hchain⟩ := exists_isChain edges x hx
    exact ⟨_, hchain.fullPath?_eq⟩

end Chains

end MountEdge

namespace FileRoutes

/-- The file that a mount of a script puts under a path. -/
def targetFile? (f : FileRoutes) (m : Mount) : Option String :=
  match m.target with
  | .router n => f.imports.file? n
  | .file p => some p

/-- Whether a mount of a script puts a file under a path; a script does not mount itself. -/
def MountsFile (f : FileRoutes) (m : Mount) (x : String) : Prop :=
  f.targetFile? m = some x ∧ f.path ≠ x

/-- The path of a mount, below that of its receiver if the script mounts this. -/
def mountPath (f : FileRoutes) (m : Mount) : String :=
  match m.receiver.bind f.mounts.path? with
  | some above => RoutePath.join above m.path
  | none => m.path

/-- The mounts that some files show, in the order of the files, each with its file. -/
def uses (fs : List FileRoutes) : List (FileRoutes × Mount) :=
  fs.flatMap fun f => f.mounts.uses.map fun m => (f, m)

/-- The first mount of a file by another one. -/
structure IsFirstMount
    (fs : List FileRoutes)
    (x : String)
    (f : FileRoutes)
    (m : Mount) :
    Prop where
  mountsFile : f.MountsFile m x
  isFirst : ∃ before after, uses fs = before ++ (f, m) :: after ∧
    ∀ u ∈ before, ¬ u.1.MountsFile u.2 x

section Mounts

variable {fs : List FileRoutes} {f : FileRoutes} {m : Mount} {x : String}

/-- A mount is an edge from the file that it mounts to the one that shows it. -/
theorem edge?_eq_some_iff {e : MountEdge String} :
    f.edge? m = some e ↔
      f.MountsFile m e.target ∧ e = ⟨e.target, some f.path, f.mountPath m⟩ := by
  have hedge : f.edge? m = (f.targetFile? m).bind fun t =>
      if t = f.path then none else some ⟨t, some f.path, f.mountPath m⟩ := by
    unfold edge? targetFile?
    cases m.target with
    | router n =>
        dsimp only
        cases f.imports.file? n <;> rfl
    | file path => rfl
  rw [hedge, Option.bind_eq_some_iff, MountsFile]
  constructor
  · rintro ⟨t, ht, he⟩
    by_cases hself : t = f.path
    · simp [hself] at he
    · rw [if_neg hself, Option.some.injEq] at he
      subst he
      exact ⟨⟨ht, Ne.symm hself⟩, rfl⟩
  · rintro ⟨⟨ht, hself⟩, he⟩
    exact ⟨e.target, ht, by rw [if_neg (Ne.symm hself), ← he]⟩

theorem edge?_of_mountsFile (h : f.MountsFile m x) :
    f.edge? m = some ⟨x, some f.path, f.mountPath m⟩ :=
  edge?_eq_some_iff.2 ⟨h, rfl⟩

theorem any_edge?_iff :
    (f.edge? m).any (fun e => e.target = x) = true ↔ f.MountsFile m x := by
  constructor
  · intro h
    obtain ⟨e, he, htarget⟩ := (Option.any_eq_true _ _).mp h
    exact of_decide_eq_true htarget ▸ (edge?_eq_some_iff.1 he).1
  · intro h
    simp [edge?_of_mountsFile h]

theorem edges_eq : edges fs = (uses fs).filterMap fun u => u.1.edge? u.2 := by
  rw [edges, uses, List.filterMap_flatMap]
  congr 1
  funext f
  rw [List.filterMap_map]
  rfl

theorem mem_uses : (f, m) ∈ uses fs ↔ f ∈ fs ∧ m ∈ f.mounts.uses := by
  simp only [uses, List.mem_flatMap, List.mem_map, Prod.mk.injEq]
  constructor
  · rintro ⟨f, hf, m, hm, rfl, rfl⟩
    exact ⟨hf, hm⟩
  · rintro ⟨hf, hm⟩
    exact ⟨f, hf, m, hm, rfl, rfl⟩

theorem exists_edge_iff :
    (∃ e ∈ edges fs, e.target = x) ↔ ∃ f ∈ fs, ∃ m ∈ f.mounts.uses, f.MountsFile m x := by
  rw [edges_eq]
  constructor
  · rintro ⟨e, he, rfl⟩
    obtain ⟨⟨f, m⟩, hu, hedge⟩ := List.mem_filterMap.mp he
    obtain ⟨hf, hm⟩ := mem_uses.mp hu
    exact ⟨f, hf, m, hm, (edge?_eq_some_iff.1 hedge).1⟩
  · rintro ⟨f, hf, m, hm, hx⟩
    refine ⟨_, List.mem_filterMap.mpr ⟨(f, m), mem_uses.mpr ⟨hf, hm⟩, edge?_of_mountsFile hx⟩, rfl⟩

/-- The first edge to a file comes from the first mount of the file. -/
theorem find?_edges_iff {e : MountEdge String} :
    (edges fs).find? (fun e => e.target = x) = some e ↔
      ∃ f m, IsFirstMount fs x f m ∧ e = ⟨x, some f.path, f.mountPath m⟩ := by
  rw [edges_eq, List.find?_filterMap, Option.bind_eq_some_iff]
  simp only [List.find?_eq_some_iff_append, any_edge?_iff, Bool.not_eq_true', Bool.eq_false_iff,
    ne_eq]
  constructor
  · rintro ⟨⟨f, m⟩, ⟨hx, before, after, huses, hbefore⟩, he⟩
    rw [edge?_of_mountsFile hx, Option.some.injEq] at he
    exact ⟨f, m, ⟨hx, before, after, huses, hbefore⟩, he.symm⟩
  · rintro ⟨f, m, ⟨hx, before, after, huses, hbefore⟩, rfl⟩
    exact ⟨(f, m), ⟨hx, before, after, huses, hbefore⟩, edge?_of_mountsFile hx⟩

end Mounts

/-- For all files, whatever they mount on one another: a file has a mount exactly if another file
mounts it.  What counts is the first mount of a file, under its path below that of the receiver.  Of
such mounts a mounted file has exactly one chain outwards, which ends at a file that is not mounted
or met before, and its path is the paths of the chain joined from the outermost one inwards.  The
path of a receiver comes from the mounts inside its file in the same way. -/
theorem fullPath?_edges (fs : List FileRoutes) (x : String) :
    ((MountEdge.fullPath? (edges fs) x).isSome = true ↔
      ∃ f ∈ fs, ∃ m ∈ f.mounts.uses, f.MountsFile m x) ∧
    (∀ e, (edges fs).find? (fun e => e.target = x) = some e ↔
      ∃ f m, IsFirstMount fs x f m ∧ e = ⟨x, some f.path, f.mountPath m⟩) ∧
    ((MountEdge.fullPath? (edges fs) x).isSome = true →
      ∃! chain, MountEdge.IsChain (edges fs) x chain) ∧
    (∀ chain, MountEdge.IsChain (edges fs) x chain →
      MountEdge.fullPath? (edges fs) x = some (MountEdge.joined chain) ∧
        chain.length ≤ (edges fs).length) ∧
    (∀ (mounts : Mounts) (router path : String),
      mounts.path? router = some path ↔
        ∃ chain, MountEdge.IsChain mounts.edges router chain ∧
          MountEdge.joined chain = path) := by
  refine ⟨?_, fun e => find?_edges_iff, ?_, ?_, ?_⟩
  · rw [MountEdge.isSome_fullPath?_iff, exists_edge_iff]
  · intro hx
    obtain ⟨chain, hchain⟩ :=
      MountEdge.exists_isChain (edges fs) x (MountEdge.isSome_fullPath?_iff.mp hx)
    exact ⟨chain, hchain, fun chain' hchain' => hchain'.eq hchain⟩
  · intro chain hchain
    exact ⟨hchain.fullPath?_eq, hchain.length_le⟩
  · intro mounts router path
    exact MountEdge.fullPath?_eq_some_iff

namespace Cycle

/-- A script with two routers, one on the other.  It mounts another script on the inner one, and
itself. -/
def front : FileRoutes where
  path := "/front.js"
  imports := ⟨[]⟩
  mounts := ⟨[⟨some "outer", "/in", .router "inner"⟩, ⟨some "inner", "/back", .file "/back.js"⟩,
    ⟨none, "/self", .file "/front.js"⟩]⟩
  registrations := []

/-- A script that mounts the first one, twice. -/
def back : FileRoutes where
  path := "/back.js"
  imports := ⟨[.file "front" "/front.js"]⟩
  mounts := ⟨[⟨none, "/front", .router "front"⟩, ⟨none, "/late", .file "/front.js"⟩]⟩
  registrations := []

theorem path?_inner : front.mounts.path? "inner" = some "/in" := by
  refine MountEdge.fullPath?_eq_some_iff.2 ⟨[⟨"inner", some "outer", "/in"⟩], ?_, rfl⟩
  refine MountEdge.isChain_singleton rfl fun p hp e he => ?_
  obtain rfl : "outer" = p := by simpa using hp
  revert e he
  decide +kernel

theorem edges_eq :
    edges [front, back] = [⟨"/back.js", some "/front.js", "/in/back"⟩,
      ⟨"/front.js", some "/back.js", "/front"⟩, ⟨"/front.js", some "/back.js", "/late"⟩] := by
  have hpath : front.mountPath ⟨some "inner", "/back", .file "/back.js"⟩ = "/in/back" := by
    rw [mountPath, Option.bind_some, path?_inner]
    decide +kernel
  have hback : front.edge? ⟨some "inner", "/back", .file "/back.js"⟩ =
      some ⟨"/back.js", some "/front.js", "/in/back"⟩ := by
    rw [edge?_of_mountsFile ⟨rfl, by decide⟩, hpath]
    rfl
  have hfront : back.mounts.uses.filterMap back.edge? =
      [⟨"/front.js", some "/back.js", "/front"⟩, ⟨"/front.js", some "/back.js", "/late"⟩] := rfl
  have hnone : front.mounts.uses.filterMap front.edge? =
      [⟨some "inner", "/back", .file "/back.js"⟩].filterMap front.edge? := rfl
  rw [edges, List.flatMap_cons, List.flatMap_cons, List.flatMap_nil, hfront, hnone,
    List.filterMap_cons_some hback]
  rfl

/-- The chain from the first script: the mount by the second one, and this one's by the first. -/
def chain : List (MountEdge String) :=
  [⟨"/front.js", some "/back.js", "/front"⟩, ⟨"/back.js", some "/front.js", "/in/back"⟩]

theorem isChain_front : MountEdge.IsChain (edges [front, back]) "/front.js" chain := by
  rw [edges_eq]
  refine MountEdge.IsChain.cons rfl rfl (MountEdge.isChain_singleton rfl fun p hp e he => ?_)
  obtain rfl : "/front.js" = p := by simpa using hp
  revert e he
  decide +kernel

end Cycle

/-- Two scripts that mount one another: the path of the first one goes round once. -/
theorem fullPath?_cycle :
    MountEdge.IsChain (edges [Cycle.front, Cycle.back]) "/front.js" Cycle.chain ∧
      MountEdge.fullPath? (edges [Cycle.front, Cycle.back]) "/front.js" =
        some "/in/back/front" ∧
      ∃! chain, MountEdge.IsChain (edges [Cycle.front, Cycle.back]) "/front.js" chain := by
  have hjoined : MountEdge.joined Cycle.chain = "/in/back/front" := by decide +kernel
  obtain ⟨-, -, hunique, hpath, -⟩ := fullPath?_edges [Cycle.front, Cycle.back] "/front.js"
  have hfront := (hpath Cycle.chain Cycle.isChain_front).1
  refine ⟨Cycle.isChain_front, hjoined ▸ hfront, hunique ?_⟩
  rw [hfront]
  rfl

end FileRoutes
end EndpointPayload
