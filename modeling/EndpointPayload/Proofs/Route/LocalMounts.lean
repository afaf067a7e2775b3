import EndpointPayload.Proofs.Route.MountChain

/-!
# Routers mounted on routers of the same script

The path of a router comes from its first mount and from that of the receiver, as far as receivers
are names that are mounted themselves.  `Mounts.IsChain` names the routers on the way outwards, and
the path is the paths of their first mounts joined from the outermost one inwards.  The chain ends
where a receiver comes again, so mounts in a circle, or of a router on itself, do no harm.
-/

namespace EndpointPayload
namespace Mounts

/-- The first mount of a router. -/
def first? (t : Mounts) (router : String) : Option Mount :=
  t.uses.find? fun m => m.target = .router router

/-- What the first mount of a router mounts it on, if that is a name. -/
def receiver? (t : Mounts) (router : String) : Option String :=
  (t.first? router).bind Mount.receiver

def IsMounted (t : Mounts) (router : String) : Prop := ∃ m ∈ t.uses, m.target = .router router

instance (t : Mounts) (router : String) : Decidable (t.IsMounted router) :=
  inferInstanceAs (Decidable (∃ m ∈ t.uses, m.target = .router router))

/-- The routers from one outwards: the receiver of the first mount, the receiver of that one's first
mount, and so on. -/
structure IsChain (t : Mounts) (router : String) (chain : List String) : Prop where
  starts : chain.head? = some router
  isMounted : ∀ y ∈ chain, t.IsMounted y
  isLinked : chain.IsChain fun y z => t.receiver? y = some z
  nodup : chain.Nodup
  /-- It ends below a receiver that is no name, stands on it already or has no mount. -/
  ends : ∀ y z, chain.getLast? = some y → t.receiver? y = some z → z ∈ chain ∨ ¬ t.IsMounted z

variable {t : Mounts} {x y : String} {m : Mount}

section First

theorem edge?_eq_some_iff {e : MountEdge String} :
    edge? m = some e ↔ m = ⟨e.parent, e.path, .router e.target⟩ := by
  obtain ⟨receiver, path, target⟩ := m
  obtain ⟨router, parent, edgePath⟩ := e
  cases target with
  | router n =>
      simp only [edge?, Option.some.injEq, MountEdge.mk.injEq, Mount.mk.injEq,
        MountTarget.router.injEq]
      tauto
  | file path => simp [edge?]

theorem exists_edge_iff : (∃ e ∈ t.edges, e.target = x) ↔ t.IsMounted x := by
  constructor
  · rintro ⟨e, he, rfl⟩
    obtain ⟨m, hm, hedge⟩ := List.mem_filterMap.mp he
    exact ⟨m, hm, by rw [edge?_eq_some_iff.mp hedge]⟩
  · rintro ⟨m, hm, htarget⟩
    refine ⟨⟨x, m.receiver, m.path⟩, List.mem_filterMap.mpr ⟨m, hm, ?_⟩, rfl⟩
    exact edge?_eq_some_iff.mpr (by rw [← htarget])

theorem IsMounted.exists_first? (h : t.IsMounted x) : ∃ m, t.first? x = some m := by
  obtain ⟨m, hm, htarget⟩ := h
  exact Option.isSome_iff_exists.mp (List.find?_isSome.mpr ⟨m, hm, by simpa using htarget⟩)

/-- The first edge of a router is its first mount. -/
theorem find?_edges (t : Mounts) (x : String) :
    t.edges.find? (fun e => e.target = x) =
      (t.first? x).map fun m => ⟨x, m.receiver, m.path⟩ := by
  have hany : ∀ m : Mount,
      (edge? m).any (fun e => decide (e.target = x)) = decide (m.target = .router x) := by
    rintro ⟨receiver, path, target⟩
    cases target <;> simp [edge?]
  rw [edges, List.find?_filterMap]
  simp only [hany]
  rw [first?]
  cases hfirst : t.uses.find? fun m => decide (m.target = .router x) with
  | none => rfl
  | some m =>
      have htarget : m.target = .router x := by simpa using List.find?_some hfirst
      exact edge?_eq_some_iff.mpr (by rw [← htarget])

/-- The path that is registered first for a router is that of its first mount. -/
theorem ownPath?_eq (t : Mounts) (x : String) : t.ownPath? x = (t.first? x).map Mount.path := by
  rw [ownPath?, find?_edges, Option.map_map]
  rfl

theorem receiver?_eq (t : Mounts) (x : String) :
    t.receiver? x = (t.edges.find? fun e => e.target = x).bind MountEdge.parent := by
  rw [find?_edges, receiver?, Option.bind_map]
  rfl

end First

section Chains

variable {chain : List String} {edges : List (MountEdge String)}

/-- Edges that are each the first one of its target. -/
def AreFirst (t : Mounts) (edges : List (MountEdge String)) : Prop :=
  ∀ e ∈ edges, t.edges.find? (fun e' => e'.target = e.target) = some e

/-- First edges make a chain exactly if their targets do. -/
theorem AreFirst.isChain_iff (h : t.AreFirst edges) :
    t.IsChain x (edges.map MountEdge.target) ↔ MountEdge.IsChain t.edges x edges := by
  have hparent : ∀ e ∈ edges, t.receiver? e.target = e.parent := by
    intro e he
    rw [receiver?_eq, h e he, Option.bind_some]
  have hlinked : (edges.map MountEdge.target).IsChain (fun y z => t.receiver? y = some z) ↔
      edges.IsChain fun e above => e.parent = some above.target := by
    rw [List.isChain_map]
    refine List.IsChain.iff_of_mem_imp fun e above he _ => ?_
    rw [hparent e he]
  constructor
  · intro hchain
    refine ⟨?_, h, hlinked.mp hchain.isLinked, hchain.nodup, fun e p hlast hp => ?_⟩
    · rw [← List.head?_map]
      exact hchain.starts
    · have hends := hchain.ends e.target p (by rw [List.getLast?_map, hlast]; rfl)
        (by rw [hparent e (List.mem_of_getLast? hlast), hp])
      refine hends.imp_right fun hnot e' he' htarget => hnot (exists_edge_iff.mp ⟨e', he', htarget⟩)
  · intro hchain
    refine ⟨?_, fun y hy => ?_, hlinked.mpr hchain.isLinked, hchain.nodup, fun y z hlast hz => ?_⟩
    · rw [List.head?_map]
      exact hchain.starts
    · obtain ⟨e, he, rfl⟩ := List.mem_map.mp hy
      exact exists_edge_iff.mp ⟨e, List.mem_of_find?_eq_some (h e he), rfl⟩
    · rw [List.getLast?_map] at hlast
      obtain ⟨e, he, rfl⟩ := Option.map_eq_some_iff.mp hlast
      rw [hparent e (List.mem_of_getLast? he)] at hz
      refine (hchain.ends e z he hz).imp_right fun hnone hmounted => ?_
      obtain ⟨e', he', htarget⟩ := exists_edge_iff.mpr hmounted
      exact hnone e' he' htarget

/-- Mounted routers are the targets of their first edges. -/
theorem exists_areFirst
    (h : ∀ y ∈ chain, t.IsMounted y) :
    ∃ edges, chain = edges.map MountEdge.target ∧ t.AreFirst edges := by
  induction chain with
  | nil => exact ⟨[], rfl, fun e he => absurd he List.not_mem_nil⟩
  | cons y rest ih =>
      obtain ⟨edges, rfl, hedges⟩ := ih fun z hz => h z (List.mem_cons_of_mem y hz)
      obtain ⟨m, hm⟩ := (h y List.mem_cons_self).exists_first?
      have hfirst : t.edges.find? (fun e => e.target = y) = some ⟨y, m.receiver, m.path⟩ := by
        rw [find?_edges, hm]
        rfl
      exact ⟨⟨y, m.receiver, m.path⟩ :: edges, rfl, List.forall_mem_cons.mpr ⟨hfirst, hedges⟩⟩

/-- Along first edges, the paths registered first are the paths of the edges. -/
theorem AreFirst.filterMap_ownPath? (h : t.AreFirst edges) :
    (edges.map MountEdge.target).filterMap t.ownPath? = edges.map MountEdge.path := by
  rw [List.filterMap_map, ← List.filterMap_eq_map]
  refine List.filterMap_congr fun e he => ?_
  rw [Function.comp_apply, ownPath?, h e he]
  rfl

/-- The path of a router is the paths of its chain, joined from the outermost one inwards. -/
theorem IsChain.path?_eq (h : t.IsChain x chain) :
    t.path? x = some (RoutePath.joinAll (chain.reverse.filterMap t.ownPath?)) := by
  obtain ⟨edges, rfl, hfirst⟩ := exists_areFirst h.isMounted
  rw [path?, (hfirst.isChain_iff.mp h).fullPath?_eq, MountEdge.joined, List.filterMap_reverse,
    hfirst.filterMap_ownPath?]

theorem IsChain.unique
    {other : List String}
    (h : t.IsChain x chain)
    (hother : t.IsChain x other) :
    chain = other := by
  obtain ⟨edges, rfl, hfirst⟩ := exists_areFirst h.isMounted
  obtain ⟨otherEdges, rfl, hotherFirst⟩ := exists_areFirst hother.isMounted
  rw [(hfirst.isChain_iff.mp h).eq (hotherFirst.isChain_iff.mp hother)]

theorem exists_isChain (h : t.IsMounted x) : ∃ chain, t.IsChain x chain := by
  obtain ⟨edges, hedges⟩ := MountEdge.exists_isChain t.edges x (exists_edge_iff.mpr h)
  exact ⟨edges.map MountEdge.target, AreFirst.isChain_iff hedges.isFirst |>.mpr hedges⟩

theorem isSome_path?_iff : (t.path? x).isSome = true ↔ t.IsMounted x := by
  rw [path?, MountEdge.isSome_fullPath?_iff, exists_edge_iff]

end Chains

/-- For the mounts of every script, as many, nested, repeated or circular as they may be: a router
has a path exactly if some call mounts it.  From every mounted router there is exactly one chain of
receivers, on which each router has the path of its first mount registered, and the path of the
router is these paths joined from the outermost one inwards.  Where the chain is the router alone,
that is the path as it is written. -/
theorem path?_along_receivers
    (files : FileSystem)
    (script : Source.Script)
    (x : String) :
    let t := ofScript files script
    ((t.path? x).isSome = true ↔
      ∃ node ∈ script.nodes, ∃ m, mountAt? files script.path node = some m ∧
        m.target = .router x) ∧
    ((t.path? x).isSome = true → ∃! chain, t.IsChain x chain) ∧
    (∀ chain, t.IsChain x chain →
      t.path? x = some (RoutePath.joinAll (chain.reverse.filterMap t.ownPath?)) ∧
        ∀ y ∈ chain, ∃ m, t.first? y = some m ∧ t.ownPath? y = some m.path) ∧
    (t.IsChain x [x] → t.path? x = t.ownPath? x) := by
  intro t
  have hown : ∀ y, t.IsMounted y → ∃ m, t.first? y = some m ∧ t.ownPath? y = some m.path := by
    intro y hy
    obtain ⟨m, hm⟩ := hy.exists_first?
    exact ⟨m, hm, by rw [ownPath?_eq, hm, Option.map_some]⟩
  refine ⟨?_, fun hx => ?_, fun chain h => ⟨h.path?_eq, fun y hy => hown y (h.isMounted y hy)⟩,
    fun h => ?_⟩
  · rw [isSome_path?_iff, IsMounted]
    simp only [t, ofScript, List.mem_filterMap]
    constructor
    · rintro ⟨m, ⟨node, hnode, hm⟩, htarget⟩
      exact ⟨node, hnode, m, hm, htarget⟩
    · rintro ⟨node, hnode, m, hm, htarget⟩
      exact ⟨m, ⟨node, hnode, hm⟩, htarget⟩
  · obtain ⟨chain, hchain⟩ := exists_isChain (isSome_path?_iff.mp hx)
    exact ⟨chain, hchain, fun other hother => hother.unique hchain⟩
  · obtain ⟨m, -, hm⟩ := hown x (h.isMounted x (List.mem_singleton_self x))
    rw [h.path?_eq, hm]
    simp [hm, RoutePath.joinAll]

namespace Circle

/-- A script whose three routers are mounted in a circle, the outermost one a second time. -/
def files : FileSystem :=
  ⟨.directory [("app.js", .file (some
    ("app.use('/api', api); api.use('/v1', auth, v1); v1.use('/loop', app); " ++
      "app.use('/late', app)")))], []⟩

/-- The receiver, the path and the router of a mount. -/
def parts (m : Mount) : Option String × String × MountTarget := (m.receiver, m.path, m.target)

def uses : List Mount :=
  [⟨some "app", "/api", .router "api"⟩, ⟨some "api", "/v1", .router "v1"⟩,
    ⟨some "v1", "/loop", .router "app"⟩, ⟨some "app", "/late", .router "app"⟩]

theorem uses_eq :
    (Source.Script.read? files "/app.js").any (fun script => (ofScript files script).uses = uses) =
      true := by
  decide +kernel

theorem isChain : IsChain ⟨uses⟩ "v1" ["v1", "api", "app"] := by
  refine ⟨rfl, ?_, ?_, by decide, ?_⟩
  · decide
  · decide
  · intro y z hy hz
    obtain rfl : "app" = y := by simpa using hy
    obtain rfl : "v1" = z := Option.some.inj hz
    exact .inl (by decide)

end Circle

/-- The innermost router of the circle has the other two above it, and not itself again. -/
theorem path?_along_circle :
    ∃ script, Source.Script.read? Circle.files "/app.js" = some script ∧
      (ofScript Circle.files script).IsChain "v1" ["v1", "api", "app"] ∧
      (ofScript Circle.files script).path? "v1" = some "/loop/api/v1" := by
  obtain ⟨script, hscript, huses⟩ := (Option.any_eq_true _ _).mp Circle.uses_eq
  have hmounts : ofScript Circle.files script = ⟨Circle.uses⟩ := by
    rw [← of_decide_eq_true huses]
  have hchain : (ofScript Circle.files script).IsChain "v1" ["v1", "api", "app"] :=
    hmounts ▸ Circle.isChain
  have hjoined : RoutePath.joinAll
      (["v1", "api", "app"].reverse.filterMap (⟨Circle.uses⟩ : Mounts).ownPath?) =
        "/loop/api/v1" := by
    decide +kernel
  have hpath := (path?_along_receivers Circle.files script "v1").2.2.1 _ hchain
  refine ⟨script, hscript, hchain, ?_⟩
  rw [hpath.1, hmounts, hjoined]

end Mounts
end EndpointPayload
