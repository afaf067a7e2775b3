import EndpointPayload.Route.Imports

/-!
# The forms of an import

A script takes a name from another file in many forms: by a default, namespace, plain or renamed
import, by an import of a required file, by a declarator with a required file or one of its members,
and by a pattern that takes a required file apart.  `Binding.Brings` has one case for each form, and
the imports of a script are exactly the bindings that its nodes bring so.
-/

namespace EndpointPayload

open Source

namespace Binding

/-- The name that a binding gives a meaning. -/
def localName : Binding → String
  | file n _ | item n _ => n

/-- The bindings of one part of an import clause. -/
inductive ClauseBrings (source : String) (part : Tree) : Binding → Prop where
  | byDefault
      (hpart : part.kind = .identifier) :
      ClauseBrings source part (.file part.text source)
  | wholeFile
      {name : Tree}
      (hpart : part.kind = .namespaceImport)
      (hname : part.childOfKind? .identifier = some name) :
      ClauseBrings source part (.file name.text source)
  | named
      {specifier name : Tree}
      (hpart : part.kind = .namedImports)
      (hmem : specifier ∈ part.children)
      (hkind : specifier.kind = .importSpecifier)
      (hname : specifier.child? .name = some name)
      (halias : specifier.child? .alias = none) :
      ClauseBrings source part (.item name.keyText ⟨source, name.keyText⟩)
  | renamed
      {specifier name newName : Tree}
      (hpart : part.kind = .namedImports)
      (hmem : specifier ∈ part.children)
      (hkind : specifier.kind = .importSpecifier)
      (hname : specifier.child? .name = some name)
      (halias : specifier.child? .alias = some newName) :
      ClauseBrings source part (.item newName.text ⟨source, name.keyText⟩)

/-- The binding of one property of a pattern. -/
inductive PatternBrings (source : String) (part : Tree) : Binding → Prop where
  | shorthand
      (hpart : part.kind = .shorthandPattern) :
      PatternBrings source part (.item part.text ⟨source, part.text⟩)
  | renamed
      {key value : Tree}
      (hpart : part.kind = .pairPattern)
      (hkey : part.child? .key = some key)
      (hvalue : part.child? .value = some value)
      (hkind : value.kind = .identifier) :
      PatternBrings source part (.item value.text ⟨source, key.keyText⟩)

/-- A value is a required file of the project, or a member of one. -/
inductive Requires (files : FileSystem) (script : String) :
    Tree → String → Option String → Prop where
  | file
      {value callee first : Tree}
      {rest : List Tree}
      {spec source : String}
      (hvalue : value.meaning? = some (.call callee (first :: rest)))
      (hcallee : callee.name? = some "require")
      (hspec : first.literal? = some spec)
      (hsource : files.imported? script spec = some source) :
      Requires files script value source none
  | member
      {value object property : Tree}
      {source name : String}
      (hvalue : value.meaning? = some (.member object property))
      (hobject : Requires files script object source none)
      (hproperty : property.name? = some name) :
      Requires files script value source (some name)

/-- The bindings that a node of a script brings, by the forms of imports. -/
inductive Brings (files : FileSystem) (script : String) (node : Tree) : Binding → Prop where
  | clause
      {spec source : String}
      {clause part : Tree}
      {b : Binding}
      (hnode : node.meaning? = some (.importing spec))
      (hsource : files.imported? script spec = some source)
      (hclause : clause ∈ node.children)
      (hkind : clause.kind = .importClause)
      (hpart : part ∈ clause.children)
      (hb : ClauseBrings source part b) :
      Brings files script node b
  | importRequire
      {spec source : String}
      {clause name : Tree}
      (hnode : node.meaning? = some (.importing spec))
      (hsource : files.imported? script spec = some source)
      (hclause : clause ∈ node.children)
      (hkind : clause.kind = .importRequireClause)
      (hname : clause.childOfKind? .identifier = some name) :
      Brings files script node (.file name.text source)
  | requiredFile
      {target value : Tree}
      {source : String}
      (hnode : node.meaning? = some (.declarator target (some value)))
      (hvalue : Requires files script value source none)
      (htarget : target.kind = .identifier) :
      Brings files script node (.file target.text source)
  | requiredMember
      {target value : Tree}
      {source name : String}
      (hnode : node.meaning? = some (.declarator target (some value)))
      (hvalue : Requires files script value source (some name))
      (htarget : target.kind = .identifier) :
      Brings files script node (.item target.text ⟨source, name⟩)
  | pattern
      {target value part : Tree}
      {source : String}
      {member : Option String}
      {b : Binding}
      (hnode : node.meaning? = some (.declarator target (some value)))
      (hvalue : Requires files script value source member)
      (htarget : target.kind = .objectPattern)
      (hpart : part ∈ target.children)
      (hb : PatternBrings source part b) :
      Brings files script node b

variable {files : FileSystem} {script source : String} {node part target value : Tree} {b : Binding}

theorem mem_ofClausePart_iff : b ∈ ofClausePart source part ↔ ClauseBrings source part b := by
  constructor
  · intro h
    unfold ofClausePart at h
    split at h
    · rename_i hpart
      obtain rfl := List.mem_singleton.mp h
      exact .byDefault hpart
    · rename_i hpart
      split at h
      · rename_i name hname
        obtain rfl := List.mem_singleton.mp h
        exact .wholeFile hpart hname
      · cases h
    · rename_i hpart
      obtain ⟨specifier, hmem, hspecifier⟩ := List.mem_filterMap.mp h
      obtain ⟨hkind, hspecifier⟩ := Option.ite_none_right_eq_some.mp hspecifier
      obtain ⟨name, hname, rfl⟩ := Option.map_eq_some_iff.mp hspecifier
      cases halias : specifier.child? .alias with
      | none => exact .named hpart hmem hkind hname halias
      | some newName => exact .renamed hpart hmem hkind hname halias
    · cases h
  · intro h
    cases h with
    | byDefault hpart => simp [ofClausePart, hpart]
    | wholeFile hpart hname => simp [ofClausePart, hpart, hname]
    | named hpart hmem hkind hname halias =>
        rw [ofClausePart, hpart]
        exact List.mem_filterMap.mpr ⟨_, hmem, by simp [hkind, hname, halias]⟩
    | renamed hpart hmem hkind hname halias =>
        rw [ofClausePart, hpart]
        exact List.mem_filterMap.mpr ⟨_, hmem, by simp [hkind, hname, halias]⟩

theorem ofPatternPart?_eq_some_iff :
    ofPatternPart? source part = some b ↔ PatternBrings source part b := by
  constructor
  · intro h
    unfold ofPatternPart? at h
    split at h
    · rename_i hpart
      cases h
      exact .shorthand hpart
    · rename_i hpart
      split at h
      · rename_i key value hkey hvalue
        obtain ⟨hkind, h⟩ := Option.ite_none_right_eq_some.mp h
        cases h
        exact .renamed hpart hkey hvalue hkind
      · cases h
    · cases h
  · intro h
    cases h with
    | shorthand hpart => simp [ofPatternPart?, hpart]
    | renamed hpart hkey hvalue hkind => simp [ofPatternPart?, hpart, hkey, hvalue, hkind]

theorem mem_ofImport_iff :
    b ∈ ofImport source node ↔
      (∃ clause ∈ node.children, clause.kind = .importClause ∧
        ∃ part ∈ clause.children, ClauseBrings source part b) ∨
      ∃ clause ∈ node.children, clause.kind = .importRequireClause ∧
        ∃ name, clause.childOfKind? .identifier = some name ∧ b = .file name.text source := by
  rw [ofImport, List.mem_flatMap]
  constructor
  · rintro ⟨clause, hclause, h⟩
    split at h
    · rename_i hkind
      obtain ⟨part, hpart, h⟩ := List.mem_flatMap.mp h
      exact .inl ⟨clause, hclause, hkind, part, hpart, mem_ofClausePart_iff.1 h⟩
    · rename_i hkind
      split at h
      · rename_i name hname
        exact .inr ⟨clause, hclause, hkind, name, hname, List.mem_singleton.mp h⟩
      · cases h
    · cases h
  · rintro (⟨clause, hclause, hkind, part, hpart, h⟩ | ⟨clause, hclause, hkind, name, hname, rfl⟩)
    · refine ⟨clause, hclause, ?_⟩
      rw [hkind]
      exact List.mem_flatMap.mpr ⟨part, hpart, mem_ofClausePart_iff.2 h⟩
    · exact ⟨clause, hclause, by simp [hkind, hname]⟩

theorem requiredFile?_eq_some_iff :
    Imports.requiredFile? files script value = some source ↔
      Requires files script value source none := by
  constructor
  · intro h
    unfold Imports.requiredFile? at h
    split at h
    · rename_i callee first rest hvalue
      obtain ⟨hcallee, h⟩ := Option.ite_none_right_eq_some.mp h
      obtain ⟨spec, hspec, hsource⟩ := Option.bind_eq_some_iff.mp h
      exact .file hvalue hcallee hspec hsource
    · cases h
  · rintro (⟨hvalue, hcallee, hspec, hsource⟩ | _)
    simp [Imports.requiredFile?, hvalue, hcallee, hspec, hsource]

theorem requireTarget?_eq_some_iff {member : Option String} :
    Imports.requireTarget? files script value = some (source, member) ↔
      Requires files script value source member := by
  constructor
  · intro h
    unfold Imports.requireTarget? at h
    split at h
    · obtain ⟨found, hfound, h⟩ := Option.map_eq_some_iff.mp h
      cases h
      exact requiredFile?_eq_some_iff.1 hfound
    · rename_i object property hvalue
      split at h
      · rename_i found name hfound hname
        cases h
        exact .member hvalue (requiredFile?_eq_some_iff.1 hfound) hname
      · cases h
    · cases h
  · intro h
    cases h with
    | file hvalue hcallee hspec hsource =>
        have hfound := requiredFile?_eq_some_iff.2 (.file hvalue hcallee hspec hsource)
        simp [Imports.requireTarget?, hvalue, hfound]
    | member hvalue hobject hproperty =>
        have hfound := requiredFile?_eq_some_iff.2 hobject
        simp [Imports.requireTarget?, hvalue, hfound, hproperty]

theorem mem_ofRequire_iff {member : Option String} :
    b ∈ ofRequire source member target ↔
      (target.kind = .identifier ∧
        b = (member.map fun name => item target.text ⟨source, name⟩).getD
          (.file target.text source)) ∨
      target.kind = .objectPattern ∧ ∃ part ∈ target.children, PatternBrings source part b := by
  unfold ofRequire
  split
  · rename_i hkind
    cases member <;> simp [hkind]
  · rename_i hkind
    simp [hkind, List.mem_filterMap, ofPatternPart?_eq_some_iff]
  · rename_i hidentifier hpattern
    constructor
    · intro h
      cases h
    · rintro (⟨hkind, -⟩ | ⟨hkind, -⟩)
      · exact absurd hkind hidentifier
      · exact absurd hkind hpattern

/-- The bindings at a node are those that it brings. -/
theorem mem_bindingsAt_iff :
    b ∈ Imports.bindingsAt files script node ↔ Brings files script node b := by
  constructor
  · intro h
    unfold Imports.bindingsAt at h
    split at h
    · rename_i spec hnode
      split at h
      · rename_i source hsource
        rcases mem_ofImport_iff.1 h with
          ⟨clause, hclause, hkind, part, hpart, hb⟩ | ⟨clause, hclause, hkind, name, hname, rfl⟩
        · exact .clause hnode hsource hclause hkind hpart hb
        · exact .importRequire hnode hsource hclause hkind hname
      · cases h
    · rename_i target value hnode
      split at h
      · rename_i source member hvalue
        rw [requireTarget?_eq_some_iff] at hvalue
        rcases mem_ofRequire_iff.1 h with ⟨hkind, rfl⟩ | ⟨hkind, part, hpart, hb⟩
        · cases member with
          | none => exact .requiredFile hnode hvalue hkind
          | some name => exact .requiredMember hnode hvalue hkind
        · exact .pattern hnode hvalue hkind hpart hb
      · cases h
    · cases h
  · intro h
    cases h with
    | clause hnode hsource hclause hkind hpart hb =>
        simp only [Imports.bindingsAt, hnode, hsource]
        exact mem_ofImport_iff.2 (.inl ⟨_, hclause, hkind, _, hpart, hb⟩)
    | importRequire hnode hsource hclause hkind hname =>
        simp only [Imports.bindingsAt, hnode, hsource]
        exact mem_ofImport_iff.2 (.inr ⟨_, hclause, hkind, _, hname, rfl⟩)
    | requiredFile hnode hvalue htarget =>
        simp only [Imports.bindingsAt, hnode, requireTarget?_eq_some_iff.2 hvalue]
        exact mem_ofRequire_iff.2 (.inl ⟨htarget, rfl⟩)
    | requiredMember hnode hvalue htarget =>
        simp only [Imports.bindingsAt, hnode, requireTarget?_eq_some_iff.2 hvalue]
        exact mem_ofRequire_iff.2 (.inl ⟨htarget, rfl⟩)
    | pattern hnode hvalue htarget hpart hb =>
        simp only [Imports.bindingsAt, hnode, requireTarget?_eq_some_iff.2 hvalue]
        exact mem_ofRequire_iff.2 (.inr ⟨htarget, _, hpart, hb⟩)

end Binding

namespace Imports

variable {files : FileSystem} {script : Script} {b : Binding}

/-- A script gives a name one meaning and no other. -/
structure Binds (files : FileSystem) (script : Script) (b : Binding) : Prop where
  brings : ∃ node ∈ script.nodes, Binding.Brings files script.path node b
  only : ∀ node ∈ script.nodes, ∀ other, Binding.Brings files script.path node other →
    other.localName = b.localName → other = b

theorem mem_bindings_iff :
    b ∈ (ofScript files script).bindings ↔
      ∃ node ∈ script.nodes, Binding.Brings files script.path node b := by
  rw [ofScript, List.mem_flatMap]
  simp only [Binding.mem_bindingsAt_iff]

theorem binds_iff :
    Binds files script b ↔
      b ∈ (ofScript files script).bindings ∧
        ∀ other ∈ (ofScript files script).bindings, other.localName = b.localName → other = b := by
  constructor
  · rintro ⟨hbrings, honly⟩
    refine ⟨mem_bindings_iff.2 hbrings, fun other hother hname => ?_⟩
    obtain ⟨node, hnode, h⟩ := mem_bindings_iff.1 hother
    exact honly node hnode other h hname
  · rintro ⟨hmem, honly⟩
    exact ⟨mem_bindings_iff.1 hmem, fun node hnode other h hname =>
      honly other (mem_bindings_iff.2 ⟨node, hnode, h⟩) hname⟩

/-- The last of some items counts, and is any of them where they all agree. -/
theorem findSome?_reverse_eq
    {α β : Type}
    {f : α → Option β}
    {xs : List α}
    {y : β}
    (hmem : ∃ x ∈ xs, f x = some y)
    (honly : ∀ x ∈ xs, ∀ z, f x = some z → z = y) :
    xs.reverse.findSome? f = some y := by
  obtain ⟨x, hx, hy⟩ := hmem
  have hsome : (xs.reverse.findSome? f).isSome = true :=
    List.findSome?_isSome_iff.mpr ⟨x, List.mem_reverse.mpr hx, by simp [hy]⟩
  obtain ⟨z, hz⟩ := Option.isSome_iff_exists.mp hsome
  obtain ⟨w, hw, hwz⟩ := List.exists_of_findSome?_eq_some hz
  rw [hz, honly w (List.mem_reverse.mp hw) z hwz]

/-- The one meaning of a name is found, if it is an export. -/
theorem Binds.item?_eq
    {name : String}
    {item : Export}
    (h : Binds files script (.item name item)) :
    (ofScript files script).item? name = some item := by
  obtain ⟨hmem, honly⟩ := binds_iff.1 h
  refine findSome?_reverse_eq ⟨_, hmem, by simp [Binding.itemOf?]⟩
    fun other hother found hfound => ?_
  cases other with
  | file n f => cases hfound
  | item n i =>
      obtain ⟨rfl, hi⟩ := Option.ite_none_right_eq_some.mp hfound
      cases hi
      exact (Binding.item.inj (honly _ hother rfl)).2

/-- The one meaning of a name is found, if it is a file. -/
theorem Binds.file?_eq
    {name file : String}
    (h : Binds files script (.file name file)) :
    (ofScript files script).file? name = some file := by
  obtain ⟨hmem, honly⟩ := binds_iff.1 h
  have hmodule : (ofScript files script).module? name = some file := by
    refine findSome?_reverse_eq ⟨_, hmem, by simp [Binding.fileOf?]⟩
      fun other hother found hfound => ?_
    cases other with
    | item n i => cases hfound
    | file n f =>
        obtain ⟨rfl, hf⟩ := Option.ite_none_right_eq_some.mp hfound
        cases hf
        exact (Binding.file.inj (honly _ hother rfl)).2
  rw [file?, hmodule, Option.some_or]

end Imports
end EndpointPayload
