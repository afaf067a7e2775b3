import EndpointPayload.Handler.BodyFields
import EndpointPayload.Proofs.Source.Meanings
import EndpointPayload.Proofs.Source.Walk
import EndpointPayload.Proofs.Text.Basic
import EndpointPayload.Source.Script

/-!
# What is read from the request body

`Reads` lists the ways in which a node reads a field of the body: as a property, by a literal index,
or by a key of a pattern that takes the body apart, where the key is a shorthand, a name or a
literal in front of a target, or a shorthand with a default.  Every field that is read so is found,
wherever its node stands.

An index that is computed adds nothing.  A computed key of a pattern is not left out: what is found
besides the fields that are read are the texts of such keys, brackets included.
-/

namespace EndpointPayload

open Source

namespace Handler

/-! ## Ways to read a field -/

/-- `req.body` or `request.body`. -/
structure IsBody (t : Tree) : Prop where
  kind_eq : t.kind = .member
  object : ∃ object, t.child? .object = some object ∧
    (object.name? = some "req" ∨ object.name? = some "request")
  property : ∃ property, t.child? .property = some property ∧ property.name? = some "body"

/-- The kinds of a key that stands for its own text: a name, a number or a private name. -/
def isPlainKey (k : Kind) : Bool :=
  k.isName || k = .number || k = .privateIdentifier

/-- The ways to write a key in a pattern. -/
inductive IsPatternKey (name : String) (part : Tree) : Prop where
  | shorthand
      (hkind : part.kind = .shorthandPattern)
      (hname : part.text = name) :
      IsPatternKey name part
  | renamed
      {key : Tree}
      (hkind : part.kind = .pairPattern)
      (hkey : part.child? .key = some key)
      (hplain : isPlainKey key.kind)
      (hname : key.text = name) :
      IsPatternKey name part
  | quoted
      {key : Tree}
      (hkind : part.kind = .pairPattern)
      (hkey : part.child? .key = some key)
      (hname : key.literal? = some name) :
      IsPatternKey name part
  | defaulted
      {left : Tree}
      (hkind : part.kind = .objectAssignmentPattern)
      (hleft : part.child? .left = some left)
      (hshorthand : left.kind = .shorthandPattern)
      (hname : left.text = name) :
      IsPatternKey name part

/-- A part of a pattern without a name for a key: what it takes is computed, or a pattern stands in
place of the key. -/
inductive IsNameless (text : String) (part : Tree) : Prop where
  | computed
      {key : Tree}
      (hkind : part.kind = .pairPattern)
      (hkey : part.child? .key = some key)
      (hliteral : key.literal? = none)
      (hplain : isPlainKey key.kind = false)
      (htext : key.text = text) :
      IsNameless text part
  | defaulted
      {left : Tree}
      (hkind : part.kind = .objectAssignmentPattern)
      (hleft : part.child? .left = some left)
      (hpattern : left.kind ≠ .shorthandPattern)
      (htext : left.text = text) :
      IsNameless text part

/-- A declarator that takes the body apart, with one part of its pattern. -/
structure TakesApart (t part : Tree) : Prop where
  kind_eq : t.kind = .variableDeclarator
  pattern : ∃ pattern, t.child? .name = some pattern ∧ pattern.kind = .objectPattern ∧
    part ∈ pattern.children
  value : ∃ value, t.child? .value = some value ∧ IsBody value

/-- The ways to read a field of the body. -/
inductive Reads (name : String) (t : Tree) : Prop where
  | property
      {object property : Tree}
      (hkind : t.kind = .member)
      (hobject : t.child? .object = some object)
      (hbody : IsBody object)
      (hproperty : t.child? .property = some property)
      (hname : property.name? = some name) :
      Reads name t
  | index
      {object index : Tree}
      (hkind : t.kind = .subscript)
      (hobject : t.child? .object = some object)
      (hbody : IsBody object)
      (hindex : t.child? .index = some index)
      (hname : index.literal? = some name) :
      Reads name t
  | pattern
      {part : Tree}
      (hpart : TakesApart t part)
      (hname : IsPatternKey name part) :
      Reads name t

variable {name : String} {t part : Tree}

theorem isRequestBody_iff : isRequestBody t = true ↔ IsBody t := by
  unfold isRequestBody
  constructor
  · intro h
    split at h
    · rename_i object property hmember
      obtain ⟨hkind, hobject, hproperty⟩ := Tree.meaning?_eq_member_iff.mp hmember
      rw [Bool.and_eq_true, decide_eq_true_eq, Bool.or_eq_true, decide_eq_true_eq,
        decide_eq_true_eq] at h
      exact ⟨hkind, ⟨object, hobject, h.2⟩, property, hproperty, h.1⟩
    · cases h
  · rintro ⟨hkind, ⟨object, hobject, hrequest⟩, property, hproperty, hbody⟩
    rw [Tree.meaning?_eq_member_iff.mpr ⟨hkind, hobject, hproperty⟩]
    simp [hbody, hrequest]

/-- A literal is no name, number or private name. -/
theorem literal?_of_isPlainKey (h : isPlainKey t.kind = true) : t.literal? = none := by
  unfold Tree.literal?
  split
  · rename_i hkind
    rw [hkind] at h
    cases h
  · rename_i hkind
    rw [hkind] at h
    cases h
  · rfl

/-- The key of a part of a pattern, or the text where there is none. -/
theorem patternKey?_eq_some_iff :
    patternKey? part = some name ↔ IsPatternKey name part ∨ IsNameless name part := by
  constructor
  · intro h
    unfold patternKey? at h
    split at h
    · rename_i hkind
      exact .inl (.shorthand hkind (Option.some.inj h))
    · rename_i hkind
      obtain ⟨key, hkey, hname⟩ := Option.map_eq_some_iff.mp h
      cases hliteral : key.literal? with
      | some s =>
          rw [Tree.keyText, hliteral, Option.getD_some] at hname
          exact .inl (.quoted hkind hkey (hname ▸ hliteral))
      | none =>
          rw [Tree.keyText, hliteral, Option.getD_none] at hname
          cases hplain : isPlainKey key.kind with
          | true => exact .inl (.renamed hkind hkey hplain hname)
          | false => exact .inr (.computed hkind hkey hliteral hplain hname)
    · rename_i hkind
      obtain ⟨left, hleft, hname⟩ := Option.map_eq_some_iff.mp h
      by_cases hshorthand : left.kind = .shorthandPattern
      · exact .inl (.defaulted hkind hleft hshorthand hname)
      · exact .inr (.defaulted hkind hleft hshorthand hname)
    · cases h
  · rintro ((⟨hkind, hname⟩ | ⟨hkind, hkey, hplain, hname⟩ | ⟨hkind, hkey, hname⟩ |
      ⟨hkind, hleft, -, hname⟩) | (⟨hkind, hkey, hliteral, -, htext⟩ | ⟨hkind, hleft, -, htext⟩))
    · simp [patternKey?, hkind, hname]
    · simp [patternKey?, hkind, hkey, Tree.keyText, literal?_of_isPlainKey hplain, hname]
    · simp [patternKey?, hkind, hkey, Tree.keyText, hname]
    · simp [patternKey?, hkind, hleft, hname]
    · simp [patternKey?, hkind, hkey, Tree.keyText, hliteral, htext]
    · simp [patternKey?, hkind, hleft, htext]

theorem meaning?_of_subscript (h : t.kind = .subscript) : t.meaning? = none := by
  simp [Tree.meaning?, h]

/-- What a declarator adds for a part of a pattern that takes the body apart. -/
theorem mem_bodyFieldsAt_of_takesApart
    (h : TakesApart t part)
    (hname : IsPatternKey name part ∨ IsNameless name part) :
    name ∈ bodyFieldsAt t := by
  obtain ⟨hkind, ⟨pattern, htarget, hpattern, hpart⟩, value, hvalue, hbody⟩ := h
  unfold bodyFieldsAt
  rw [Tree.meaning?_eq_declarator_iff.mpr ⟨hkind, htarget, hvalue⟩]
  dsimp only
  rw [if_pos (by simp [hpattern, isRequestBody_iff.mpr hbody])]
  exact List.mem_filterMap.mpr ⟨part, hpart, patternKey?_eq_some_iff.mpr hname⟩

/-- What a node adds is a field that it reads, or the text of a part without a name. -/
theorem mem_bodyFieldsAt_iff :
    name ∈ bodyFieldsAt t ↔
      Reads name t ∨ ∃ part, TakesApart t part ∧ IsNameless name part := by
  constructor
  · intro h
    unfold bodyFieldsAt at h
    split at h
    · rename_i object property hmember
      obtain ⟨hkind, hobject, hproperty⟩ := Tree.meaning?_eq_member_iff.mp hmember
      split at h
      · rename_i hbody
        exact .inl (.property hkind hobject (isRequestBody_iff.mp hbody) hproperty
          (Option.mem_toList.mp h))
      · cases h
    · rename_i pattern value hdeclarator
      obtain ⟨hkind, htarget, hvalue⟩ := Tree.meaning?_eq_declarator_iff.mp hdeclarator
      split at h
      · rename_i hboth
        rw [Bool.and_eq_true, decide_eq_true_eq, isRequestBody_iff] at hboth
        obtain ⟨part, hpart, hkey⟩ := List.mem_filterMap.mp h
        have htakes : TakesApart t part :=
          ⟨hkind, ⟨pattern, htarget, hboth.1, hpart⟩, value, hvalue, hboth.2⟩
        exact (patternKey?_eq_some_iff.mp hkey).imp (.pattern htakes) fun hnameless =>
          ⟨part, htakes, hnameless⟩
      · cases h
    · cases h
    · split at h
      · rename_i hkind
        split at h
        · rename_i object index hobject hindex
          split at h
          · rename_i hbody
            exact .inl (.index hkind hobject (isRequestBody_iff.mp hbody) hindex
              (Option.mem_toList.mp h))
          · cases h
        · cases h
      · cases h
  · rintro ((⟨hkind, hobject, hbody, hproperty, hname⟩ | ⟨hkind, hobject, hbody, hindex, hname⟩ |
      ⟨hpart, hname⟩) | ⟨part, hpart, hname⟩)
    · unfold bodyFieldsAt
      rw [Tree.meaning?_eq_member_iff.mpr ⟨hkind, hobject, hproperty⟩]
      simp [isRequestBody_iff.mpr hbody, hname]
    · unfold bodyFieldsAt
      rw [meaning?_of_subscript hkind]
      simp [hkind, hobject, hindex, isRequestBody_iff.mpr hbody, hname]
    · exact mem_bodyFieldsAt_of_takesApart hpart (.inl hname)
    · exact mem_bodyFieldsAt_of_takesApart hpart (.inr hname)

theorem mem_bodyFields_iff
    {tree : Tree} :
    name ∈ bodyFields tree ↔
      (∃ node ∈ tree.preorder, Reads name node) ∨
        ∃ node ∈ tree.preorder, ∃ part, TakesApart node part ∧ IsNameless name part := by
  rw [bodyFields, Text.mem_sorted, List.mem_flatMap]
  simp only [mem_bodyFieldsAt_iff]
  constructor
  · rintro ⟨node, hnode, hreads | hnameless⟩
    · exact .inl ⟨node, hnode, hreads⟩
    · exact .inr ⟨node, hnode, hnameless⟩
  · rintro (⟨node, hnode, hreads⟩ | ⟨node, hnode, hnameless⟩)
    · exact ⟨node, hnode, .inl hreads⟩
    · exact ⟨node, hnode, .inr hnameless⟩

/-- An index that is no literal adds nothing. -/
theorem bodyFieldsAt_of_computed_index
    (hkind : t.kind = .subscript)
    (hindex : ∀ index, t.child? .index = some index → index.literal? = none) :
    bodyFieldsAt t = [] := by
  refine List.eq_nil_iff_forall_not_mem.mpr fun name hname => ?_
  rcases mem_bodyFieldsAt_iff.mp hname with
    (⟨hother, -⟩ | ⟨-, -, -, hchild, hliteral⟩ | ⟨⟨hother, -⟩, -⟩) | ⟨-, ⟨hother, -⟩, -⟩
  · rw [hkind] at hother
    cases hother
  · rw [hindex _ hchild] at hliteral
    cases hliteral
  · rw [hkind] at hother
    cases hother
  · rw [hkind] at hother
    cases hother

/-- A computed key adds its text, with the brackets. -/
theorem text_mem_bodyFields_of_computed_key
    {tree node key : Tree}
    (hnode : node ∈ tree.preorder)
    (hpart : TakesApart node part)
    (hkind : part.kind = .pairPattern)
    (hkey : part.child? .key = some key)
    (hcomputed : key.kind = .computedName) :
    key.text ∈ bodyFields tree := by
  have hliteral : key.literal? = none := by simp [Tree.literal?, hcomputed]
  have hplain : isPlainKey key.kind = false := by
    rw [hcomputed]
    rfl
  exact mem_bodyFields_iff.mpr
    (.inr ⟨node, hnode, part, hpart, .computed hkind hkey hliteral hplain rfl⟩)

/-- In every tree, what is found is what is read in one of these ways, and the texts of parts of
patterns that have no name for a key.  An index that is no literal adds nothing, and a computed key
adds its text.  So the fields that are read are all that is found exactly if every such text is also
a field that is read. -/
theorem reads_or_isNameless_of_bodyFields (tree : Tree) :
    (∀ name, name ∈ bodyFields tree ↔
      (∃ node ∈ tree.preorder, Reads name node) ∨
        ∃ node ∈ tree.preorder, ∃ part, TakesApart node part ∧ IsNameless name part) ∧
    (∀ node ∈ tree.preorder, node.kind = .subscript →
      (∀ index, node.child? .index = some index → index.literal? = none) →
      bodyFieldsAt node = []) ∧
    (∀ node ∈ tree.preorder, ∀ part key, TakesApart node part → part.kind = .pairPattern →
      part.child? .key = some key → key.kind = .computedName → key.text ∈ bodyFields tree) ∧
    ((∀ name, name ∈ bodyFields tree ↔ ∃ node ∈ tree.preorder, Reads name node) ↔
      ∀ node ∈ tree.preorder, ∀ part text, TakesApart node part → IsNameless text part →
        ∃ other ∈ tree.preorder, Reads text other) := by
  refine ⟨fun name => mem_bodyFields_iff, ?_, ?_, ?_⟩
  · intro node _ hkind hindex
    exact bodyFieldsAt_of_computed_index hkind hindex
  · intro node hnode part key hpart hkind hkey hcomputed
    exact text_mem_bodyFields_of_computed_key hnode hpart hkind hkey hcomputed
  · constructor
    · intro hexact node hnode part text hpart hnameless
      exact (hexact text).mp (mem_bodyFields_iff.mpr (.inr ⟨node, hnode, part, hpart, hnameless⟩))
    · intro hread name
      rw [mem_bodyFields_iff, or_iff_left_iff_imp]
      rintro ⟨node, hnode, part, hpart, hnameless⟩
      exact hread node hnode part name hpart hnameless

/-! ## A computed key -/

/-- What is read stands in the tree as a literal, a key or a shorthand. -/
theorem Reads.exists_node
    {tree node : Tree}
    (h : Reads name node)
    (hnode : node ∈ tree.preorder) :
    ∃ s ∈ tree.preorder, s.literal? = some name ∨
      s.text = name ∧ (isPlainKey s.kind ∨ s.kind = .shorthandPattern) := by
  have hchild : ∀ {s c : Tree} {r : Role}, s ∈ tree.preorder → s.child? r = some c →
      c ∈ tree.preorder := fun hs hc =>
    Tree.mem_preorder_of_child hs (List.mem_of_find?_eq_some hc)
  cases h with
  | property _ _ _ hproperty hname =>
      obtain ⟨hkind, htext⟩ := Option.ite_none_right_eq_some.mp hname
      exact ⟨_, hchild hnode hproperty, .inr ⟨Option.some.inj htext, .inl (by
        simp [isPlainKey, hkind])⟩⟩
  | index _ _ _ hindex hname => exact ⟨_, hchild hnode hindex, .inl hname⟩
  | pattern hpart hname =>
      obtain ⟨-, ⟨pattern, htarget, -, hmem⟩, -⟩ := hpart
      have hpart := Tree.mem_preorder_of_child (hchild hnode htarget) hmem
      cases hname with
      | shorthand hkind hname => exact ⟨_, hpart, .inr ⟨hname, .inr hkind⟩⟩
      | renamed _ hkey hplain hname => exact ⟨_, hchild hpart hkey, .inr ⟨hname, .inl hplain⟩⟩
      | quoted _ hkey hname => exact ⟨_, hchild hpart hkey, .inl hname⟩
      | defaulted _ hleft hshorthand hname =>
          exact ⟨_, hchild hpart hleft, .inr ⟨hname, .inr hshorthand⟩⟩

namespace Computed

/-- A file that takes the body apart under a computed key, and reads it under a computed index. -/
def project : FileSystem :=
  ⟨.directory [("orders.js", .file (some
    ("const \x7b [k]: x \x7d = req.body;\n" ++
      "save(req.body[k]);\n")))], []⟩

def isComputedPart (part : Tree) : Bool :=
  part.kind = .pairPattern &&
    (part.child? .key).any fun key => key.kind = .computedName && key.text = "[k]"

def isPattern (pattern : Tree) : Bool :=
  pattern.kind = .objectPattern && pattern.children.any isComputedPart

def isDeclarator (t : Tree) : Bool :=
  t.kind = .variableDeclarator && (t.child? .name).any isPattern &&
    (t.child? .value).any isRequestBody

def isComputedIndex (t : Tree) : Bool :=
  t.kind = .subscript && (t.child? .index).all fun index => index.literal?.isNone

/-- Whether the script has such a key and such an index, and nothing else that says `[k]`. -/
def isComputed (script : Script) : Bool :=
  script.nodes.any isDeclarator && script.nodes.any isComputedIndex &&
    script.nodes.all fun t => t.literal? ≠ some "[k]" && (t.text ≠ "[k]" || t.kind = .computedName)

theorem isComputed_orders : (Script.read? project "/orders.js").any isComputed = true := by
  decide +kernel

theorem exists_computed :
    ∃ script, Script.read? project "/orders.js" = some script ∧
      (∃ node ∈ script.nodes, ∃ part key, TakesApart node part ∧ part.kind = .pairPattern ∧
        part.child? .key = some key ∧ key.kind = .computedName ∧ key.text = "[k]") ∧
      (∃ node ∈ script.nodes, node.kind = .subscript ∧
        ∀ index, node.child? .index = some index → index.literal? = none) ∧
      ∀ t ∈ script.nodes, t.literal? ≠ some "[k]" ∧ (t.text = "[k]" → t.kind = .computedName) := by
  obtain ⟨script, hread, hcomputed⟩ := (Option.any_eq_true _ _).mp isComputed_orders
  simp only [isComputed, isDeclarator, isPattern, isComputedPart, isComputedIndex,
    Bool.and_eq_true, Bool.or_eq_true, List.any_eq_true, List.all_eq_true, Option.any_eq_true,
    Option.all_eq_true, Option.isNone_iff_eq_none, decide_eq_true_eq] at hcomputed
  obtain ⟨⟨⟨node, hnode, ⟨hkind, pattern, htarget, hpattern, part, hpart, hpair, key, hkey⟩,
    value, hvalue, hbody⟩, subscript, hsubscript, hindex⟩, hothers⟩ := hcomputed
  refine ⟨script, hread, ⟨node, hnode, part, key, ?_, hpair, hkey⟩, ⟨subscript, hsubscript, hindex⟩,
    fun t ht => ⟨(hothers t ht).1, fun htext => ((hothers t ht).2).resolve_left (by simp [htext])⟩⟩
  exact ⟨hkind, ⟨pattern, htarget, hpattern, hpart⟩, value, hvalue, isRequestBody_iff.mp hbody⟩

end Computed

/-- The computed key is found with its brackets, the computed index is not. -/
theorem reads_or_isNameless_of_bodyFields_orders :
    ∃ script, Script.read? Computed.project "/orders.js" = some script ∧
      (∃ node ∈ script.nodes, ∃ part key, TakesApart node part ∧ part.kind = .pairPattern ∧
        part.child? .key = some key ∧ key.kind = .computedName ∧ key.text = "[k]" ∧
        "[k]" ∈ bodyFields script.tree) ∧
      ∃ node ∈ script.nodes, node.kind = .subscript ∧
        (∀ index, node.child? .index = some index → index.literal? = none) ∧
        bodyFieldsAt node = [] := by
  obtain ⟨script, hread, ⟨node, hnode, part, key, hpart, hkind, hkey, hcomputed, htext⟩,
    ⟨subscript, hmem, hsubscript, hindex⟩, -⟩ := Computed.exists_computed
  obtain ⟨-, hempty, hadded, -⟩ := reads_or_isNameless_of_bodyFields script.tree
  refine ⟨script, hread, ⟨node, hnode, part, key, hpart, hkind, hkey, hcomputed, htext, ?_⟩,
    subscript, hmem, hsubscript, hindex, hempty subscript hmem hsubscript hindex⟩
  rw [← htext]
  exact hadded node hnode part key hpart hkind hkey hcomputed

/-- Not all that is found is a field that some node reads. -/
theorem not_forall_reads_of_mem_bodyFields :
    ¬ ∀ (tree : Tree) (name : String),
      name ∈ bodyFields tree ↔ ∃ node ∈ tree.preorder, Reads name node := by
  intro hall
  obtain ⟨script, -, ⟨node, hnode, part, key, hpart, hkind, hkey, hcomputed, htext⟩, -, hothers⟩ :=
    Computed.exists_computed
  have hmem := text_mem_bodyFields_of_computed_key hnode hpart hkind hkey hcomputed
  rw [htext] at hmem
  obtain ⟨other, hother, hreads⟩ := (hall script.tree "[k]").mp hmem
  obtain ⟨s, hs, hliteral | ⟨htext, hplain⟩⟩ := hreads.exists_node hother
  · exact (hothers s hs).1 hliteral
  · rw [(hothers s hs).2 htext] at hplain
    exact absurd hplain (by decide)

end Handler
end EndpointPayload
