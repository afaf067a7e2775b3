import EndpointPayload.Handler.Location
import EndpointPayload.Proofs.Source.Meanings
import EndpointPayload.Proofs.Source.Walk

/-!
# What the search for a function finds

`Defines` lists the nodes that define a name, by their kinds and their children alone: function
declarations, declarators and assignments to exports with a function as the value, methods, and
functions under a key.  The search finds a name if and only if some node of the tree defines it, and
then it shows the first of these nodes in source order, a declaration or an assignment with the
statements right around it.

A key spells a name if it is that name or quotes it.  A member is found under the name that its key
spells, with one exception: a method with a quoted key goes by the key as written, quotes included.
-/

namespace EndpointPayload

open Source

namespace Handler

/-! ## Definitions -/

/-- A function, or a call with a function among its arguments. -/
inductive IsFunctionValue : Tree → Prop where
  | function
      {value : Tree}
      (hfunction : value.kind.isFunction) :
      IsFunctionValue value
  | call
      {value callee argument : Tree}
      (hkind : value.kind = .call)
      (hcallee : value.child? .callee = some callee)
      (hargument : argument ∈ value.argumentsOf)
      (hfunction : argument.kind.isFunction) :
      IsFunctionValue value

/-- `exports`, `module` or `module.exports`. -/
inductive IsExports : Tree → Prop where
  | name
      {t : Tree}
      (hname : t.name? = some "exports" ∨ t.name? = some "module") :
      IsExports t
  | member
      {t object property : Tree}
      (hkind : t.kind = .member)
      (hobject : t.child? .object = some object)
      (hmodule : object.name? = some "module")
      (hproperty : t.child? .property = some property)
      (hexports : property.name? = some "exports") :
      IsExports t

/-- A member of the exports with the given name. -/
structure IsExport (name : String) (t : Tree) : Prop where
  kind_eq : t.kind = .member
  object : ∃ object, t.child? .object = some object ∧ IsExports object
  property : ∃ property, t.child? .property = some property ∧ property.name? = some name

/-- How a definition is written. -/
inductive Form where
  | statement
  | declarator
  | member
  deriving DecidableEq

/-- The nodes that define a name, each with the form of the definition. -/
inductive Defines (name : String) : Tree → Form → Prop where
  | function
      {t target : Tree}
      (hkind : t.kind = .functionDeclaration ∨ t.kind = .generatorDeclaration)
      (htarget : t.child? .name = some target)
      (hname : target.text = name) :
      Defines name t .statement
  | declarator
      {t target value : Tree}
      (hkind : t.kind = .variableDeclarator)
      (htarget : t.child? .name = some target)
      (hname : target.name? = some name)
      (hvalue : t.child? .value = some value)
      (hfunction : IsFunctionValue value) :
      Defines name t .declarator
  | assignment
      {t left right : Tree}
      (hkind : t.kind = .assignment)
      (hleft : t.child? .left = some left)
      (hexport : IsExport name left)
      (hright : t.child? .right = some right)
      (hfunction : IsFunctionValue right) :
      Defines name t .statement
  | method
      {t key : Tree}
      (hkind : t.kind = .methodDefinition)
      (hkey : t.child? .name = some key)
      (hname : key.text = name) :
      Defines name t .member
  | pair
      {t key value : Tree}
      (hkind : t.kind = .pair)
      (hkey : t.child? .key = some key)
      (hvalue : t.child? .value = some value)
      (hfunction : value.kind.isFunction)
      (hname : key.keyText = name) :
      Defines name t .member

variable {name : String} {t : Tree}

theorem definesFunction_iff : definesFunction t = true ↔ IsFunctionValue t := by
  rw [definesFunction, Bool.or_eq_true]
  constructor
  · rintro (hfunction | hcall)
    · exact .function hfunction
    · split at hcall
      · rename_i callee arguments hmeaning
        obtain ⟨hkind, hcallee, rfl⟩ := Tree.meaning?_eq_call_iff.mp hmeaning
        obtain ⟨argument, hargument, hfunction⟩ := List.any_eq_true.mp hcall
        exact .call hkind hcallee hargument hfunction
      · cases hcall
  · rintro (hfunction | ⟨hkind, hcallee, hargument, hfunction⟩)
    · exact .inl hfunction
    · right
      rw [Tree.meaning?_eq_call_iff.mpr ⟨hkind, hcallee, rfl⟩]
      exact List.any_eq_true.mpr ⟨_, hargument, hfunction⟩

/-- What the test for an export asks of the object. -/
theorem isExports_iff :
    IsExports t ↔
      (∃ n, t.meaning? = some (.name n) ∧ (n = "exports" ∨ n = "module")) ∨
        ∃ object property, t.meaning? = some (.member object property) ∧
          object.name? = some "module" ∧ property.name? = some "exports" := by
  constructor
  · rintro (⟨hname | hname⟩ | ⟨hkind, hobject, hmodule, hproperty, hexports⟩)
    · exact .inl ⟨_, Tree.meaning?_eq_name_iff.mpr hname, .inl rfl⟩
    · exact .inl ⟨_, Tree.meaning?_eq_name_iff.mpr hname, .inr rfl⟩
    · exact .inr ⟨_, _, Tree.meaning?_eq_member_iff.mpr ⟨hkind, hobject, hproperty⟩, hmodule,
        hexports⟩
  · rintro (⟨n, hmeaning, hn⟩ | ⟨object, property, hmeaning, hmodule, hexports⟩)
    · rw [Tree.meaning?_eq_name_iff] at hmeaning
      rcases hn with rfl | rfl
      · exact .name (.inl hmeaning)
      · exact .name (.inr hmeaning)
    · obtain ⟨hkind, hobject, hproperty⟩ := Tree.meaning?_eq_member_iff.mp hmeaning
      exact .member hkind hobject hmodule hproperty hexports

theorem isExport_iff : isExport t name = true ↔ IsExport name t := by
  unfold isExport
  constructor
  · intro h
    split at h
    · rename_i object property hmember
      obtain ⟨hkind, hobject, hproperty⟩ := Tree.meaning?_eq_member_iff.mp hmember
      rw [Bool.and_eq_true, decide_eq_true_eq] at h
      refine ⟨hkind, ⟨object, hobject, isExports_iff.mpr ?_⟩, property, hproperty, h.1⟩
      have hexports := h.2
      split at hexports
      · rename_i n hn
        exact .inl ⟨n, hn, by simpa using hexports⟩
      · rename_i inner exported hinner
        exact .inr ⟨inner, exported, hinner, by simpa using hexports⟩
      · cases hexports
    · cases h
  · rintro ⟨hkind, ⟨object, hobject, hexports⟩, property, hproperty, hname⟩
    rw [Tree.meaning?_eq_member_iff.mpr ⟨hkind, hobject, hproperty⟩]
    rcases isExports_iff.mp hexports with
      ⟨n, hn, hwhole⟩ | ⟨inner, exported, hinner, hmodule, hexported⟩
    · simp [hname, hn, hwhole]
    · simp [hname, hinner, hmodule, hexported]

/-! ## What is shown -/

/-- The outermost of the statements right around a node, or the node itself. -/
def widened (t : Tree) (around : List Tree) : Tree :=
  ((around.takeWhile fun p => p.kind.isEnclosingStatement).getLast?).getD t

/-- The node that is shown for a definition inside others.  A declarator is shown by the declaration
that it is in. -/
def Form.shown : Form → Tree → List Tree → Tree
  | statement, t, around => widened t around
  | declarator, t, [] => t
  | declarator, _, p :: ps => widened p ps
  | member, t, _ => t

/-- A statement around a node that belongs to it is shown in its place. -/
theorem widened_cons
    {p : Tree}
    (h : p.kind.isEnclosingStatement = true)
    (around : List Tree) :
    widened t (p :: around) = widened p around := by
  rw [widened, List.takeWhile_cons, if_pos h, List.getLast?_cons, Option.getD_some]
  rfl

theorem enclosing_eq_widened (t : Tree) (levels : List Level) :
    enclosing t levels = widened t (levels.map Level.parent) := by
  induction levels generalizing t with
  | nil => rfl
  | cons l ls ih =>
      rw [enclosing, List.map_cons]
      split
      · rename_i hstatement
        rw [ih, widened_cons hstatement]
      · rename_i hother
        rw [widened, List.takeWhile_cons, if_neg hother]
        rfl

theorem exists_defines_of_definitionAt?
    {c : Cursor}
    {shown : Tree}
    (h : definitionAt? name c = some shown) :
    ∃ form, Defines name c.focus form ∧ form.shown c.focus c.ancestors = shown := by
  have hstatement : Form.statement.shown c.focus c.ancestors = statement c :=
    (enclosing_eq_widened _ _).symm
  unfold definitionAt? at h
  split at h
  · rename_i hmeaning
    obtain ⟨hkind, target, htarget, rfl⟩ := Tree.meaning?_eq_function_iff.mp hmeaning
    obtain ⟨hname, hshown⟩ := Option.ite_none_right_eq_some.mp h
    exact ⟨.statement, .function hkind htarget hname,
      hstatement.trans (Option.some.inj hshown)⟩
  · rename_i hmeaning
    obtain ⟨hkind, htarget, hvalue⟩ := Tree.meaning?_eq_declarator_iff.mp hmeaning
    obtain ⟨hboth, hshown⟩ := Option.ite_none_right_eq_some.mp h
    rw [Bool.and_eq_true, decide_eq_true_eq, definesFunction_iff] at hboth
    refine ⟨.declarator, .declarator hkind htarget hboth.1 hvalue hboth.2, ?_⟩
    -- A declarator is shown by its parent, so the top of a tree is a case of its own.
    obtain ⟨focus, _ | ⟨l, ls⟩⟩ := c
    · exact Option.some.inj hshown
    · exact (enclosing_eq_widened _ _).symm.trans (Option.some.inj hshown)
  · rename_i hmeaning
    obtain ⟨hkind, hleft, hright⟩ := Tree.meaning?_eq_assignment_iff.mp hmeaning
    obtain ⟨hboth, hshown⟩ := Option.ite_none_right_eq_some.mp h
    rw [Bool.and_eq_true, isExport_iff, definesFunction_iff] at hboth
    exact ⟨.statement, .assignment hkind hleft hboth.1 hright hboth.2,
      hstatement.trans (Option.some.inj hshown)⟩
  · rename_i hmeaning
    obtain ⟨rfl, hshown⟩ := Option.ite_none_right_eq_some.mp h
    rcases Tree.meaning?_eq_method_iff.mp hmeaning with
      ⟨hkind, key, hkey, hname⟩ | ⟨hkind, key, value, hkey, hvalue, hfunction, hname⟩
    · exact ⟨.member, .method hkind hkey hname, Option.some.inj hshown⟩
    · exact ⟨.member, .pair hkind hkey hvalue hfunction hname, Option.some.inj hshown⟩
  · cases h

theorem definitionAt?_of_defines
    {c : Cursor}
    {form : Form}
    (h : Defines name c.focus form) :
    definitionAt? name c = some (form.shown c.focus c.ancestors) := by
  have hstatement : statement c = Form.statement.shown c.focus c.ancestors :=
    enclosing_eq_widened _ _
  unfold definitionAt?
  cases h with
  | function hkind htarget hname =>
      rw [Tree.meaning?_eq_function_iff.mpr ⟨hkind, _, htarget, hname⟩, hstatement]
      exact if_pos rfl
  | declarator hkind htarget hname hvalue hfunction =>
      rw [Tree.meaning?_eq_declarator_iff.mpr ⟨hkind, htarget, hvalue⟩]
      have hboth : (decide (_ = some name) && definesFunction _) = true :=
        Bool.and_eq_true_iff.mpr ⟨decide_eq_true hname, definesFunction_iff.mpr hfunction⟩
      refine (if_pos hboth).trans (congrArg some ?_)
      obtain ⟨focus, _ | ⟨l, ls⟩⟩ := c
      · rfl
      · exact enclosing_eq_widened _ _
  | assignment hkind hleft hexport hright hfunction =>
      rw [Tree.meaning?_eq_assignment_iff.mpr ⟨hkind, hleft, hright⟩, hstatement]
      simp [isExport_iff.mpr hexport, definesFunction_iff.mpr hfunction]
  | method hkind hkey hname =>
      rw [Tree.meaning?_eq_method_iff.mpr (.inl ⟨hkind, _, hkey, hname⟩)]
      exact if_pos rfl
  | pair hkind hkey hvalue hfunction hname =>
      rw [Tree.meaning?_eq_method_iff.mpr
        (.inr ⟨hkind, _, _, hkey, hvalue, hfunction, hname⟩)]
      exact if_pos rfl

/-- A definition is shown as its form says. -/
theorem definitionAt?_eq_some_iff
    {c : Cursor}
    {shown : Tree} :
    definitionAt? name c = some shown ↔
      ∃ form, Defines name c.focus form ∧ form.shown c.focus c.ancestors = shown := by
  constructor
  · exact exists_defines_of_definitionAt?
  · rintro ⟨form, hdefines, rfl⟩
    exact definitionAt?_of_defines hdefines

theorem definitionAt?_eq_none_iff
    {c : Cursor} :
    definitionAt? name c = none ↔ ∀ form, ¬ Defines name c.focus form := by
  rw [← Option.not_isSome_iff_eq_none, Option.isSome_iff_exists]
  simp only [definitionAt?_eq_some_iff]
  constructor
  · intro h form hdefines
    exact h ⟨_, form, hdefines, rfl⟩
  · rintro h ⟨shown, form, hdefines, -⟩
    exact h form hdefines

/-! ## The first definition -/

/-- The lines of a node. -/
def lines (t : Tree) : LineSpan := ⟨t.startLine, t.endLine⟩

/-- The first definition of a name in a tree, with the nodes around it. -/
structure IsFirst (tree : Tree) (name : String) (node : Tree) (around : List Tree) (form : Form) :
    Prop where
  defines : Defines name node form
  split : ∃ before after, tree.spots [] = before ++ (node, around) :: after ∧
    ∀ spot ∈ before, ∀ other, ¬ Defines name spot.1 other

theorem isSome_location?_iff
    {tree : Tree} :
    (location? tree name).isSome ↔ ∃ node ∈ tree.preorder, ∃ form, Defines name node form := by
  rw [location?, Option.isSome_map, List.findSome?_isSome_iff, ← Tree.map_focus_places]
  simp only [Option.isSome_iff_exists, definitionAt?_eq_some_iff, List.mem_map]
  constructor
  · rintro ⟨c, hc, shown, form, hdefines, -⟩
    exact ⟨c.focus, ⟨c, hc, rfl⟩, form, hdefines⟩
  · rintro ⟨node, ⟨c, hc, rfl⟩, form, hdefines⟩
    exact ⟨c, hc, _, form, hdefines, rfl⟩

theorem location?_eq_some_iff
    {tree : Tree}
    {span : LineSpan} :
    location? tree name = some span ↔
      ∃ node around form, IsFirst tree name node around form ∧
        lines (form.shown node around) = span := by
  rw [location?, Option.map_eq_some_iff]
  simp only [List.findSome?_eq_some_iff]
  constructor
  · rintro ⟨shown, ⟨before, c, after, hplaces, hshown, hbefore⟩, rfl⟩
    obtain ⟨form, hdefines, rfl⟩ := definitionAt?_eq_some_iff.mp hshown
    refine ⟨c.focus, c.ancestors, form, ⟨hdefines, before.map Cursor.spot,
      after.map Cursor.spot, ?_, ?_⟩, rfl⟩
    · rw [← Tree.map_spot_places, hplaces, List.map_append, List.map_cons]
      rfl
    · rintro spot hspot
      obtain ⟨d, hd, rfl⟩ := List.mem_map.mp hspot
      exact definitionAt?_eq_none_iff.mp (hbefore d hd)
  · rintro ⟨node, around, form, ⟨hdefines, before, after, hspots, hbefore⟩, rfl⟩
    rw [← Tree.map_spot_places, List.map_eq_append_iff] at hspots
    obtain ⟨placesBefore, rest, hplaces, rfl, hrest⟩ := hspots
    obtain ⟨c, placesAfter, rfl, hspot, rfl⟩ := List.map_eq_cons_iff.mp hrest
    cases hspot
    refine ⟨_, ⟨placesBefore, c, placesAfter, hplaces,
      definitionAt?_eq_some_iff.mpr ⟨form, hdefines, rfl⟩, ?_⟩, rfl⟩
    intro d hd
    exact definitionAt?_eq_none_iff.mpr (hbefore d.spot (List.mem_map_of_mem hd))

/-! ## Keys of members -/

/-- The key of a method, or of a function under a key. -/
inductive IsKey (key : Tree) : Tree → Prop where
  | method
      {t : Tree}
      (hkind : t.kind = .methodDefinition)
      (hkey : t.child? .name = some key) :
      IsKey key t
  | pair
      {t value : Tree}
      (hkind : t.kind = .pair)
      (hkey : t.child? .key = some key)
      (hvalue : t.child? .value = some value)
      (hfunction : value.kind.isFunction) :
      IsKey key t

/-- A name, or a text in quotes. -/
inductive Spells (key : Tree) (name : String) : Prop where
  | name
      (hname : key.name? = some name) :
      Spells key name
  | quoted
      (quote : Char)
      (hkind : key.kind = .string)
      (htext : key.text.toList = quote :: name.toList ++ [quote]) :
      Spells key name

/-- The key that a method is found under, and that of a function under a key. -/
theorem defines_member_iff_of_isKey
    {key : Tree}
    (h : IsKey key t) :
    Defines name t .member ↔
      (if t.kind = .methodDefinition then key.text else key.keyText) = name := by
  cases h with
  | method hkind hkey =>
      rw [if_pos hkind]
      constructor
      · rintro (_ | _ | _ | ⟨-, hother, hname⟩ | ⟨hpair, -, -, -, -⟩)
        · exact Option.some.inj (hother.symm.trans hkey) ▸ hname
        · rw [hkind] at hpair
          cases hpair
      · exact .method hkind hkey
  | pair hkind hkey hvalue hfunction =>
      have hmethod : t.kind ≠ .methodDefinition := by simp [hkind]
      rw [if_neg hmethod]
      constructor
      · rintro (_ | _ | _ | ⟨hother, -, -⟩ | ⟨-, hother, -, -, hname⟩)
        · exact absurd hother hmethod
        · exact Option.some.inj (hother.symm.trans hkey) ▸ hname
      · exact .pair hkind hkey hvalue hfunction

theorem Spells.text_eq
    {key : Tree}
    (h : Spells key name)
    (hkind : key.kind ≠ .string) :
    key.text = name := by
  cases h with
  | name hname => exact Option.some.inj (Option.ite_none_right_eq_some.mp hname).2
  | quoted quote hstring => exact absurd hstring hkind

/-- What a key spells is its text without quotes. -/
theorem Spells.keyText_eq
    {key : Tree}
    (h : Spells key name) :
    key.keyText = name := by
  cases h with
  | name hname =>
      obtain ⟨hkind, htext⟩ := Option.ite_none_right_eq_some.mp hname
      have hliteral : key.literal? = none := by
        unfold Kind.isName at hkind
        split at hkind <;> simp_all [Tree.literal?]
      rw [Tree.keyText, hliteral, Option.getD_none]
      exact Option.some.inj htext
  | quoted quote hkind htext =>
      rw [Tree.keyText, Tree.literal?, hkind, Option.getD_some, Tree.unquote, htext]
      simp

/-- In every tree the search finds a name exactly if some node defines it, and what it shows is the
first of these nodes in source order with the statements around it, a declarator in a declaration no
less than a function or an assignment.  A member is found under the name that its key spells, unless
it is a method with a quoted key: this one goes by the key with its quotes. -/
theorem location?_of_definitions (tree : Tree) (name : String) :
    ((location? tree name).isSome ↔
      ∃ node ∈ tree.preorder, ∃ form, Defines name node form) ∧
    (∀ span, location? tree name = some span ↔
      ∃ node around form, IsFirst tree name node around form ∧
        lines (form.shown node around) = span) ∧
    (∀ node p around, p.kind.isEnclosingStatement = true →
      Form.declarator.shown node (p :: around) = Form.statement.shown node (p :: around)) ∧
    ∀ node key spelled, IsKey key node → Spells key spelled →
      (Defines name node .member ↔
        if node.kind = .methodDefinition ∧ key.kind = .string then key.text = name
        else spelled = name) := by
  refine ⟨isSome_location?_iff, fun span => location?_eq_some_iff,
    fun node p around hp => (widened_cons hp around).symm, ?_⟩
  intro node key spelled hkey hspells
  rw [defines_member_iff_of_isKey hkey, hspells.keyText_eq]
  by_cases hmethod : node.kind = .methodDefinition
  · by_cases hstring : key.kind = .string
    · simp [hmethod, hstring]
    · simp [hmethod, hstring, hspells.text_eq hstring]
  · simp [hmethod]

namespace Quoted

/-- A file that registers a function and exports a method of that name, quoted. -/
def project : FileSystem :=
  ⟨.directory [("routes.js", .file (some
    ("r.get('/x', list);\n" ++
      "module.exports = \x7b 'list'(req, res) \x7b\x7d \x7d;\n")))], []⟩

/-- Whether the script has a method with the quoted key and none is found under the name. -/
def isHidden (script : Script) : Bool :=
  (script.nodes.any fun t => t.kind = .methodDefinition &&
    (t.child? .name).any fun key => key.kind = .string && key.text = "'list'") &&
      (location? script.tree "list").isNone

theorem isHidden_list : (Script.read? project "/routes.js").any isHidden = true := by
  decide +kernel

theorem exists_hidden :
    ∃ script node key, Script.read? project "/routes.js" = some script ∧ node ∈ script.nodes ∧
      node.kind = .methodDefinition ∧ node.child? .name = some key ∧ key.kind = .string ∧
        key.text = "'list'" ∧ location? script.tree "list" = none := by
  obtain ⟨script, hread, hhidden⟩ := (Option.any_eq_true _ _).mp isHidden_list
  simp only [isHidden, Bool.and_eq_true, List.any_eq_true, Option.any_eq_true,
    Option.isNone_iff_eq_none, decide_eq_true_eq] at hhidden
  obtain ⟨⟨node, hnode, hkind, key, hkey, hstring, htext⟩, hnone⟩ := hhidden
  exact ⟨script, node, key, hread, hnode, hkind, hkey, hstring, htext, hnone⟩

theorem spells_list
    {key : Tree}
    (hkind : key.kind = .string)
    (htext : key.text = "'list'") :
    Spells key "list" := by
  refine .quoted '\'' hkind ?_
  rw [htext]
  rfl

end Quoted

/-- The method with the quoted key is not found under its name but with its quotes. -/
theorem location?_of_quoted_method :
    ∃ script node key, Script.read? Quoted.project "/routes.js" = some script ∧
      node ∈ script.nodes ∧ IsKey key node ∧ Spells key "list" ∧
        ¬ Defines "list" node .member ∧ Defines "'list'" node .member := by
  obtain ⟨script, node, key, hread, hnode, hkind, hkey, hstring, htext, -⟩ :=
    Quoted.exists_hidden
  have hspells := Quoted.spells_list hstring htext
  have hboth : node.kind = .methodDefinition ∧ key.kind = .string := ⟨hkind, hstring⟩
  refine ⟨script, node, key, hread, hnode, .method hkind hkey, hspells, ?_, ?_⟩
  · intro hdefines
    have hlist := ((location?_of_definitions script.tree "list").2.2.2 node key "list"
      (.method hkind hkey) hspells).mp hdefines
    rw [if_pos hboth, htext] at hlist
    exact absurd hlist (by decide)
  · refine ((location?_of_definitions script.tree "'list'").2.2.2 node key "list"
      (.method hkind hkey) hspells).mpr ?_
    rw [if_pos hboth, htext]

/-- Not every method or function under a key is found under the name that its key spells. -/
theorem not_forall_isSome_location? :
    ¬ ∀ (tree node key : Tree) (name : String), node ∈ tree.preorder → IsKey key node →
      Spells key name → (location? tree name).isSome := by
  intro hall
  obtain ⟨script, node, key, -, hnode, hkind, hkey, hstring, htext, hnone⟩ :=
    Quoted.exists_hidden
  have hsome := hall script.tree node key "list" hnode (.method hkind hkey)
    (Quoted.spells_list hstring htext)
  rw [hnone] at hsome
  cases hsome

end Handler
end EndpointPayload
