import EndpointPayload.Proofs.Route.Refinement
import EndpointPayload.Proofs.Source.Reading

/-!
# Names have no point

The handler of a route is one text for a name and for a member of an object, told apart by a point.
That is safe because a name that was read from a script has none.  Neither name characters nor the
characters of an escape are points, and in the grammar of every dialect all nodes that count as
names are leaves over name tokens.
-/

namespace EndpointPayload
namespace Source

/-! ## Lexemes of names -/

theorem point_notMem_takeWhile
    {p : Char → Bool}
    (hp : p '.' = false)
    (cs : List Char) :
    '.' ∉ cs.takeWhile p := by
  intro hmem
  have := List.all_eq_true.mp List.all_takeWhile '.' hmem
  exact absurd this (by simp [hp])

theorem point_notMem_take_unicodeEscape
    {cs : List Char}
    {k : Nat}
    (h : unicodeEscape? cs = some k) :
    '.' ∉ cs.take k := by
  unfold unicodeEscape? at h
  split at h
  · rename_i r
    dsimp only at h
    split at h
    · cases h
    · rename_i hclosed
      cases h
      have hbrace : r[(r.takeWhile isHex).length]? = some '}' := by simp_all
      have hdigits : r.take (r.takeWhile isHex).length = r.takeWhile isHex :=
        (List.prefix_iff_eq_take.mp (List.takeWhile_prefix isHex)).symm
      have htake : r.take ((r.takeWhile isHex).length + 1) = r.takeWhile isHex ++ ['}'] := by
        simp [List.take_add_one, hbrace, hdigits]
      have hpoint : '.' ∉ r.takeWhile isHex := point_notMem_takeWhile (by decide) r
      simp [htake, hpoint]
  · rename_i a b c d rest _
    split at h
    · rename_i hhex
      cases h
      have hpoint : '.' ∉ [a, b, c, d].takeWhile isHex := point_notMem_takeWhile (by decide) _
      simp_all
    · cases h
  · cases h

theorem point_notMem_take_nameRun (n : Nat) (cs : List Char) : '.' ∉ cs.take (nameRun n cs) := by
  induction n, cs using nameRun.induct with
  | case1 cs => simp [nameRun]
  | case2 n => simp [nameRun]
  | case3 n c r hpart ih =>
      have hc : c ≠ '.' := by
        rintro rfl
        exact absurd hpart (by decide)
      simp [nameRun, hpart, ih, hc.symm]
  | case4 n c r hpart hescape => simp [nameRun, hpart, hescape]
  | case5 n c r hpart k hescape ih =>
      simp only [nameRun, hpart, hescape, Bool.false_eq_true, if_false]
      rw [Nat.add_comm, List.take_add, List.mem_append, not_or]
      exact ⟨point_notMem_take_unicodeEscape hescape, ih⟩

theorem point_notMem_take_name
    {cs : List Char}
    {n : Nat}
    (h : nameLength? cs = some n) :
    '.' ∉ cs.take n := by
  unfold nameLength? at h
  split at h
  · cases h
  · rename_i c r
    split at h
    · rename_i hstart
      cases h
      have hc : c ≠ '.' := by
        rintro rfl
        exact absurd hstart (by decide)
      simp [hc.symm, point_notMem_take_nameRun]
    · split at h
      · cases h
      · rename_i k hescape
        cases h
        rw [Nat.add_comm, List.take_add, List.mem_append, not_or]
        exact ⟨point_notMem_take_unicodeEscape hescape, point_notMem_take_nameRun _ _⟩

theorem point_notMem_take_markupName
    {cs : List Char}
    {n : Nat}
    (h : markupNameLength? cs = some n) :
    '.' ∉ cs.take n := by
  have hrun : ∀ p : Char → Bool, p '.' = false → '.' ∉ cs.take (cs.takeWhile p).length := by
    intro p hp
    rw [← List.prefix_iff_eq_take.mp (List.takeWhile_prefix p)]
    exact point_notMem_takeWhile hp cs
  unfold markupNameLength? at h
  extract_lets plain head hyphenated at h
  have hhyphenated : ∀ a, hyphenated = some a → '.' ∉ cs.take a := by
    intro a ha
    unfold hyphenated at ha
    split at ha
    · split at ha
      · split at ha
        · cases ha
          exact hrun _ (by decide)
        · cases ha
      · cases ha
    · cases ha
  cases ha : hyphenated with
  | none => exact point_notMem_take_name (by simpa [ha] using h)
  | some a =>
      cases hb : nameLength? cs with
      | none =>
          obtain rfl : a = n := by simpa [ha, hb] using h
          exact hhyphenated a ha
      | some b =>
          obtain rfl : max a b = n := by simpa [ha, hb] using h
          rcases max_choice a b with hmax | hmax
          · rw [hmax]
            exact hhyphenated a ha
          · rw [hmax]
            exact point_notMem_take_name hb

/-! ## Nodes that are names -/

/-- Tokens whose text is a name. -/
def Token.readsName : Token → Bool
  | .name _ | .markupName => true
  | _ => false

/-- A leaf that counts as a name stands over a name token. -/
def Kind.mayStandOver (k : Kind) (t : Token) : Bool := !k.isName || t.readsName

/-- No node over others counts as a name. -/
def Kind.mayHold (k : Kind) : Bool := !k.isName

/-- A name without a point, or no name at all. -/
def Label.IsPlain (l : Label) : Prop := l.kind.isName → '.' ∉ l.text.toList

/-- A node over others is no name. -/
theorem Kind.isPlain_build
    {k : Kind}
    (h : k.mayHold = true)
    (s q : Place)
    (xs : List Tree) :
    (Rule.build k s q xs).label.IsPlain := by
  intro hname
  have hk : k.isName = true := hname
  simp [Kind.mayHold, hk] at h

theorem Place.offset_advance_le (n : Nat) (p : Place) : (p.advance n).offset ≤ p.offset + n := by
  induction n generalizing p with
  | zero => simp [Place.advance]
  | succ n ih =>
      obtain ⟨rest, line, offset⟩ := p
      cases rest with
      | nil => simp [Place.advance]
      | cons c r =>
          have := ih ⟨r, if c = '\n' then line + 1 else line, offset + 1⟩
          simp only [Place.advance]
          dsimp only at this
          omega

/-- The text of a token is at the front of what it is read from. -/
theorem Token.text_prefix
    {t : Token}
    {p s q : Place}
    (h : t.read p = some (s, q)) :
    ∃ n, t.length? s.rest = some n ∧ (s.textTo q).toList <+: s.rest.take n := by
  simp only [Token.read, Option.map_eq_some_iff] at h
  obtain ⟨n, hn, h⟩ := h
  cases h
  refine ⟨n, hn, ?_⟩
  rw [Place.textTo, String.toList_ofList]
  have hoffset := Place.offset_advance_le n
    (if t.isImmediate then p else p.advance (blankLength p.rest))
  exact List.take_prefix_take_left (by omega)

theorem Token.point_notMem_take
    {t : Token}
    {cs : List Char}
    {n : Nat}
    (ht : t.readsName = true)
    (h : t.length? cs = some n) :
    '.' ∉ cs.take n := by
  cases t with
  | name reserved =>
      obtain ⟨k, hk, hfree⟩ := Option.bind_eq_some_iff.mp h
      split at hfree
      · cases hfree
      · cases hfree
        exact point_notMem_take_name hk
  | markupName => exact point_notMem_take_markupName h
  | _ => cases ht

/-- Leaves over name tokens, and nodes that are no names, have no point in a name. -/
theorem gives_isPlain :
    Rule.Gives Kind.mayStandOver Kind.mayHold (fun k _ => k.mayHold)
      (fun t => t.label.IsPlain) where
  withRole t r h := by
    obtain ⟨l, children⟩ := t
    exact h
  leaf k t p s q hallowed hread hname := by
    have ht : t.readsName = true := by
      have hk : k.isName = true := hname
      simpa [Kind.mayStandOver, hk] using hallowed
    obtain ⟨n, hn, htext⟩ := Token.text_prefix hread
    intro hpoint
    exact Token.point_notMem_take ht hn (htext.subset hpoint)
  node k s q xs hallowed := Kind.isPlain_build hallowed s q xs
  grown k r s q x xs hallowed := Kind.isPlain_build hallowed s q (x.withRole r :: xs)

/-- In every dialect, all nodes that count as names are leaves over name tokens. -/
theorem script_builds (d : Dialect) (m : Part) :
    (Grammar.script d m).builds Kind.mayStandOver Kind.mayHold (fun k _ => k.mayHold) = true := by
  cases d <;> cases m <;> rename_i p <;> cases p <;> rfl

/-- A name in a script has no point. -/
theorem Script.point_notMem_name
    {files : FileSystem}
    {path : String}
    {script : Script}
    {node : Tree}
    {name : String}
    (hscript : Script.read? files path = some script)
    (hnode : node ∈ script.nodes)
    (hname : node.name? = some name) :
    '.' ∉ name.toList := by
  obtain ⟨dialect, text, tree, -, -, hparse, rfl⟩ := read?_eq_some_iff.mp hscript
  have hplain : node.label.IsPlain :=
    Rule.every_of_readAll gives_isPlain (script_builds dialect) hparse node hnode
  obtain ⟨hkind, htext⟩ := Option.ite_none_right_eq_some.mp hname
  cases htext
  exact hplain hkind

end Source
end EndpointPayload
