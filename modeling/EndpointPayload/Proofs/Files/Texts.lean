import EndpointPayload.Files.Ignore
import EndpointPayload.Route.Specifier
import Mathlib.Tactic

/-!
# New texts for some files

`Entry.withTexts` gives new texts to files that are there and leaves the tree as it is otherwise.
Every path is found as before, so imports mean the same files; and as long as no ignore file gets a
new text, the same files are visible.  Only reading a file shows its new text.
-/

namespace EndpointPayload

namespace Entry

mutual

/-- The entry with new texts for files, told by the names that lead to them. -/
def withTexts (texts : List String → Option String) : Entry → Entry
  | file text => file ((texts []).or text)
  | directory es => directory (withTextsIn texts es)

def withTextsIn (texts : List String → Option String) :
    List (String × Entry) → List (String × Entry)
  | [] => []
  | (n, e) :: rest => (n, withTexts (fun names => texts (n :: names)) e) :: withTextsIn texts rest

end

variable {texts : List String → Option String}

@[simp] theorem isDirectory_withTexts (e : Entry) :
    (e.withTexts texts).isDirectory = e.isDirectory := by
  cases e <;> rfl

theorem child?_withTextsIn (name : String) (es : List (String × Entry)) :
    child? name (withTextsIn texts es) =
      (child? name es).map (withTexts fun names => texts (name :: names)) := by
  induction es with
  | nil => rfl
  | cons first rest ih =>
      obtain ⟨n, e⟩ := first
      rw [withTextsIn, child?, child?]
      split
      · rename_i hn
        rw [hn, Option.map_some]
      · exact ih

/-- At any names there is the same entry with the new texts below it. -/
theorem at?_withTexts :
    ∀ (names : List String) (e : Entry) (texts : List String → Option String),
      (e.withTexts texts).at? names =
        (e.at? names).map (withTexts fun more => texts (names ++ more))
  | [], e, texts => by simp [at?]
  | n :: ns, file text, texts => rfl
  | n :: ns, directory es, texts => by
      rw [withTexts, at?, at?, child?_withTextsIn]
      cases child? n es with
      | none => rfl
      | some e => exact at?_withTexts ns e _

theorem isSome_at?_withTexts (names : List String) (e : Entry) :
    ((e.withTexts texts).at? names).isSome = (e.at? names).isSome := by
  rw [at?_withTexts, Option.isSome_map]

end Entry

namespace FileSystem

variable {texts : List String → Option String} {fs : FileSystem} {path : String}

/-- The files with new texts for some of them. -/
def withTexts (fs : FileSystem) (texts : List String → Option String) : FileSystem :=
  ⟨fs.tree.withTexts texts, fs.here⟩

@[simp] theorem tree_withTexts : (fs.withTexts texts).tree = fs.tree.withTexts texts := rfl

@[simp] theorem here_withTexts : (fs.withTexts texts).here = fs.here := rfl

theorem follow_withTexts (tree : Entry) :
    ∀ (cs : List Component) (names : List String),
      follow (tree.withTexts texts) names cs = follow tree names cs
  | [], names => by rw [follow, follow, Entry.isSome_at?_withTexts]
  | c :: cs, names => by
      rw [follow, follow, Entry.at?_withTexts]
      cases tree.at? names.reverse with
      | none => rfl
      | some e =>
          cases e with
          | file text => rfl
          | directory es =>
              cases c with
              | name n =>
                  simp only [Option.map_some, Entry.withTexts, Entry.child?_withTextsIn,
                    Option.isSome_map, follow_withTexts tree cs]
              | _ => exact follow_withTexts tree cs _

/-- Every path is found where it was. -/
@[simp] theorem locate?_withTexts : (fs.withTexts texts).locate? path = fs.locate? path := by
  rw [locate?, locate?]
  simp only [tree_withTexts, here_withTexts, follow_withTexts, Entry.at?_withTexts]
  cases follow fs.tree fs.here.reverse (Path.components path) with
  | none => rfl
  | some names =>
      dsimp only
      cases fs.tree.at? names.reverse with
      | none => rfl
      | some e => cases e <;> rfl

theorem find?_withTexts :
    (fs.withTexts texts).find? path = (fs.locate? path).bind fun names =>
      (fs.tree.at? names).map (Entry.withTexts fun more => texts (names ++ more)) := by
  rw [find?, locate?_withTexts]
  exact congrArg _ (funext fun names => Entry.at?_withTexts names fs.tree texts)

@[simp] theorem isFile_withTexts : (fs.withTexts texts).isFile path = fs.isFile path := by
  rw [isFile, isFile, find?_withTexts, find?]
  cases fs.locate? path with
  | none => rfl
  | some names =>
      rw [Option.bind_some, Option.bind_some]
      cases fs.tree.at? names with
      | none => rfl
      | some e => cases e <;> rfl

/-- A file has its new text, or its old one if it has no new one. -/
theorem readText?_withTexts :
    (fs.withTexts texts).readText? path =
      if fs.isFile path then ((fs.locate? path).bind texts).or (fs.readText? path) else none := by
  rw [readText?, isFile, readText?, find?_withTexts, find?]
  cases fs.locate? path with
  | none => rfl
  | some names =>
      rw [Option.bind_some, Option.bind_some, Option.bind_some]
      cases fs.tree.at? names with
      | none => rfl
      | some e => cases e <;> simp [Entry.withTexts]

/-- Imports mean the same files. -/
theorem imported?_withTexts : (fs.withTexts texts).imported? = fs.imported? := by
  funext file spec
  simp only [imported?]
  have hfile : (fs.withTexts texts).isFile = fs.isFile := funext fun _ => isFile_withTexts
  rw [hfile]

end FileSystem

section Visible

variable {texts : List String → Option String}

/-- No ignore file gets a new text. -/
structure SparesIgnoreFiles (texts : List String → Option String) : Prop where
  plain : ∀ names, texts (names ++ [".ignore"]) = none
  git : ∀ names, texts (names ++ [".gitignore"]) = none
  exclude : ∀ names, texts (names ++ [".git", "info", "exclude"]) = none

theorem SparesIgnoreFiles.below (h : SparesIgnoreFiles texts) (above : List String) :
    SparesIgnoreFiles fun names => texts (above ++ names) where
  plain names := by rw [← List.append_assoc, h.plain]
  git names := by rw [← List.append_assoc, h.git]
  exclude names := by rw [← List.append_assoc, h.exclude]

theorem SparesIgnoreFiles.child (h : SparesIgnoreFiles texts) (name : String) :
    SparesIgnoreFiles fun names => texts (name :: names) :=
  h.below [name]

namespace IgnoreLevel

/-- A file without a new text has the rules that it had. -/
theorem rulesAt_withTexts
    {names : List String}
    (h : texts names = none)
    (directory : Entry) :
    rulesAt (directory.withTexts texts) names = rulesAt directory names := by
  rw [rulesAt, rulesAt, Entry.at?_withTexts]
  cases directory.at? names with
  | none => rfl
  | some e => cases e <;> simp [Entry.withTexts, h]

theorem ofDirectory_withTexts (h : SparesIgnoreFiles texts) (directory : Entry) :
    ofDirectory (directory.withTexts texts) = ofDirectory directory := by
  have hplain : texts [".ignore"] = none := h.plain []
  have hgit : texts [".gitignore"] = none := h.git []
  have hexclude : texts [".git", "info", "exclude"] = none := h.exclude []
  rw [ofDirectory, rulesAt_withTexts hplain, rulesAt_withTexts hgit, rulesAt_withTexts hexclude,
    Entry.isSome_at?_withTexts, ofDirectory]

end IgnoreLevel

namespace FileWalk

mutual

/-- The walk comes to the same files. -/
theorem files_withTexts
    {texts : List String → Option String}
    (h : SparesIgnoreFiles texts)
    (levels : List (IgnoreLevel × String))
    (path : List String) :
    ∀ e : Entry, files levels path (e.withTexts texts) = files levels path e
  | .file _ => rfl
  | .directory es => by
      have hlevel := IgnoreLevel.ofDirectory_withTexts h (.directory es)
      rw [Entry.withTexts] at hlevel ⊢
      rw [files, files, hlevel, filesIn_withTextsIn h]

theorem filesIn_withTextsIn
    {texts : List String → Option String}
    (h : SparesIgnoreFiles texts)
    (levels : List (IgnoreLevel × String))
    (path : List String) :
    ∀ es : List (String × Entry),
      filesIn levels path (Entry.withTextsIn texts es) = filesIn levels path es
  | [] => rfl
  | (n, e) :: rest => by
      rw [Entry.withTextsIn, filesIn, filesIn, Entry.isDirectory_withTexts,
        files_withTexts (h.child n), filesIn_withTextsIn h]

end

theorem levelsAbove_withTexts :
    ∀ (names : List String) {texts : List String → Option String} (tree : Entry),
      SparesIgnoreFiles texts →
      levelsAbove (tree.withTexts texts) names = levelsAbove tree names
  | [], _, _, _ => rfl
  | _ :: _, _, .file _, _ => rfl
  | n :: ns, texts, .directory es, h => by
      have hlevel := IgnoreLevel.ofDirectory_withTexts h (.directory es)
      rw [Entry.withTexts] at hlevel ⊢
      rw [levelsAbove, levelsAbove, hlevel, Entry.child?_withTextsIn]
      cases Entry.child? n es with
      | none => rfl
      | some e => simp only [Option.map_some, levelsAbove_withTexts ns e (h.child n)]

end FileWalk

/-- The same files are visible. -/
theorem FileSystem.visibleFiles_withTexts
    (h : SparesIgnoreFiles texts)
    (fs : FileSystem)
    (root : String) :
    (fs.withTexts texts).visibleFiles root = fs.visibleFiles root := by
  rw [visibleFiles, visibleFiles, locate?_withTexts]
  cases fs.locate? root with
  | none => rfl
  | some names =>
      dsimp only
      rw [tree_withTexts, Entry.at?_withTexts, FileWalk.levelsAbove_withTexts names fs.tree h]
      cases fs.tree.at? names with
      | none => rfl
      | some e =>
          cases e with
          | file text => rfl
          | directory es =>
              have hfiles := FileWalk.files_withTexts (h.below names)
                (FileWalk.levelsAbove fs.tree names) [] (.directory es)
              rw [Entry.withTexts] at hfiles
              simp only [Option.map_some, Entry.withTexts, hfiles]

end Visible

end EndpointPayload
