import EndpointPayload.Proofs.Handler.Target
import EndpointPayload.Proofs.Text.Lines

/-!
# The code of a handler as a part of its file

The code of a context is the part of the file that stands on the reported lines, less each carriage
return before a line feed inside that part.  So it stands in the file as it is exactly if none of
the line ends inside the part is a carriage return with a line feed; the line ends before and after
the part do not matter.
-/

namespace EndpointPayload

open Source Text

namespace HandlerContext

variable {files : FileSystem} {route : Route} {context : HandlerContext}

theorem exists_ofSpan_of_inFile?
    {path name : String}
    (h : inFile? files route path name = some context) :
    ∃ script span, Script.read? files path = some script ∧
      context = ofSpan route script name span := by
  unfold inFile? at h
  split at h
  · cases h
  · rename_i script hscript
    obtain ⟨span, -, rfl⟩ := Option.map_eq_some_iff.mp h
    exact ⟨script, span, hscript, rfl⟩

/-- A context is made of a script and the lines of a function. -/
theorem exists_ofSpan_of_ofRoute? (h : ofRoute? files route = some context) :
    ∃ script name span, Script.read? files context.filePath = some script ∧
      context = ofSpan route script name span := by
  have hmade : ∃ path script name span, Script.read? files path = some script ∧
      context = ofSpan route script name span := by
    unfold ofRoute? at h
    split at h
    · rename_i span hspan
      obtain ⟨script, hscript, rfl⟩ := Option.map_eq_some_iff.mp h
      exact ⟨_, script, _, span, hscript, rfl⟩
    · split at h
      · rename_i hfound
        cases h
        obtain ⟨name, -, hin⟩ := Option.bind_eq_some_iff.mp hfound
        obtain ⟨script, span, hscript, hcontext⟩ := exists_ofSpan_of_inFile? hin
        exact ⟨_, script, name, span, hscript, hcontext⟩
      · unfold imported? at h
        split at h
        · rename_i path name _ _
          obtain ⟨script, span, hscript, hcontext⟩ := exists_ofSpan_of_inFile? h
          exact ⟨path, script, name, span, hscript, hcontext⟩
        · cases h
  obtain ⟨path, script, name, span, hscript, rfl⟩ := hmade
  refine ⟨script, name, span, ?_, rfl⟩
  rw [ofSpan, Script.path_of_read? hscript]
  exact hscript

/-- For every context with lines inside its file, one part of the text stands on these lines, and
the code is that part without the carriage returns before line feeds: the part as it stands exactly
if it has none of these. -/
theorem code_of_ofRoute? (h : ofRoute? files route = some context) :
    ∃ script, Script.read? files context.filePath = some script ∧
      (1 ≤ context.span.first → context.span.first ≤ context.span.last →
        context.span.last ≤ lineCount script.text.toList →
        ∃ part,
          (∀ other, IsLineSpan script.text.toList context.span.first context.span.last other ↔
            other = part) ∧
          context.code.toList = withoutReturns part ∧
          (context.code.toList = part ↔ ¬ ['\r', '\n'] <:+: part)) := by
  obtain ⟨script, name, span, hscript, rfl⟩ := exists_ofSpan_of_ofRoute? h
  refine ⟨script, hscript, fun hfirst hle hlast => ?_⟩
  obtain ⟨part, hpart, hcode⟩ := exists_isLineSpan hfirst hle hlast
  have hunique : ∀ other, IsLineSpan script.text.toList span.first span.last other ↔
      other = part := fun other => ⟨fun hother => hother.eq hpart, fun hother => hother ▸ hpart⟩
  refine ⟨part, hunique, hcode, ?_⟩
  rw [← withoutReturns_eq_self_iff, ← hcode]
  rfl

namespace TwoLines

/-- A function on two lines, with the end of the first line. -/
def part (terminator : String) : String := "function a() \x7b" ++ terminator ++ "\x7d"

/-- A file with the function on its second and third line. -/
def text (terminator : String) : String := "r.get('/x', a);\r\n" ++ part terminator ++ "\r\n"

def project (terminator : String) : FileSystem :=
  ⟨.directory [("routes.js", .file (some (text terminator)))], []⟩

def getA : Route where
  verb := .get
  path := "/x"
  filePath := "/routes.js"
  line := 1
  middlewares := []
  handler := "a"
  routerPrefix := none
  controllerFile := none
  controllerFunction := none
  inlineSpan := none

/-- The two lines of the function are reported, and joined by a line feed. -/
def isShown (context : HandlerContext) : Bool :=
  context.filePath = "/routes.js" && context.span = ⟨2, 3⟩ &&
    context.code = part "\n"

theorem any_isShown : ∀ terminator ∈ ["\n", "\r\n"],
    (ofRoute? (project terminator) getA).any isShown = true := by
  decide +kernel

theorem readText?_project : ∀ terminator ∈ ["\n", "\r\n"],
    (project terminator).readText? "/routes.js" = some (text terminator) := by
  decide +kernel

/-- The context of the function, in the file with the text. -/
theorem exists_context
    (terminator : String)
    (h : terminator ∈ ["\n", "\r\n"]) :
    ∃ context, ofRoute? (project terminator) getA = some context ∧
      context.span = ⟨2, 3⟩ ∧ context.code = part "\n" ∧
      ∀ script, Script.read? (project terminator) context.filePath = some script →
        script.text = text terminator := by
  obtain ⟨context, hcontext, hshown⟩ := (Option.any_eq_true _ _).mp (any_isShown terminator h)
  simp only [isShown, Bool.and_eq_true, decide_eq_true_eq] at hshown
  refine ⟨context, hcontext, hshown.1.2, hshown.2, fun script hscript => ?_⟩
  rw [hshown.1.1] at hscript
  obtain ⟨dialect, found, tree, -, htext, -, rfl⟩ := Script.read?_eq_some_iff.mp hscript
  exact Option.some.inj (htext.symm.trans (readText?_project terminator h))

theorem count_part : ∀ terminator ∈ ["\n", "\r\n"], (part terminator).toList.count '\n' = 1 := by
  decide

/-- The function stands on the second and third line. -/
theorem isLineSpan_part
    (terminator : String)
    (h : terminator ∈ ["\n", "\r\n"]) :
    IsLineSpan (text terminator).toList 2 3 (part terminator).toList := by
  have hstart : StartsLine "r.get('/x', a);\r\n".toList := by decide
  have hfirst : "r.get('/x', a);\r\n".toList.count '\n' + 1 = 2 := by decide
  have hend : "\r\n".toList = ['\r', '\n'] := by decide
  have hends : EndsLine (part terminator).toList "\r\n".toList := by
    rw [hend]
    exact .returnFeed
  have hcount := count_part terminator h
  have hlast : (part terminator).toList.count '\n' + 2 = 3 := by omega
  have htext : (text terminator).toList =
      "r.get('/x', a);\r\n".toList ++ (part terminator).toList ++ "\r\n".toList := by
    unfold text
    rw [String.toList_append, String.toList_append]
  exact ⟨_, _, htext, hstart, hfirst, hlast, hends⟩

theorem le_lineCount_text : ∀ terminator ∈ ["\n", "\r\n"],
    3 ≤ lineCount (text terminator).toList := by
  decide

end TwoLines

/-- The code of the function stands in its file where a line feed alone ends its first line. -/
theorem code_of_two_lines :
    ∃ context, ofRoute? (TwoLines.project "\n") TwoLines.getA = some context ∧
      context.span = ⟨2, 3⟩ ∧
      (1 ≤ context.span.first ∧ context.span.first ≤ context.span.last ∧
        context.span.last ≤ lineCount (TwoLines.text "\n").toList) ∧
      IsLineSpan (TwoLines.text "\n").toList 2 3 context.code.toList := by
  obtain ⟨context, hcontext, hspan, -, htext⟩ := TwoLines.exists_context "\n" (by decide)
  obtain ⟨script, hscript, hpart⟩ := code_of_ofRoute? hcontext
  rw [htext script hscript, hspan] at hpart
  have hlast := TwoLines.le_lineCount_text "\n" (by decide)
  obtain ⟨part, hunique, -, hverbatim⟩ := hpart (by decide) (by decide) hlast
  have hwhole := (hunique _).mp (TwoLines.isLineSpan_part "\n" (by decide))
  have hreturn : ¬ ['\r', '\n'] <:+: part := by
    rw [← hwhole]
    decide +kernel
  refine ⟨context, hcontext, hspan, ?_, (hunique _).mpr (hverbatim.mpr hreturn)⟩
  rw [hspan]
  exact ⟨by decide, by decide, hlast⟩

/-- The code of a handler is not always a part of its file. -/
theorem not_forall_isLineSpan_code :
    ¬ ∀ (files : FileSystem) (route : Route) (context : HandlerContext) (script : Script),
      ofRoute? files route = some context →
      Script.read? files context.filePath = some script →
      1 ≤ context.span.first →
      context.span.first ≤ context.span.last →
      context.span.last ≤ lineCount script.text.toList →
      IsLineSpan script.text.toList context.span.first context.span.last context.code.toList := by
  intro hall
  obtain ⟨context, hcontext, hspan, hcode, htext⟩ := TwoLines.exists_context "\r\n" (by decide)
  obtain ⟨script, name, span, hscript, -⟩ := exists_ofSpan_of_ofRoute? hcontext
  have hpart := hall _ _ context script hcontext hscript
  rw [htext script hscript, hspan, hcode] at hpart
  have hsame := (hpart (by decide) (by decide) (TwoLines.le_lineCount_text "\r\n" (by decide))).eq
    (TwoLines.isLineSpan_part "\r\n" (by decide))
  exact absurd hsame (by decide +kernel)

end HandlerContext
end EndpointPayload
