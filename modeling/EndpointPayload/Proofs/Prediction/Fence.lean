import EndpointPayload.Proofs.Prediction.Reply

/-!
# Predictions in a fence

A prediction in a fence of three backticks, with a tag in front of it, is read where the first line
break of all stands in the white space behind the tag, or where there is none at all.  The text up
to the first line break is left out with the tag.  So if this line break stands in the object, or
behind it, the object loses its opening brace, and what is left is no prediction.
-/

namespace EndpointPayload
namespace Reply

open Json Json.Reader

/-- What stands around a text in a fence. -/
structure Fence where
  lead : String
  tag : String
  separator : String
  /-- Between the text and the closing fence. -/
  gap : String
  trail : String
  lead_isBlank : ∀ c ∈ lead.toList, Text.isBlank c = true
  tag_isTag : ∀ c ∈ tag.toList, c ∉ ['\n', '\x7b', '\x7d', '[', ']', '\x60']
  separator_isBlank : ∀ c ∈ separator.toList, Text.isBlank c = true
  gap_isBlank : ∀ c ∈ gap.toList, Text.isBlank c = true
  trail_isBlank : ∀ c ∈ trail.toList, Text.isBlank c = true

namespace Fence

/-- The text between the two rows of backticks. -/
def inner (f : Fence) (text : String) : List Char :=
  f.tag.toList ++ f.separator.toList ++ text.toList ++ f.gap.toList

/-- The text in its fence. -/
def around (f : Fence) (text : String) : String :=
  f.lead ++ "\x60\x60\x60" ++ f.tag ++ f.separator ++ text ++ f.gap ++ "\x60\x60\x60" ++ f.trail

theorem toList_around (f : Fence) (text : String) :
    (f.around text).toList = f.lead.toList ++ fence ++ f.inner text ++ fence ++ f.trail.toList := by
  have hticks : "\x60\x60\x60".toList = fence := by decide +kernel
  simp [around, inner, hticks]

end Fence

section Lines

variable {front back cs : List Char}

theorem behindFirstLine_append
    (h : '\n' ∉ front)
    (back : List Char) :
    behindFirstLine (front ++ '\n' :: back) = back := by
  have hfront : (front.dropWhile fun c => c ≠ '\n') = [] :=
    List.dropWhile_eq_nil_iff.mpr fun c hc => decide_eq_true fun heq => h (heq ▸ hc)
  rw [behindFirstLine, dropWhile_append_cons (by decide), hfront]
  rfl

theorem behindFirstLine_of_not_mem (h : '\n' ∉ cs) : behindFirstLine cs = cs := by
  have hnil : (cs.dropWhile fun c => c ≠ '\n') = [] :=
    List.dropWhile_eq_nil_iff.mpr fun c hc => decide_eq_true fun heq => h (heq ▸ hc)
  rw [behindFirstLine, hnil]

/-- The closing fence is on no first line that is left out. -/
theorem behindFirstLine_append_fence (cs : List Char) :
    behindFirstLine (cs ++ fence) = behindFirstLine cs ++ fence := by
  by_cases h : '\n' ∈ cs
  · obtain ⟨front, back, rfl, hfront⟩ := List.eq_append_cons_of_mem h
    rw [List.append_assoc, List.cons_append, behindFirstLine_append hfront,
      behindFirstLine_append hfront]
  · have hboth : '\n' ∉ cs ++ fence := by
      rw [List.mem_append, not_or]
      exact ⟨h, by decide⟩
    rw [behindFirstLine_of_not_mem h, behindFirstLine_of_not_mem hboth]

theorem beforeFence_append_fence (cs : List Char) : beforeFence (cs ++ fence) = cs := by
  have htrim : Text.trimEnd (cs ++ fence) = cs ++ fence := by
    have hticks : cs ++ fence = cs ++ ['\x60', '\x60'] ++ ['\x60'] := by simp [fence]
    rw [hticks, Text.trimEnd_concat (by decide)]
  have hsuffix : fence.isSuffixOf (cs ++ fence) = true :=
    List.isSuffixOf_iff_suffix.mpr (List.suffix_append cs fence)
  simp [beforeFence, htrim, hsuffix]

/-- Between the backticks the text behind the first line counts, without blanks at its ends. -/
theorem unfencedChars_around
    (f : Fence)
    (text : String) :
    unfencedChars (f.around text).toList =
      Text.trimEnd (Text.trimStart (behindFirstLine (f.inner text))) := by
  have htrim : Text.trimEnd (Text.trimStart (f.around text).toList) =
      fence ++ (f.inner text ++ fence) := by
    have hends : (f.around text).toList = f.lead.toList ++
        ('\x60' :: '\x60' :: '\x60' :: f.inner text ++ ['\x60', '\x60'] ++
          '\x60' :: f.trail.toList) := by
      simp [f.toList_around, fence]
    rw [hends, Text.trimStart_append_of_blank f.lead_isBlank, List.cons_append, List.cons_append,
      Text.trimStart_cons (by decide), ← List.cons_append, ← List.cons_append,
      Text.trimEnd_append_cons (by decide), Text.trimEnd_of_blank f.trail_isBlank]
    simp [fence]
  have hpre : fence.isPrefixOf (fence ++ (f.inner text ++ fence)) = true :=
    List.isPrefixOf_iff_prefix.mpr (List.prefix_append _ _)
  have hdrop : (fence ++ (f.inner text ++ fence)).drop fence.length = f.inner text ++ fence :=
    List.drop_left
  rw [unfencedChars, htrim]
  simp only [hpre, if_true, hdrop]
  rw [behindFirstLine_append_fence, beforeFence_append_fence]

end Lines

section Tails

variable {cs front rest : List Char} {c : Char} {p : Prediction}

theorem braced?_of_not_mem (h : '\x7b' ∉ cs) : braced? cs = none := by
  have hfront : (cs.dropWhile fun c => c ≠ '\x7b') = [] :=
    List.dropWhile_eq_nil_iff.mpr fun c hc => decide_eq_true fun heq => h (heq ▸ hc)
  rw [braced?, hfront]
  rfl

theorem IsObjectText.exists_fields
    (h : IsObjectText cs p) :
    ∃ fields, object? cs = some fields := by
  obtain ⟨rest, rfl⟩ := h.exists_cons
  cases hobject : object? ('\x7b' :: rest) with
  | some fields => exact ⟨fields, rfl⟩
  | none =>
      have harray : array? ('\x7b' :: rest) = none := array?_eq_none_of_head (by decide) (by decide)
      have hread : Prediction.read? ('\x7b' :: rest) = none :=
        Prediction.read?_eq_none_of_record? (by simp only [record?, hobject, harray])
      rw [h.read?_eq] at hread
      cases hread

/-- An object that has lost its opening brace is no prediction, and holds none at its end. -/
theorem IsObjectText.ofBody_tail
    (h : IsObjectText (front ++ c :: rest) p)
    (hfront : front ≠ [])
    (hc : Text.isBlank c = false) :
    ∃ failure, ofBody (c :: rest) = .error failure := by
  obtain ⟨fields, hfields⟩ := h.exists_fields
  obtain ⟨first, front, rfl⟩ := List.exists_cons_of_ne_nil hfront
  obtain rfl : first = '\x7b' := by simpa using h.head?_eq
  have htail : Prediction.read? (c :: rest) = none :=
    Prediction.read?_eq_none_of_record?
      (record?_eq_none_of_object? hfields (isSpace_of_not_isBlank hc))
  have hlast : (c :: rest).getLast? = some '\x7d' := by
    have hend := h.getLast?_eq
    rwa [List.getLast?_append_cons] at hend
  by_cases hbrace : '\x7b' ∈ c :: rest
  · obtain ⟨skipped, block, hsplit, hskipped⟩ := List.eq_append_cons_of_mem hbrace
    have hsome : braced? (c :: rest) = some ('\x7b' :: block) := by
      have hclose : ('\x7b' :: block).getLast? = some '\x7d' := by
        rwa [hsplit, List.getLast?_append_cons] at hlast
      rw [hsplit, ← List.append_nil (skipped ++ _)]
      exact braced?_append rfl hclose hskipped List.not_mem_nil
    have hblock : Prediction.read? ('\x7b' :: block) = none := by
      rw [hsplit, List.cons_append, ← List.append_assoc] at hfields
      exact Prediction.read?_eq_none_of_record?
        (record?_eq_none_of_object? hfields (by decide))
    exact ⟨.json, by simp only [ofBody, htail, hsome, hblock]⟩
  · have hnone := braced?_of_not_mem hbrace
    exact ⟨.completion "no JSON object in response", by simp only [ofBody, htail, hnone]⟩

end Tails

section Around

variable {f : Fence} {text : String} {p : Prediction}

theorem Fence.lineFeed_not_mem_tag (f : Fence) : '\n' ∉ f.tag.toList := fun h =>
  f.tag_isTag _ h (by decide)

/-- A line break behind the tag ends what is left out. -/
theorem IsObjectText.prediction_around_of_separator
    (h : IsObjectText text.toList p)
    (hseparator : '\n' ∈ f.separator.toList) :
    prediction (f.around text) = .ok p := by
  obtain ⟨front, back, hsplit, hfront⟩ := List.eq_append_cons_of_mem hseparator
  have hinner : f.inner text =
      (f.tag.toList ++ front) ++ '\n' :: (back ++ text.toList ++ f.gap.toList) := by
    simp [Fence.inner, hsplit]
  have htag : '\n' ∉ f.tag.toList ++ front := by
    rw [List.mem_append, not_or]
    exact ⟨f.lineFeed_not_mem_tag, hfront⟩
  have hback : ∀ c ∈ back, Text.isBlank c = true := fun c hc =>
    f.separator_isBlank c (by rw [hsplit]; simp [hc])
  rw [Reply.prediction_eq, unfencedChars_around, hinner, behindFirstLine_append htag, h.trim_append,
    Text.trimStart_of_blank hback, Text.trimEnd_of_blank f.gap_isBlank, List.nil_append,
    List.append_nil]
  exact ofBody_of_read? h.read?_eq

/-- Without a line break the tag is a sentence in front of the object. -/
theorem IsObjectText.prediction_around_of_line
    (h : IsObjectText text.toList p)
    (hseparator : '\n' ∉ f.separator.toList)
    (htext : '\n' ∉ text.toList)
    (hgap : '\n' ∉ f.gap.toList) :
    prediction (f.around text) = .ok p := by
  have hinner : '\n' ∉ f.inner text := by
    simp only [Fence.inner, List.mem_append, not_or]
    exact ⟨⟨⟨f.lineFeed_not_mem_tag, hseparator⟩, htext⟩, hgap⟩
  have hstart := Text.trimStart_suffix (f.tag.toList ++ f.separator.toList)
  have hmark : ∀ c ∈ ['\x7b', '['], c ∉ Text.trimStart (f.tag.toList ++ f.separator.toList) := by
    intro c hc hmem
    rcases List.mem_append.mp (hstart.subset hmem) with htag | hblank
    · exact f.tag_isTag c htag (List.Sublist.subset (by decide) hc)
    · refine absurd (f.separator_isBlank c hblank) ?_
      simp at hc
      rcases hc with rfl | rfl <;> decide
  rw [Reply.prediction_eq, unfencedChars_around, behindFirstLine_of_not_mem hinner, Fence.inner,
    h.trim_append, Text.trimEnd_of_blank f.gap_isBlank]
  refine h.ofBody_append (hmark _ (by decide)) (hmark _ (by decide)) List.not_mem_nil ?_ (by simp)
  intro c hc
  obtain ⟨rest, hrest⟩ := List.head?_eq_some_iff.mp hc
  exact Text.not_isBlank_of_trimStart hrest

theorem exists_concat_of_append
    {line back : List Char}
    (h : (line ++ '\n' :: back).getLast? = some '\x7d') :
    ∃ front, back = front ++ ['\x7d'] := by
  rw [List.getLast?_append_cons] at h
  rcases List.eq_nil_or_concat back with rfl | ⟨front, last, rfl⟩
  · exact absurd h (by decide)
  · rw [List.concat_eq_append] at h ⊢
    rw [← List.cons_append, List.getLast?_concat, Option.some.injEq] at h
    exact ⟨front, by rw [h]⟩

/-- With the first line break inside it, the object loses its start. -/
theorem IsObjectText.prediction_around_of_text
    (h : IsObjectText text.toList p)
    (hseparator : '\n' ∉ f.separator.toList)
    (htext : '\n' ∈ text.toList) :
    ∃ failure, prediction (f.around text) = .error failure := by
  obtain ⟨line, back, hsplit, hline⟩ := List.eq_append_cons_of_mem htext
  have hinner : f.inner text =
      (f.tag.toList ++ f.separator.toList ++ line) ++ '\n' :: (back ++ f.gap.toList) := by
    simp [Fence.inner, hsplit]
  have hfirst : '\n' ∉ f.tag.toList ++ f.separator.toList ++ line := by
    simp only [List.mem_append, not_or]
    exact ⟨⟨f.lineFeed_not_mem_tag, hseparator⟩, hline⟩
  obtain ⟨front, rfl⟩ := exists_concat_of_append (hsplit ▸ h.getLast?_eq)
  obtain ⟨skipped, hskipped⟩ := Text.trimStart_suffix front
  have hbody : Text.trimEnd (Text.trimStart (front ++ ['\x7d'] ++ f.gap.toList)) =
      Text.trimStart front ++ ['\x7d'] := by
    rw [List.append_assoc, List.singleton_append, Text.trimStart_append_cons (by decide),
      Text.trimEnd_append_cons (by decide), Text.trimEnd_of_blank f.gap_isBlank]
  rw [hsplit, ← hskipped] at h
  rw [Reply.prediction_eq, unfencedChars_around, hinner, behindFirstLine_append hfirst, hbody]
  -- behind the line break stands at least the closing brace
  cases hstart : Text.trimStart front with
  | nil =>
      have htail : IsObjectText ((line ++ '\n' :: skipped) ++ ['\x7d']) p := by
        simpa [hstart] using h
      exact htail.ofBody_tail (by simp) (by decide)
  | cons c rest =>
      have htail : IsObjectText ((line ++ '\n' :: skipped) ++ c :: (rest ++ ['\x7d'])) p := by
        simpa [hstart] using h
      exact htail.ofBody_tail (by simp) (Text.not_isBlank_of_trimStart hstart)

/-- With the first line break behind it, the object is left out. -/
theorem prediction_around_of_gap
    (hseparator : '\n' ∉ f.separator.toList)
    (htext : '\n' ∉ text.toList)
    (hgap : '\n' ∈ f.gap.toList) :
    ∃ failure, prediction (f.around text) = .error failure := by
  obtain ⟨front, back, hsplit, hfront⟩ := List.eq_append_cons_of_mem hgap
  have hinner : f.inner text =
      (f.tag.toList ++ f.separator.toList ++ text.toList ++ front) ++ '\n' :: back := by
    simp [Fence.inner, hsplit]
  have hline : '\n' ∉ f.tag.toList ++ f.separator.toList ++ text.toList ++ front := by
    simp only [List.mem_append, not_or]
    exact ⟨⟨⟨f.lineFeed_not_mem_tag, hseparator⟩, htext⟩, hfront⟩
  have hback : ∀ c ∈ back, Text.isBlank c = true := fun c hc =>
    f.gap_isBlank c (by rw [hsplit]; simp [hc])
  rw [Reply.prediction_eq, unfencedChars_around, hinner, behindFirstLine_append hline,
    Text.trimStart_of_blank hback]
  exact ⟨.completion "no JSON object in response", rfl⟩

/-- A fence leaves a prediction as it is in exactly two cases: a line break stands between its tag
and the object, or there is none from the tag to the closing fence.  Else there is no prediction. -/
theorem prediction_around_iff
    (f : Fence)
    (h : IsObjectText text.toList p) :
    prediction text = .ok p ∧
      (prediction (f.around text) = prediction text ↔
        '\n' ∈ f.separator.toList ∨ '\n' ∉ text.toList ∧ '\n' ∉ f.gap.toList) ∧
      (prediction (f.around text) = prediction text ∨
        ∃ failure, prediction (f.around text) = .error failure) := by
  rw [h.prediction_eq]
  by_cases hseparator : '\n' ∈ f.separator.toList
  · simp [h.prediction_around_of_separator hseparator, hseparator]
  by_cases htext : '\n' ∈ text.toList
  · obtain ⟨failure, hfailure⟩ := h.prediction_around_of_text hseparator htext
    simp [hfailure, hseparator, htext]
  by_cases hgap : '\n' ∈ f.gap.toList
  · obtain ⟨failure, hfailure⟩ := prediction_around_of_gap hseparator htext hgap
    simp [hfailure, hseparator, hgap]
  · simp [h.prediction_around_of_line hseparator htext hgap, htext, hgap]

end Around

namespace Fence

/-- A fence with the tag of JSON that is closed on a line of its own. -/
def tagged
    (separator : String)
    (h : ∀ c ∈ separator.toList, Text.isBlank c = true) :
    Fence where
  lead := ""
  tag := "json"
  separator := separator
  gap := "\n"
  trail := ""
  lead_isBlank := by simp
  tag_isTag := by simp
  separator_isBlank := h
  gap_isBlank := List.all_eq_true.mp (by decide +kernel)
  trail_isBlank := by simp

/-- With the tag on a line of its own. -/
def onLines : Fence := tagged "\n" (List.all_eq_true.mp (by decide +kernel))

/-- With the tag on the line of the text. -/
def onTagLine : Fence := tagged " " (List.all_eq_true.mp (by decide +kernel))

end Fence

/-- A field in both fences. -/
theorem prediction_around_quantity :
    ∃ p, IsObjectText Quantity.text.toList p ∧
      prediction Quantity.text = .ok p ∧
      prediction (Fence.onLines.around Quantity.text) = prediction Quantity.text ∧
      ∃ failure, prediction (Fence.onTagLine.around Quantity.text) = .error failure := by
  obtain ⟨p, hp, -⟩ := Quantity.exists_isObjectText
  obtain ⟨hok, hlines, -⟩ := prediction_around_iff Fence.onLines hp
  obtain ⟨-, hline, hfailure⟩ := prediction_around_iff Fence.onTagLine hp
  refine ⟨p, hp, hok, hlines.mpr (Or.inl (by decide +kernel)), hfailure.resolve_left ?_⟩
  rw [hline]
  decide +kernel

/-- With the object on the line of the tag nothing is found. -/
theorem not_forall_prediction_around :
    ¬ ∀ (f : Fence) (text : String) (p : Prediction), IsObjectText text.toList p →
      prediction (f.around text) = prediction text := by
  intro hall
  obtain ⟨p, hp, -⟩ := Quantity.exists_isObjectText
  have hseparator : '\n' ∉ Fence.onTagLine.separator.toList := by decide +kernel
  have htext : '\n' ∉ Quantity.text.toList := by decide +kernel
  have hgap : '\n' ∈ Fence.onTagLine.gap.toList := by decide +kernel
  obtain ⟨failure, hfailure⟩ := prediction_around_of_gap hseparator htext hgap
  have heq := hall Fence.onTagLine Quantity.text p hp
  rw [hfailure, hp.prediction_eq] at heq
  cases heq

end Reply
end EndpointPayload
