import EndpointPayload.Prediction.Reply
import EndpointPayload.Proofs.Json.Braces
import EndpointPayload.Proofs.Text.Trim

/-!
# Predictions between sentences

A prediction that is written as an object can stand between sentences.  As a whole such a reply is
no record: it starts neither with a brace nor with a bracket, or it ends with something else than
the brace.  What is tried next, from the first opening to the last closing brace, is the object, if
the sentences in front have no opening brace and those behind have no closing one.
-/

namespace EndpointPayload

open Json Json.Reader

section Blanks

variable {c : Char}

/-- White space between the tokens of JSON is white space. -/
theorem isSpace_of_not_isBlank (h : Text.isBlank c = false) : isSpace c = false := by
  cases hspace : isSpace c with
  | false => rfl
  | true =>
      simp only [isSpace, Bool.or_eq_true, decide_eq_true_eq] at hspace
      rcases hspace with ((rfl | rfl) | rfl) | rfl <;> exact absurd h (by decide)

end Blanks

namespace Prediction

variable {c : Char} {front rest : List Char}

theorem read?_eq_none_of_record? {text : List Char} (h : record? keys text = none) :
    read? text = none := by
  rw [read?, h]

/-- A text that starts with neither a brace nor a bracket denotes no prediction. -/
theorem read?_eq_none_of_head
    (hspace : isSpace c = false)
    (hbrace : c ≠ '\x7b')
    (hbracket : c ≠ '[') :
    read? (c :: rest) = none := by
  apply read?_eq_none_of_record?
  rw [record?, object?_eq_none_of_head hspace hbrace, array?_eq_none_of_head hspace hbracket]

/-- A text that starts with a brace and ends with something else than the closing one denotes no
prediction. -/
theorem read?_eq_none_of_last
    (hspace : isSpace c = false)
    (hbrace : c ≠ '\x7d') :
    read? ('\x7b' :: (front ++ [c])) = none := by
  apply read?_eq_none_of_record?
  have hobject : object? ('\x7b' :: (front ++ [c])) = none := by
    by_contra h
    obtain ⟨fields, hfields⟩ := Option.ne_none_iff_exists'.mp h
    obtain ⟨body, blanks, hrest, hblanks, -⟩ := exists_body_of_object? hfields
    have hlast : c ∈ '\x7d' :: blanks := by
      have hends := congrArg List.getLast? hrest
      rw [List.getLast?_concat, List.getLast?_append_cons] at hends
      exact List.mem_of_getLast? hends.symm
    rcases List.mem_cons.mp hlast with rfl | hmem
    · exact hbrace rfl
    · have hblank := List.dropWhile_eq_nil_iff.mp (List.isEmpty_iff.mp hblanks) c hmem
      rw [hspace] at hblank
      cases hblank
  rw [record?, hobject, array?_eq_none_of_head (by decide) (by decide)]

end Prediction

namespace Reply

/-- What is made of a text without a fence around it. -/
def ofBody (body : List Char) : Except Failure Prediction :=
  match Prediction.read? body with
  | some p => .ok p
  | none =>
    match braced? body with
    | none => .error (.completion "no JSON object in response")
    | some block =>
      match Prediction.read? block with
      | some p => .ok p
      | none => .error .json

theorem prediction_eq (reply : String) :
    prediction reply = ofBody (unfencedChars reply.toList) := by
  cases hread : Prediction.read? (unfencedChars reply.toList) with
  | some p => simp only [prediction, ofBody, hread]
  | none =>
      cases hbraced : braced? (unfencedChars reply.toList) with
      | none => simp only [prediction, ofBody, hread, hbraced]
      | some block =>
          cases hblock : Prediction.read? block <;>
            simp only [prediction, ofBody, hread, hbraced, hblock]

/-- The first opening brace and the last closing one are those of a text between others. -/
theorem braced?_append
    {before text after : List Char}
    (hopen : text.head? = some '\x7b')
    (hclose : text.getLast? = some '\x7d')
    (hbefore : '\x7b' ∉ before)
    (hafter : '\x7d' ∉ after) :
    braced? (before ++ text ++ after) = some text := by
  have hfront : (before ++ text ++ after).dropWhile (fun c => c ≠ '\x7b') = text ++ after := by
    obtain ⟨rest, rfl⟩ := List.head?_eq_some_iff.mp hopen
    rw [List.append_assoc, List.cons_append, dropWhile_append_cons (by decide),
      List.dropWhile_eq_nil_iff.mpr (fun c hc => ?_), List.nil_append]
    exact decide_eq_true fun heq => hbefore (heq ▸ hc)
  have hback : (text ++ after).rdropWhile (fun c => c ≠ '\x7d') = text := by
    obtain ⟨front, rfl⟩ := List.getLast?_eq_some_iff.mp hclose
    rw [List.append_assoc, List.singleton_append, rdropWhile_append_cons (by decide),
      List.rdropWhile_eq_nil_iff.mpr (fun c hc => ?_)]
    exact decide_eq_true fun heq => hafter (heq ▸ hc)
  have hsome : text.isEmpty = false := by
    obtain ⟨rest, rfl⟩ := List.head?_eq_some_iff.mp hopen
    rfl
  rw [braced?, hfront]
  change (if ((text ++ after).rdropWhile fun c => c ≠ '\x7d').isEmpty then none
    else some ((text ++ after).rdropWhile fun c => c ≠ '\x7d')) = some text
  rw [hback, hsome]
  rfl

/-- A text from an opening to a closing brace that denotes a prediction. -/
structure IsObjectText (text : List Char) (p : Prediction) : Prop where
  head?_eq : text.head? = some '\x7b'
  getLast?_eq : text.getLast? = some '\x7d'
  read?_eq : Prediction.read? text = some p

theorem ofBody_of_read?
    {body : List Char}
    {p : Prediction}
    (h : Prediction.read? body = some p) :
    ofBody body = .ok p := by
  rw [ofBody, h]

theorem ofBody_of_braced?
    {body block : List Char}
    {p : Prediction}
    (hbody : Prediction.read? body = none)
    (hblock : braced? body = some block)
    (h : Prediction.read? block = some p) :
    ofBody body = .ok p := by
  simp only [ofBody, hbody, hblock, h]

section Between

variable {before text after : List Char} {p : Prediction}

theorem IsObjectText.exists_cons
    (h : IsObjectText text p) :
    ∃ rest, text = '\x7b' :: rest :=
  List.head?_eq_some_iff.mp h.head?_eq

theorem IsObjectText.exists_concat
    (h : IsObjectText text p) :
    ∃ front, text = front ++ ['\x7d'] :=
  List.getLast?_eq_some_iff.mp h.getLast?_eq

theorem IsObjectText.trimStart_append
    (h : IsObjectText text p)
    (before after : List Char) :
    Text.trimStart (before ++ text ++ after) = Text.trimStart before ++ text ++ after := by
  obtain ⟨rest, rfl⟩ := h.exists_cons
  rw [List.append_assoc, List.cons_append, Text.trimStart_append_cons (by decide),
    ← List.cons_append, ← List.append_assoc]

theorem IsObjectText.trimEnd_append
    (h : IsObjectText text p)
    (before after : List Char) :
    Text.trimEnd (before ++ text ++ after) = before ++ text ++ Text.trimEnd after := by
  obtain ⟨front, rfl⟩ := h.exists_concat
  have hassoc : ∀ cs, before ++ (front ++ ['\x7d']) ++ cs = (before ++ front) ++ '\x7d' :: cs := by
    simp
  rw [hassoc, hassoc, Text.trimEnd_append_cons (by decide)]

/-- Only what stands around the object is trimmed. -/
theorem IsObjectText.trim_append
    (h : IsObjectText text p)
    (before after : List Char) :
    Text.trimEnd (Text.trimStart (before ++ text ++ after)) =
      Text.trimStart before ++ text ++ Text.trimEnd after := by
  rw [h.trimStart_append, h.trimEnd_append]

/-- An object between trimmed sentences is found. -/
theorem IsObjectText.ofBody_append
    (h : IsObjectText text p)
    (hbrace : '\x7b' ∉ before)
    (hbracket : '[' ∉ before)
    (hafter : '\x7d' ∉ after)
    (hstart : ∀ c ∈ before.head?, Text.isBlank c = false)
    (hend : ∀ c ∈ after.getLast?, Text.isBlank c = false) :
    ofBody (before ++ text ++ after) = .ok p := by
  have hblock := braced?_append h.head?_eq h.getLast?_eq hbrace hafter
  cases before with
  | cons c rest =>
      rw [List.mem_cons, not_or] at hbrace hbracket
      refine ofBody_of_braced? ?_ hblock h.read?_eq
      exact Prediction.read?_eq_none_of_head (isSpace_of_not_isBlank (hstart c rfl))
        (Ne.symm hbrace.1) (Ne.symm hbracket.1)
  | nil =>
      rcases List.eq_nil_or_concat after with rfl | ⟨front, c, rfl⟩
      · rw [List.nil_append, List.append_nil]
        exact ofBody_of_read? h.read?_eq
      · refine ofBody_of_braced? ?_ hblock h.read?_eq
        obtain ⟨rest, rfl⟩ := h.exists_cons
        rw [List.concat_eq_append] at hafter hend ⊢
        rw [List.nil_append, List.cons_append, ← List.append_assoc]
        rw [List.mem_append, List.mem_singleton, not_or] at hafter
        exact Prediction.read?_eq_none_of_last
          (isSpace_of_not_isBlank (hend c List.getLast?_concat)) (Ne.symm hafter.2)

end Between

/-- A fence in front of a brace ends before it. -/
theorem fence_prefix_of_append
    {before rest : List Char}
    (h : fence <+: before ++ '\x7b' :: rest) :
    fence <+: before := by
  match before, h with
  | [], h => exact absurd h (by simp [fence])
  | [_], h => exact absurd h (by simp [fence])
  | [_, _], h => exact absurd h (by simp [fence])
  | _ :: _ :: _ :: _, h => simpa [fence] using h

/-- Trimming the end of a text leaves a fence at its start. -/
theorem fence_prefix_trimEnd
    {cs : List Char}
    (h : fence <+: cs) :
    fence <+: Text.trimEnd cs := by
  obtain ⟨rest, rfl⟩ := h
  have hticks : fence ++ rest = ['\x60', '\x60'] ++ '\x60' :: rest := rfl
  rw [hticks, Text.trimEnd_append_cons (by decide)]
  exact ⟨Text.trimEnd rest, rfl⟩

theorem unfencedChars_of_not_fence
    {cs : List Char}
    (h : ¬ fence <+: Text.trimEnd (Text.trimStart cs)) :
    unfencedChars cs = Text.trimEnd (Text.trimStart cs) := by
  rw [unfencedChars, if_neg]
  rwa [List.isPrefixOf_iff_prefix]

section Sentences

variable {before text after : String} {p : Prediction}

/-- The object between two texts is found. -/
theorem IsObjectText.prediction_append
    (h : IsObjectText text.toList p)
    (hbrace : '\x7b' ∉ before.toList)
    (hbracket : '[' ∉ before.toList)
    (hfence : ¬ fence <+: Text.trimEnd (Text.trimStart before.toList))
    (hafter : '\x7d' ∉ after.toList) :
    prediction (before ++ text ++ after) = .ok p := by
  have htrim : Text.trimEnd (Text.trimStart (before ++ text ++ after).toList) =
      Text.trimStart before.toList ++ text.toList ++ Text.trimEnd after.toList := by
    rw [String.toList_append, String.toList_append, h.trim_append]
  have hbare : ¬ fence <+: Text.trimEnd (Text.trimStart (before ++ text ++ after).toList) := by
    intro hpre
    obtain ⟨rest, hrest⟩ := h.exists_cons
    rw [htrim, hrest, List.append_assoc, List.cons_append] at hpre
    exact hfence (fence_prefix_trimEnd (fence_prefix_of_append hpre))
  have hstart := Text.trimStart_suffix before.toList
  have hend := Text.trimEnd_prefix after.toList
  rw [Reply.prediction_eq, unfencedChars_of_not_fence hbare, htrim]
  refine h.ofBody_append (fun hmem => hbrace (hstart.subset hmem))
    (fun hmem => hbracket (hstart.subset hmem)) (fun hmem => hafter (hend.subset hmem)) ?_ ?_
  · intro c hc
    obtain ⟨rest, hrest⟩ := List.head?_eq_some_iff.mp hc
    exact Text.not_isBlank_of_trimStart hrest
  · intro c hc
    obtain ⟨front, hfront⟩ := List.getLast?_eq_some_iff.mp hc
    exact Text.not_isBlank_of_trimEnd hfront

theorem IsObjectText.prediction_eq (h : IsObjectText text.toList p) : prediction text = .ok p := by
  have hbare : ¬ fence <+: Text.trimEnd (Text.trimStart "".toList) := by decide
  have happend : prediction ("" ++ text ++ "") = .ok p :=
    h.prediction_append (by simp) (by simp) hbare (by simp)
  rwa [String.empty_append, String.append_empty] at happend

/-- Sentences around a prediction do not change it: such in front without opening braces and
brackets that do not start with a fence, and such behind without closing braces. -/
theorem prediction_between
    (h : IsObjectText text.toList p)
    (hbrace : '\x7b' ∉ before.toList)
    (hbracket : '[' ∉ before.toList)
    (hfence : ¬ fence <+: Text.trimEnd (Text.trimStart before.toList))
    (hafter : '\x7d' ∉ after.toList) :
    prediction (before ++ text ++ after) = prediction text ∧ prediction text = .ok p := by
  rw [h.prediction_append hbrace hbracket hfence hafter, h.prediction_eq]
  exact ⟨rfl, rfl⟩

end Sentences

namespace Quantity

/-- The text of a prediction of one field. -/
def text : String := "\x7b\"fields\":[\x7b\"name\":\"qty\"\x7d]\x7d"

theorem exists_isObjectText :
    ∃ p, IsObjectText text.toList p ∧ p.fields.map PredictedField.name = ["qty"] := by
  have hnames : (Prediction.read? text.toList).map (fun p => p.fields.map PredictedField.name) =
      some ["qty"] := by
    decide +kernel
  obtain ⟨p, hp, hname⟩ := Option.map_eq_some_iff.mp hnames
  exact ⟨p, ⟨by decide +kernel, by decide +kernel, hp⟩, hname⟩

def greeting : String := "Sure! Here it is:\n"

/-- A last sentence with an opening brace. -/
def farewell : String := "\nLet me know :-\x7b"

end Quantity

/-- A field between two sentences. -/
theorem prediction_between_greetings :
    ∃ p, IsObjectText Quantity.text.toList p ∧ p.fields.map PredictedField.name = ["qty"] ∧
      ('\x7b' ∉ Quantity.greeting.toList ∧ '[' ∉ Quantity.greeting.toList ∧
        ¬ fence <+: Text.trimEnd (Text.trimStart Quantity.greeting.toList) ∧
        '\x7d' ∉ Quantity.farewell.toList) ∧
      prediction (Quantity.greeting ++ Quantity.text ++ Quantity.farewell) =
        prediction Quantity.text ∧
      prediction Quantity.text = .ok p := by
  obtain ⟨p, hp, hname⟩ := Quantity.exists_isObjectText
  have hbrace : '\x7b' ∉ Quantity.greeting.toList := by decide +kernel
  have hbracket : '[' ∉ Quantity.greeting.toList := by decide +kernel
  have hfence : ¬ fence <+: Text.trimEnd (Text.trimStart Quantity.greeting.toList) := by
    decide +kernel
  have hafter : '\x7d' ∉ Quantity.farewell.toList := by decide +kernel
  exact ⟨p, hp, hname, ⟨hbrace, hbracket, hfence, hafter⟩,
    prediction_between hp hbrace hbracket hfence hafter⟩

end Reply
end EndpointPayload
