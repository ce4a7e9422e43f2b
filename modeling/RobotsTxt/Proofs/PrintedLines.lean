import RobotsTxt.Proofs.FieldLines

/-! Directives that are printed and read again.  The printed form is a name, a colon, a space and a
value.  Where the directive keeps the texts of its line, the name is the one of the line, or the plain
one of the field, and the value is one that a line can have; so the printed form has the same field
and the same value, from whichever kind of line the directive came. -/

namespace RobotsTxt.Directive

open Text (Trimmed)
open RobotsTxt.Field (IsSpelled)

variable {field : Field} {name value : List Char}

/-- A directive that is printed as it was read: a crawl delay is printed as a number, and an unknown
line may be of no known field only because it lacks its colon. -/
def KeepsText : Directive → Prop
  | crawlDelay _ | unknown _ _ => False
  | _ => True

instance : DecidablePred KeepsText
  | crawlDelay _ | unknown _ _ => isFalse id
  | userAgent _ | rule _ _ | sitemap _ | extension _ _ | invalid _ _ => isTrue trivial

theorem not_keepsText_ofUnknown (line : List Char) : ¬(ofUnknown line).KeepsText := by
  obtain ⟨field, value, hUnknown⟩ := exists_ofUnknown_eq line
  rw [hUnknown]
  exact id

/-- What is printed as a name and a value that make the directive is read as the directive. -/
theorem HasField.ofLine_text {d : Directive} (h : HasField field name value)
    (hText : d.text.toList = name ++ ':' :: ' ' :: value)
    (hField : ∀ line, ofField field name value line = d) :
    ofLine (Text.trim d.text.toList) = d := by
  obtain ⟨line, hLine⟩ := h.ofLine_trim
  rw [hText, hLine, hField]

theorem HasField.trim (h : HasField field name value) : HasField field (Text.trim name) value where
  ofName? := by rw [Field.ofName?_congr (Field.canonical_trim name), h.ofName?]
  colonless := fun hMem => h.colonless (Text.mem_of_mem_trim hMem)
  start := (Text.trimmed_trim name).1
  value := h.value

theorem HasField.ofLine_text_invalid (h : HasField field name value)
    (hField : ∀ line, ofField field name value line =
      invalid (String.ofList name) (String.ofList value)) :
    ofLine (Text.trim (invalid (String.ofList name) (String.ofList value)).text.toList) =
      invalid (String.ofList name) (String.ofList value) :=
  h.ofLine_text (by simp [text]) hField

theorem ofLine_text_userAgent (h : IsValue value) :
    ofLine (Text.trim (userAgent (String.ofList value)).text.toList) =
      userAgent (String.ofList value) := by
  have hName : IsSpelled "User-agent".toList .userAgent := by decide +kernel
  exact (HasField.of_isSpelled hName h).ofLine_text (by simp [text]) fun _ => rfl

theorem ofLine_text_rule {verdict : Verdict} (h : IsValue value)
    (hReadable : ¬value.contains Text.Utf8.replacement = true) :
    ofLine (Text.trim (rule verdict (String.ofList value)).text.toList) =
      rule verdict (String.ofList value) := by
  have hName : IsSpelled verdict.label.toList (.rule verdict) := by
    cases verdict <;> decide +kernel
  refine (HasField.of_isSpelled hName h).ofLine_text (by simp [text]) fun line => ?_
  rw [ofField, if_neg hReadable]

theorem ofLine_text_sitemap (h : IsValue value) (hne : value ≠ []) :
    ofLine (Text.trim (sitemap (String.ofList value)).text.toList) =
      sitemap (String.ofList value) := by
  have hName : IsSpelled "Sitemap".toList .sitemap := by decide +kernel
  refine (HasField.of_isSpelled hName h).ofLine_text (by simp [text]) fun line => ?_
  rw [ofField, if_neg (by simpa using hne)]

/-- A directive of a field is read again from its printed form. -/
theorem HasField.ofLine_text_ofField (h : HasField field name value) {line : List Char}
    (hLine : Trimmed line) (hne : line ≠ []) (hText : (ofField field name value line).KeepsText) :
    ofLine (Text.trim (ofField field name value line).text.toList) =
      ofField field name value line := by
  cases field with
  | userAgent => exact ofLine_text_userAgent h.value
  | rule verdict =>
    rw [ofField]
    split
    · rename_i hDamaged
      exact h.ofLine_text_invalid fun line => by rw [ofField, if_pos hDamaged]
    · rename_i hReadable
      exact ofLine_text_rule h.value hReadable
  | crawlDelay =>
    cases hDelay : delay? value with
    | some seconds => simp [ofField, hDelay, KeepsText] at hText
    | none =>
      simp only [ofField, hDelay]
      exact h.ofLine_text_invalid fun line => by simp only [ofField, hDelay]
  | sitemap =>
    rw [ofField]
    split
    · rename_i hEmpty
      exact h.ofLine_text_invalid fun line => by rw [ofField, if_pos hEmpty]
    · rename_i hNonempty
      exact ofLine_text_sitemap h.value (by simpa using hNonempty)
  | extension =>
    -- The name is trimmed when it is read, and so is printed without the blanks behind it.
    refine h.trim.ofLine_text (by simp [ofField, text]) fun line => ?_
    rw [ofField, (Text.trimmed_trim name).trim_eq]
    rfl
  | bareUrl =>
    rw [ofField] at hText ⊢
    split at hText
    · rename_i hUrl
      rw [if_pos hUrl]
      exact ofLine_text_sitemap (isValue_of_trimmed hLine) hne
    · exact absurd hText (not_keepsText_ofUnknown line)

/-- A directive that keeps the texts of its trimmed line is read again from its printed form. -/
theorem ofLine_printed {line : List Char} (hLine : Text.trim line = line)
    (hText : (ofLine line).KeepsText) :
    ofLine (Text.trim (ofLine line).text.toList) = ofLine line := by
  have hTrimmed := Text.trimmed_of_trim_eq hLine
  rcases ofLine_cases hTrimmed with hUnknown | ⟨field, name, value, hField, hRead⟩
  · rw [hUnknown] at hText
    exact absurd hText (not_keepsText_ofUnknown line)
  · have hne : line ≠ [] := by
      rintro rfl
      exact hText
    rw [hRead] at hText ⊢
    exact hField.ofLine_text_ofField hTrimmed hne hText

/-- An invalid rule with a blank behind its name, and a URL with a tab behind its colon. -/
theorem ofLine_printed_damaged :
    (Text.trim "Disallow :\t/a:\uFFFD".toList = "Disallow :\t/a:\uFFFD".toList ∧
      (ofLine "Disallow :\t/a:\uFFFD".toList).KeepsText ∧
      ofLine (Text.trim "Disallow : /a:\uFFFD".toList) =
        ofLine "Disallow :\t/a:\uFFFD".toList) ∧
    Text.trim "HTTP:\t//h".toList = "HTTP:\t//h".toList ∧ (ofLine "HTTP:\t//h".toList).KeepsText ∧
      ofLine (Text.trim "Sitemap: HTTP:\t//h".toList) = ofLine "HTTP:\t//h".toList := by
  have hRule : Text.trim "Disallow :\t/a:\uFFFD".toList = "Disallow :\t/a:\uFFFD".toList := by
    decide +kernel
  have hUrl : Text.trim "HTTP:\t//h".toList = "HTTP:\t//h".toList := by decide +kernel
  have hRuleKept : (ofLine "Disallow :\t/a:\uFFFD".toList).KeepsText := by decide +kernel
  have hUrlKept : (ofLine "HTTP:\t//h".toList).KeepsText := by decide +kernel
  have hRuleText : (ofLine "Disallow :\t/a:\uFFFD".toList).text = "Disallow : /a:\uFFFD" := by
    decide +kernel
  have hUrlText : (ofLine "HTTP:\t//h".toList).text = "Sitemap: HTTP:\t//h" := by decide +kernel
  have hRuleAgain := ofLine_printed hRule hRuleKept
  have hUrlAgain := ofLine_printed hUrl hUrlKept
  rw [hRuleText] at hRuleAgain
  rw [hUrlText] at hUrlAgain
  exact ⟨⟨hRule, hRuleKept, hRuleAgain⟩, hUrl, hUrlKept, hUrlAgain⟩

end RobotsTxt.Directive
