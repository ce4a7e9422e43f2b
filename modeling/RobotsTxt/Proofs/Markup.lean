import Mathlib.Data.List.Basic
import RobotsTxt.Text.Line

/-! The markup of a line.  A tag is a less-than sign with a letter of ASCII, a slash or an
exclamation mark behind it, and everything up to the next greater-than sign.  Dropping the tags of a
text takes away the first one, then the first one behind it, and so on; a less-than sign that opens
no tag is text like any other, and so is what stands behind it. -/

namespace RobotsTxt.Text

/-- A tag, from its less-than sign to its greater-than sign. -/
inductive IsTag : List Char → Prop where
  | intro {c : Char} {inside : List Char} (hStart : c.isAlpha = true ∨ c = '/' ∨ c = '!')
      (hInside : '>' ∉ inside) : IsTag ('<' :: c :: (inside ++ ['>']))

/-- A text starts with a tag. -/
def TagAhead (s : List Char) : Prop := ∃ tag rest, s = tag ++ rest ∧ IsTag tag

/-- Nowhere in a text starts a tag. -/
def TagFree (s : List Char) : Prop := ∀ rest, rest <:+ s → ¬TagAhead rest

/-- A text and what is left of it when its tags are removed from left to right, each found behind
the one before. -/
inductive Stripped : List Char → List Char → Prop where
  | plain {s : List Char} (hFree : TagFree s) : Stripped s s
  | tag {before tag after left : List Char} (hTag : IsTag tag)
      (hFirst : ∀ a b, before = a ++ b → b ≠ [] → ¬TagAhead (b ++ (tag ++ after)))
      (hRest : Stripped after left) : Stripped (before ++ (tag ++ after)) (before ++ left)

/-! ### The start of a text -/

theorem tagAhead_cons_iff {c : Char} {s : List Char} :
    TagAhead (c :: s) ↔ (c = '<' && opensTag s) = true := by
  rw [Bool.and_eq_true, decide_eq_true_iff]
  constructor
  · rintro ⟨tag, rest, hText, ⟨hStart, -⟩⟩
    obtain ⟨rfl, rfl⟩ := List.cons_eq_cons.mp hText
    refine ⟨rfl, ?_⟩
    simp [opensTag, or_assoc, hStart]
  · rintro ⟨rfl, hOpens⟩
    cases s with
    | nil => simp [opensTag] at hOpens
    | cons d s =>
      simp only [opensTag, Bool.and_eq_true, Bool.or_eq_true, decide_eq_true_eq,
        List.contains_iff_mem, or_assoc] at hOpens
      obtain ⟨hStart, hClose⟩ := hOpens
      have hNot : '>' ≠ d := by
        rintro rfl
        revert hStart
        decide
      have hMem : '>' ∈ s := (List.mem_cons.mp hClose).resolve_left hNot
      obtain ⟨inside, rest, rfl, hInside⟩ := List.eq_append_cons_of_mem hMem
      exact ⟨'<' :: d :: (inside ++ ['>']), rest, by simp, .intro hStart hInside⟩

theorem not_tagAhead_nil : ¬TagAhead [] := by
  rintro ⟨tag, rest, hText, ⟨-, -⟩⟩
  contradiction

theorem tagFree_nil : TagFree [] := by
  intro rest hRest
  rw [List.suffix_nil.mp hRest]
  exact not_tagAhead_nil

theorem TagFree.cons {c : Char} {s : List Char} (hHere : ¬TagAhead (c :: s)) (h : TagFree s) :
    TagFree (c :: s) := by
  intro rest hRest
  rcases List.suffix_cons_iff.mp hRest with rfl | hLater
  · exact hHere
  · exact h rest hLater

theorem IsTag.getLast?_eq {tag : List Char} (h : IsTag tag) : tag.getLast? = some '>' := by
  obtain ⟨-, -⟩ := h
  simp [List.getLast?_cons]

/-- A tag at the start of a text ends before a part without a greater-than sign. -/
theorem TagAhead.of_append {s tail : List Char} (hTail : '>' ∉ tail) (h : TagAhead (s ++ tail)) :
    TagAhead s := by
  obtain ⟨tag, rest, hText, hTag⟩ := h
  rcases List.append_eq_append_iff.mp hText with ⟨more, rfl, rfl⟩ | ⟨more, rfl, -⟩
  · have hEmpty : more = [] := by
      by_contra hMore
      have hEnd := hTag.getLast?_eq
      rw [List.getLast?_append_of_ne_nil s hMore] at hEnd
      exact hTail (List.mem_append_left rest (List.mem_of_getLast? hEnd))
    subst hEmpty
    exact ⟨s, [], by simp, by simpa using hTag⟩
  · exact ⟨tag, more, rfl, hTag⟩

/-! ### Dropping tags -/

theorem dropTags_inside {inside : List Char} (h : '>' ∉ inside) (rest : List Char) :
    dropTags true (inside ++ '>' :: rest) = dropTags false rest := by
  induction inside with
  | nil => simp [dropTags]
  | cons c inside ih =>
    rw [List.mem_cons, not_or] at h
    have hMore : (c ≠ '>' : Bool) = true := by simp [Ne.symm h.1]
    rw [List.cons_append, dropTags, hMore, ih h.2]

theorem IsTag.dropTags_append {tag : List Char} (h : IsTag tag) (rest : List Char) :
    dropTags false (tag ++ rest) = dropTags false rest := by
  have hAhead : TagAhead (tag ++ rest) := ⟨tag, rest, rfl, h⟩
  cases h with
  | @intro c inside hStart hInside =>
    have hNot : '>' ∉ c :: inside := by
      rw [List.mem_cons, not_or]
      refine ⟨?_, hInside⟩
      rintro rfl
      revert hStart
      decide
    have hText : '<' :: c :: (inside ++ ['>']) ++ rest = '<' :: (c :: inside ++ '>' :: rest) := by
      simp
    rw [hText, tagAhead_cons_iff] at hAhead
    rw [hText, dropTags, if_pos hAhead, dropTags_inside hNot]

theorem dropTags_cons {c : Char} {s : List Char} (h : ¬TagAhead (c :: s)) :
    dropTags false (c :: s) = c :: dropTags false s := by
  rw [dropTags, if_neg (by rwa [← tagAhead_cons_iff])]

theorem TagFree.dropTags_eq {s : List Char} (h : TagFree s) : dropTags false s = s := by
  induction s with
  | nil => rfl
  | cons c s ih =>
    have hRest : TagFree s := fun rest hRest => h rest (hRest.trans (List.suffix_cons c s))
    rw [dropTags_cons (h _ List.suffix_rfl), ih hRest]

/-- What stands before the first tag of a text is kept. -/
theorem dropTags_append {before s : List Char}
    (h : ∀ a b, before = a ++ b → b ≠ [] → ¬TagAhead (b ++ s)) :
    dropTags false (before ++ s) = before ++ dropTags false s := by
  induction before with
  | nil => rfl
  | cons c before ih =>
    have hHere : ¬TagAhead (c :: (before ++ s)) := h [] (c :: before) rfl (by simp)
    rw [List.cons_append, dropTags_cons hHere, List.cons_append, ih]
    rintro a b rfl hb
    exact h (c :: a) b rfl hb

theorem Stripped.dropTags_eq {s left : List Char} (h : Stripped s left) :
    dropTags false s = left := by
  induction h with
  | plain hFree => exact hFree.dropTags_eq
  | tag hTag hFirst hRest ih => rw [dropTags_append hFirst, hTag.dropTags_append, ih]

/-- A character that opens no tag stays before what is left of the rest. -/
theorem Stripped.cons {c : Char} {s left : List Char} (hHere : ¬TagAhead (c :: s))
    (h : Stripped s left) : Stripped (c :: s) (c :: left) := by
  cases h with
  | plain hFree => exact .plain (hFree.cons hHere)
  | @tag before tag after left hTag hFirst hRest =>
    have hFirstCons : ∀ a b, c :: before = a ++ b → b ≠ [] → ¬TagAhead (b ++ (tag ++ after)) := by
      intro a b hBefore hb
      rcases List.cons_eq_append_iff.mp hBefore with ⟨rfl, rfl⟩ | ⟨a, rfl, hBehind⟩
      · exact hHere
      · exact hFirst a b hBehind hb
    exact .tag hTag hFirstCons hRest

theorem stripped_dropTags (s : List Char) : Stripped s (dropTags false s) := by
  by_cases hAhead : TagAhead s
  · obtain ⟨tag, rest, rfl, hTag⟩ := hAhead
    have hShorter : rest.length < (tag ++ rest).length := by
      obtain ⟨-, -⟩ := hTag
      simp only [List.length_append, List.length_cons]
      omega
    rw [hTag.dropTags_append]
    have hFirst : ∀ a b, [] = a ++ b → b ≠ [] → ¬TagAhead (b ++ (tag ++ rest)) := by simp
    exact .tag hTag hFirst (stripped_dropTags rest)
  · cases s with
    | nil => exact .plain tagFree_nil
    | cons c s =>
      rw [dropTags_cons hAhead]
      exact (stripped_dropTags s).cons hAhead
termination_by s.length

/-! ### Parts without tags -/

/-- Without a less-than sign there is no tag. -/
theorem dropTags_plain_append {plain : List Char} (h : '<' ∉ plain) (s : List Char) :
    dropTags false (plain ++ s) = plain ++ dropTags false s := by
  refine dropTags_append fun a b hPlain hb => ?_
  obtain ⟨c, b, rfl⟩ := List.exists_cons_of_ne_nil hb
  have hSign : c ≠ '<' := by
    rintro rfl
    exact h (by simp [hPlain])
  rw [List.cons_append, tagAhead_cons_iff]
  simp [hSign]

theorem dropTags_of_not_mem {s : List Char} (h : '<' ∉ s) : dropTags false s = s := by
  simpa [dropTags] using dropTags_plain_append h []

theorem TagFree.append {s tail : List Char} (hTail : '>' ∉ tail) (h : TagFree s) :
    TagFree (s ++ tail) := by
  rintro rest ⟨before, hText⟩ hAhead
  rcases List.append_eq_append_iff.mp hText with ⟨more, rfl, rfl⟩ | ⟨more, rfl, rfl⟩
  · exact h more (List.suffix_append before more) (hAhead.of_append hTail)
  · have hRest : '>' ∉ rest := fun hMem => hTail (List.mem_append_right more hMem)
    exact not_tagAhead_nil (hAhead.of_append (s := []) hRest)

theorem Stripped.append {s left tail : List Char} (hTail : '>' ∉ tail) (h : Stripped s left) :
    Stripped (s ++ tail) (left ++ tail) := by
  induction h with
  | plain hFree => exact .plain (hFree.append hTail)
  | @tag before tag after left hTag hFirst hRest ih =>
    simp only [List.append_assoc]
    refine .tag hTag (fun a b hBefore hb hAhead => hFirst a b hBefore hb ?_) ih
    exact TagAhead.of_append hTail (by simpa using hAhead)

/-- Without a greater-than sign no tag is closed, so a last part that has none is kept. -/
theorem dropTags_append_unclosed {tail : List Char} (h : '>' ∉ tail) (s : List Char) :
    dropTags false (s ++ tail) = dropTags false s ++ tail :=
  ((stripped_dropTags s).append h).dropTags_eq

/-! ### Lines -/

/-- Dropping the tags of a line leaves what removing them from left to right leaves, and nothing
else.  A less-than sign that opens no tag is kept before what is left of the rest, so that a tag
right behind it still goes, and a tag that is never closed is kept with everything in it. -/
theorem dropTags_stripped (line : List Char) :
    (∀ left, dropTags false line = left ↔ Stripped line left) ∧
      (∀ after, line = '<' :: after → ¬TagAhead line →
        dropTags false line = '<' :: dropTags false after) ∧
      (∀ tag after, IsTag tag → line = '<' :: (tag ++ after) →
        dropTags false line = '<' :: dropTags false after) ∧
      ∀ before after, line = before ++ '<' :: after → '>' ∉ after →
        dropTags false line = dropTags false before ++ '<' :: after := by
  refine ⟨fun left => ⟨?_, Stripped.dropTags_eq⟩, ?_, ?_, ?_⟩
  · rintro rfl
    exact stripped_dropTags line
  · rintro after rfl hHere
    exact dropTags_cons hHere
  · rintro tag after hTag rfl
    have hHere : ¬TagAhead ('<' :: (tag ++ after)) := by
      obtain ⟨-, -⟩ := hTag
      simp [tagAhead_cons_iff, opensTag]
    rw [dropTags_cons hHere, hTag.dropTags_append]
  · rintro before after rfl hOpen
    exact dropTags_append_unclosed (by simpa using hOpen) before

example : dropTags false "a<<b>c<1<i<u>d</".toList = "a<c<1d</".toList := by decide +kernel

end RobotsTxt.Text
