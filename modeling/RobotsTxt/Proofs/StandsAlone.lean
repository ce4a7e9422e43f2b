import RobotsTxt.Agent.Match
import RobotsTxt.Proofs.Search

/-! Words that stand alone in a name, with no letter or number next to them.  The search for one
counts occurrences from the left, each behind the end of the one before, so an occurrence that
overlaps a counted one is passed over.  The words whose occurrences can be lost in this way are
those that overlap themselves at a break, where the overlap follows something other than a letter or
number. -/

namespace RobotsTxt.Agent

open Text (Leftmost afterFirst)

/-- No letter or number stands next to an occurrence. -/
def Free (before after : List Char) : Prop :=
  adjoins before.getLast? = false ∧ adjoins after.head? = false

/-- A word occurs somewhere in a name with no letter or number next to it. -/
def Stands (word name : List Char) : Prop :=
  ∃ before after, name = before ++ word ++ after ∧ Free before after

/-- The occurrences that are counted from the left: the leftmost, and behind it those counted in
what follows its end. -/
inductive Counted (word : List Char) : List Char → List Char → List Char → Prop
  | first {s before after : List Char} (here : Leftmost word s before after) :
      Counted word s before after
  | later {s before after before' after' : List Char} (here : Leftmost word s before after)
      (there : Counted word after before' after') :
      Counted word s (before ++ word ++ before') after'

/-- A counted occurrence of a word has no letter or number next to it. -/
def StandsCounted (word name : List Char) : Prop :=
  ∃ before after, Counted word name before after ∧ Free before after

/-- The word ends in a start of itself, and what stands before that end is a break: its last
character is not a letter or number. -/
def Breaks (word : List Char) : Prop :=
  ∃ u v, u ≠ [] ∧ v ≠ [] ∧ word = u ++ v ∧ v <+: word ∧ adjoins u.getLast? = false

theorem breaks_iff {word : List Char} : Breaks word ↔
    ∃ n < word.length, 0 < n ∧ word.drop n <+: word ∧ adjoins (word.take n).getLast? = false := by
  constructor
  · rintro ⟨u, v, hu, hv, rfl, hStart, hBreak⟩
    have hFront := List.length_pos_iff.mpr hu
    have hEnd := List.length_pos_iff.mpr hv
    refine ⟨u.length, ?_, hFront, ?_, ?_⟩
    · rw [List.length_append]
      omega
    · rwa [List.drop_left]
    · rwa [List.take_left]
  · rintro ⟨n, hShort, hPositive, hStart, hBreak⟩
    refine ⟨word.take n, word.drop n, ?_, ?_, (List.take_append_drop n word).symm, hStart, hBreak⟩
    · rw [← List.length_pos_iff, List.length_take]
      omega
    · rw [← List.length_pos_iff, List.length_drop]
      omega

instance (word : List Char) : Decidable (Breaks word) := decidable_of_iff _ breaks_iff.symm

variable {word s before after : List Char} {neighbour : Option Char}

theorem Counted.split (h : Counted word s before after) : s = before ++ word ++ after := by
  induction h with
  | first here => exact here.split
  | later here _ ih => rw [here.split, ih]; simp

theorem StandsCounted.stands (h : StandsCounted word s) : Stands word s := by
  obtain ⟨before, after, hCounted, hFree⟩ := h
  exact ⟨before, after, hCounted.split, hFree⟩

/-! ### What the search sees -/

theorem getLast?_cons_or (c : Char) (u : List Char) :
    (c :: u).getLast?.or neighbour = u.getLast?.or (some c) := by
  rw [List.getLast?_cons]
  cases u.getLast? <;> rfl

/-- Between two occurrences the earlier one is the nearest text. -/
theorem getLast?_append_or (hWord : word ≠ []) (later : List Char) :
    (before ++ word ++ later).getLast?.or neighbour = later.getLast?.or word.getLast? := by
  rw [List.getLast?_append, List.getLast?_append, List.getLast?_eq_some_getLast hWord]
  cases later.getLast? <;> rfl

/-- The characters to skip leave only the last of them behind, as the neighbour. -/
theorem standsAlone_skip (u : List Char) :
    standsAlone word neighbour u.length (u ++ s) =
      standsAlone word (u.getLast?.or neighbour) 0 s := by
  induction u generalizing neighbour with
  | nil => rfl
  | cons c u ih =>
    rw [getLast?_cons_or, ← ih]
    rfl

theorem standsAlone_of_start (hWord : word ≠ []) : standsAlone word neighbour 0 (word ++ after) =
    ((!adjoins neighbour && !adjoins after.head?) ||
      standsAlone word word.getLast? 0 after) := by
  obtain ⟨c, rest, rfl⟩ := List.exists_cons_of_ne_nil hWord
  have hStart : (c :: rest).isPrefixOf? (c :: (rest ++ after)) = some after :=
    Text.isPrefixOf?_eq_some_iff.mpr rfl
  have hSkip : standsAlone (c :: rest) (some c) rest.length (rest ++ after) =
      standsAlone (c :: rest) (c :: rest).getLast? 0 after := by
    rw [standsAlone_skip, ← getLast?_cons_or, Option.or_none]
  rw [List.cons_append, standsAlone, hStart, ← hSkip]
  rfl

theorem standsAlone_of_leftmost (hWord : word ≠ []) (h : Leftmost word s before after) :
    standsAlone word neighbour 0 s =
      ((!adjoins (before.getLast?.or neighbour) && !adjoins after.head?) ||
        standsAlone word word.getLast? 0 after) := by
  induction before generalizing s neighbour with
  | nil =>
    rw [h.split]
    exact standsAlone_of_start hWord
  | cons c before ih =>
    have hSplit : s = c :: (before ++ word ++ after) := h.split
    have hStart : word.isPrefixOf? (c :: (before ++ word ++ after)) = none := by
      refine Text.isPrefixOf?_eq_none_iff.mpr fun rest hRest => ?_
      have hLeast := h.least [] rest (hSplit.trans hRest)
      simp at hLeast
    rw [hSplit] at h ⊢
    rw [standsAlone, hStart, getLast?_cons_or]
    exact ih h.tail

theorem standsAlone_of_afterFirst (h : afterFirst word s = none) :
    standsAlone word neighbour 0 s = false := by
  induction s generalizing neighbour with
  | nil => rfl
  | cons c rest ih =>
    rw [afterFirst] at h
    split at h
    · contradiction
    · rename_i hStart
      rw [standsAlone, hStart]
      exact ih h

/-- The search passes every counted occurrence. -/
theorem Counted.standsAlone_eq_true (hWord : word ≠ []) (h : Counted word s before after)
    (hBefore : adjoins (before.getLast?.or neighbour) = false)
    (hAfter : adjoins after.head? = false) : standsAlone word neighbour 0 s = true := by
  induction h generalizing neighbour with
  | first here =>
    rw [standsAlone_of_leftmost hWord here]
    simp [hBefore, hAfter]
  | later here _ ih =>
    rw [getLast?_append_or hWord] at hBefore
    rw [standsAlone_of_leftmost hWord here, ih hBefore hAfter, Bool.or_true]

/-- The search stops only at a counted occurrence. -/
theorem exists_counted_of_standsAlone (hWord : word ≠ [])
    (h : standsAlone word neighbour 0 s = true) :
    ∃ before after, Counted word s before after ∧
      adjoins (before.getLast?.or neighbour) = false ∧ adjoins after.head? = false := by
  induction hLength : s.length using Nat.strongRecOn generalizing s neighbour with
  | _ n ih =>
    cases hFound : afterFirst word s with
    | none => simp [standsAlone_of_afterFirst hFound] at h
    | some after =>
      obtain ⟨before, hLeft⟩ := Text.leftmost_of_afterFirst hFound
      rw [standsAlone_of_leftmost hWord hLeft] at h
      rcases Bool.or_eq_true_iff.mp h with hHere | hThere
      · simp only [Bool.and_eq_true, Bool.not_eq_true'] at hHere
        exact ⟨before, after, .first hLeft, hHere⟩
      · have hShorter : after.length < n := hLength ▸ hLeft.length_lt hWord
        obtain ⟨before', after', hCounted, hBefore, hAfter⟩ := ih _ hShorter hThere rfl
        refine ⟨before ++ word ++ before', after', .later hLeft hCounted, ?_, hAfter⟩
        rwa [getLast?_append_or hWord]

/-- The search finds exactly the counted occurrences without a letter or number next to them. -/
theorem standsAlone_iff (hWord : word ≠ []) :
    standsAlone word none 0 s = true ↔ StandsCounted word s := by
  constructor
  · intro h
    obtain ⟨before, after, hCounted, hBefore, hAfter⟩ := exists_counted_of_standsAlone hWord h
    rw [Option.or_none] at hBefore
    exact ⟨before, after, hCounted, hBefore, hAfter⟩
  · rintro ⟨before, after, hCounted, hBefore, hAfter⟩
    exact hCounted.standsAlone_eq_true hWord (by rwa [Option.or_none]) hAfter

/-! ### What the search loses -/

theorem adjoins_getLast?_of_append {u v : List Char} (h : adjoins (u ++ v).getLast? = false) :
    adjoins v.getLast? = false := by
  rw [List.getLast?_append] at h
  cases hLast : v.getLast? with
  | none => rfl
  | some c => simpa [hLast] using h

/-- A word that occurs a second time, behind a break in its first occurrence, overlaps itself at
that break. -/
theorem breaks_of_overlap {gap first : List Char} (hTail : word ++ first = gap ++ (word ++ after))
    (hGap : gap ≠ []) (hShort : gap.length < word.length) (hBreak : adjoins gap.getLast? = false) :
    Breaks word := by
  obtain ⟨overlap, hWord⟩ : gap <+: word :=
    List.prefix_of_prefix_length_le ⟨word ++ after, hTail.symm⟩ ⟨first, rfl⟩ (Nat.le_of_lt hShort)
  have hLength := congrArg List.length hWord
  rw [List.length_append] at hLength
  refine ⟨gap, overlap, hGap, ?_, hWord.symm, ?_, hBreak⟩
  · rintro rfl
    simp only [List.length_nil] at hLength
    omega
  · have hEnd : overlap ++ first = word ++ after := by
      rw [← hWord, List.append_assoc] at hTail
      rw [List.append_cancel_left hTail, hWord]
    exact List.prefix_of_prefix_length_le ⟨first, hEnd⟩ ⟨after, rfl⟩ (by omega)

/-- An occurrence behind a break is counted, unless the word overlaps itself at a break. -/
theorem counted_of_not_breaks (hWord : word ≠ []) (hBreaks : ¬Breaks word)
    (hSplit : s = before ++ word ++ after) (hBefore : adjoins before.getLast? = false) :
    Counted word s before after := by
  induction hLength : s.length using Nat.strongRecOn generalizing s before with
  | _ n ih =>
    obtain ⟨first, hFound⟩ := Text.afterFirst_append word before after
    rw [← hSplit] at hFound
    obtain ⟨start, hLeft⟩ := Text.leftmost_of_afterFirst hFound
    -- The leftmost occurrence starts behind `start`, and this one behind the `gap` that follows.
    have hStart : start <+: s := ⟨word ++ first, by rw [hLeft.split, List.append_assoc]⟩
    have hBefore' : before <+: s := ⟨word ++ after, by rw [hSplit, List.append_assoc]⟩
    obtain ⟨gap, rfl⟩ : start <+: before :=
      List.prefix_of_prefix_length_le hStart hBefore' (hLeft.least before after hSplit)
    have hTail : word ++ first = gap ++ (word ++ after) := by
      simpa only [List.append_assoc, List.append_cancel_left_eq] using hLeft.split.symm.trans hSplit
    have hBreak : adjoins gap.getLast? = false := adjoins_getLast?_of_append hBefore
    rcases Nat.lt_or_ge gap.length word.length with hShort | hLong
    · by_cases hGap : gap = []
      · subst hGap
        obtain rfl : first = after := List.append_cancel_left hTail
        rw [List.append_nil]
        exact .first hLeft
      · exact absurd (breaks_of_overlap hTail hGap hShort hBreak) hBreaks
    · obtain ⟨rest, rfl⟩ : word <+: gap :=
        List.prefix_of_prefix_length_le ⟨first, rfl⟩ ⟨word ++ after, hTail.symm⟩ hLong
      have hFirst : first = rest ++ word ++ after := by
        simpa only [List.append_assoc, List.append_cancel_left_eq] using hTail
      have hShorter : first.length < n := hLength ▸ hLeft.length_lt hWord
      have hCounted := ih _ hShorter hFirst (adjoins_getLast?_of_append hBreak) rfl
      rw [← List.append_assoc]
      exact .later hLeft hCounted

/-- A letter that a word does not start with. -/
def otherLetter (word : List Char) : Char := if word.head? = some 'a' then 'b' else 'a'

theorem otherLetter_ne {c : Char} {rest : List Char} : otherLetter (c :: rest) ≠ c := by
  simp only [otherLetter, List.head?_cons, Option.some.injEq]
  split
  · rename_i hHead
    rw [hHead]
    decide
  · rename_i hHead
    exact Ne.symm hHead

theorem adjoins_otherLetter (word : List Char) : adjoins (some (otherLetter word)) = true := by
  unfold otherLetter
  split <;> decide

/-- Behind a letter, a word that overlaps itself at a break stands alone in a name where the only
counted occurrence does not. -/
theorem Breaks.exists_missed (h : Breaks word) : ∃ name, word.length < name.length ∧
    (∀ rest, name ≠ word ++ rest) ∧ Stands word name ∧ ¬StandsCounted word name := by
  obtain ⟨u, v, hu, hv, hWord, ⟨rest, hRest⟩, hBreak⟩ := h
  obtain ⟨c, tail, hHead⟩ := List.exists_cons_of_ne_nil (show word ≠ [] by simp [hWord, hu])
  have hLength : word.length = u.length + v.length := by rw [hWord, List.length_append]
  have hLengthRest : word.length = v.length + rest.length := by rw [← hRest, List.length_append]
  have hPositive := List.length_pos_iff.mpr hv
  have hTwice : u ++ word = word ++ rest := by
    calc u ++ word = u ++ (v ++ rest) := by rw [hRest]
      _ = word ++ rest := by rw [← List.append_assoc, ← hWord]
  have hStart : ∀ after, otherLetter word :: (u ++ word) ≠ word ++ after := by
    intro after hSame
    rw [hHead] at hSame
    exact otherLetter_ne (List.cons.inj hSame).1
  have hLeft : Leftmost word (otherLetter word :: (u ++ word)) [otherLetter word] rest :=
    hTwice ▸ (Text.leftmost_nil word rest).cons (hTwice ▸ hStart)
  refine ⟨otherLetter word :: (u ++ word), ?_, hStart, ?_, ?_⟩
  · simp only [List.length_cons, List.length_append]
    omega
  · refine ⟨otherLetter word :: u, [], by simp, ?_, rfl⟩
    rw [List.getLast?_eq_some_getLast hu] at hBreak
    rw [List.getLast?_cons, List.getLast?_eq_some_getLast hu]
    exact hBreak
  · rintro ⟨before, after, hCounted, hBefore, -⟩
    cases hCounted with
    | first here =>
      obtain ⟨rfl, -⟩ := hLeft.unique here
      rw [List.getLast?_singleton, adjoins_otherLetter] at hBefore
      contradiction
    | later here there =>
      -- Behind the first occurrence the text is too short for another.
      obtain ⟨-, rfl⟩ := hLeft.unique here
      have hLonger := congrArg List.length there.split
      simp only [List.length_append] at hLonger
      omega

end RobotsTxt.Agent
