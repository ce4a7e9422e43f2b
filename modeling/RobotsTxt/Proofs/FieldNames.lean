import RobotsTxt.Field
import RobotsTxt.Proofs.Trimming
import RobotsTxt.Proofs.Words

/-! How the fields of lines are told by their names.  With a colon a name may be written with blanks
and underscores of all kinds, since its words are put into a form of their own before it is looked
up; without a colon it must be one of the known spellings letter by letter, only not in their case.
No spelling with a blank behind it starts another one, so a line starts with one name at most. -/

namespace RobotsTxt.Field

open Text (words isBlank Trimmed)

/-! ### Canonical names -/

theorem intercalate_append {xs ys : List (List Char)} (hx : xs ≠ []) (hy : ys ≠ []) :
    [' '].intercalate (xs ++ ys) = [' '].intercalate xs ++ ' ' :: [' '].intercalate ys := by
  induction xs with
  | nil => contradiction
  | cons x xs ih =>
    rw [List.cons_append]
    by_cases hLast : xs = []
    · simp [hLast, List.intercalate_cons_of_ne_nil hy]
    · rw [List.intercalate_cons_of_ne_nil (by simp [hLast]), ih hLast,
        List.intercalate_cons_of_ne_nil hLast]
      simp

theorem map_intercalate {f : Char → Char} (h : f ' ' = ' ') (xs : List (List Char)) :
    ([' '].intercalate xs).map f = [' '].intercalate (xs.map (List.map f)) := by
  induction xs with
  | nil => rfl
  | cons x xs ih =>
    cases xs with
    | nil => simp
    | cons x' xs =>
      rw [List.intercalate_cons_cons, List.map_cons, List.map_cons, List.intercalate_cons_cons,
        ← List.map_cons, ← ih]
      simp [h]

theorem canonical_append_cons {c : Char} (hc : isBlank c = true) {a b : List Char}
    (ha : words a ≠ []) (hb : words b ≠ []) :
    canonical (a ++ c :: b) = canonical a ++ ' ' :: canonical b := by
  simp only [canonical, Text.words_append_cons hc, intercalate_append ha hb, List.map_append,
    List.map_cons]
  rfl

theorem canonical_trim (name : List Char) : canonical (Text.trim name) = canonical name := by
  rw [canonical, canonical, Text.words_trim]

theorem canonical_toLower (name : List Char) :
    canonical (name.map Char.toLower) = canonical name := by
  rw [canonical, Text.words_map Text.isBlank_toLower, ← map_intercalate (by decide), List.map_map,
    canonical]
  refine List.map_congr_left fun c _ => ?_
  simp only [Function.comp_apply, Text.toLower_eq_underscore_iff, Char.toLower_toLower_eq_toLower]

theorem words_ne_nil_of_canonical {name : List Char} (h : canonical name ≠ []) :
    words name ≠ [] := by
  intro hNone
  simp [canonical, hNone] at h

theorem ofName?_congr {name other : List Char} (h : canonical name = canonical other) :
    ofName? name = ofName? other := by
  rw [ofName?, ofName?, h]

/-! ### Single spaces -/

/-- A blank in the text is a space, and no other blank follows it. -/
def SingleSpaced (s : List Char) : Prop :=
  s.IsChain fun c d => isBlank c = true → c = ' ' ∧ isBlank d = false

instance (s : List Char) : Decidable (SingleSpaced s) := inferInstanceAs (Decidable (s.IsChain _))

theorem intercalate_cons (c : Char) (x : List Char) (xs : List (List Char)) :
    [' '].intercalate ((c :: x) :: xs) = c :: [' '].intercalate (x :: xs) := by
  cases xs with
  | nil => simp
  | cons y ys => simp [List.intercalate_cons_cons]

/-- A trimmed text with single spaces is its words with a space between any two. -/
theorem intercalate_words : ∀ {s : List Char}, SingleSpaced s → Trimmed s →
    [' '].intercalate (words s) = s
  | [], _, _ => rfl
  | [c], _, hTrimmed => by
    rw [Text.words_singleton (hTrimmed.1 c rfl)]
    simp
  | c :: d :: s, hSpaced, hTrimmed => by
    have hc : isBlank c = false := hTrimmed.1 c rfl
    obtain ⟨-, hMore⟩ := List.isChain_cons_cons.mp hSpaced
    by_cases hd : isBlank d = true
    · -- The blank is a space, and the text goes on with a letter.
      cases s with
      | nil => simp [hTrimmed.2 d rfl] at hd
      | cons e s =>
        obtain ⟨hNext, hRest⟩ := List.isChain_cons_cons.mp hMore
        obtain ⟨rfl, he⟩ := hNext hd
        have hWords : words (e :: s) ≠ [] := Text.words_ne_nil he (List.mem_cons_self ..)
        have hEnd : Trimmed (e :: s) := .of_append [c, ' '] hTrimmed he
        have hSplit := Text.words_append_cons hd [c] (e :: s)
        rw [List.singleton_append] at hSplit
        rw [hSplit, intercalate_append (by simp [Text.words_singleton hc]) hWords,
          Text.words_singleton hc, intercalate_words hRest hEnd]
        simp
    · rw [Bool.not_eq_true] at hd
      obtain ⟨word, more, hWords, hLonger⟩ := Text.exists_words_cons_cons hc hd s
      have hEnd : Trimmed (d :: s) := .of_append [c] hTrimmed hd
      rw [hLonger, intercalate_cons, ← hWords, intercalate_words hMore hEnd]

/-! ### The table of spellings -/

/-- Every spelling is its own canonical name and stands for its field. -/
theorem spelling_canonical : ∀ spelling ∈ spellings, canonical spelling.1.toList =
    spelling.1.toList ∧ ofName? spelling.1.toList = some spelling.2 ∧ spelling.2 ≠ .bareUrl := by
  decide +kernel

/-- A spelling has one field. -/
theorem spelling_unique : ∀ spelling ∈ spellings, ∀ other ∈ spellings, spelling.1 = other.1 →
    spelling.2 = other.2 := by decide +kernel

/-- No spelling with a space behind it starts a spelling, or a name of another kind. -/
theorem spelling_apart : ∀ spelling ∈ spellings,
    (∀ other ∈ spellings, ¬spelling.1.toList ++ [' '] <+: other.1.toList) ∧
      ¬"acap-".toList <+: spelling.1.toList ++ [' '] ∧ 4 ≤ spelling.1.toList.length := by
  decide +kernel

/-- How spellings are written. -/
theorem spelling_plain : ∀ spelling ∈ spellings, Text.trim spelling.1.toList = spelling.1.toList ∧
    ':' ∉ spelling.1.toList ∧ '_' ∉ spelling.1.toList ∧ SingleSpaced spelling.1.toList := by
  decide +kernel

/-! ### Names of the table -/

/-- The name stands for a field in some way of writing one of the spellings. -/
def StandsFor (name : List Char) (field : Field) : Prop :=
  (String.ofList (canonical name), field) ∈ spellings

/-- But for the case of its letters, the name is one of the spellings. -/
def IsSpelled (name : List Char) (field : Field) : Prop :=
  (String.ofList (name.map Char.toLower), field) ∈ spellings

instance (name : List Char) (field : Field) : Decidable (StandsFor name field) :=
  inferInstanceAs (Decidable (_ ∈ spellings))

instance (name : List Char) (field : Field) : Decidable (IsSpelled name field) :=
  inferInstanceAs (Decidable (_ ∈ spellings))

variable {name rest : List Char} {field : Field}

theorem StandsFor.canonical_canonical (h : StandsFor name field) :
    canonical (canonical name) = canonical name := by
  simpa using (spelling_canonical _ h).1

theorem StandsFor.ofName?_eq (h : StandsFor name field) : ofName? name = some field := by
  rw [ofName?_congr h.canonical_canonical.symm]
  simpa using (spelling_canonical _ h).2.1

theorem StandsFor.ne_bareUrl (h : StandsFor name field) : field ≠ .bareUrl :=
  (spelling_canonical _ h).2.2

theorem StandsFor.unique {other : Field} (h : StandsFor name field) (h' : StandsFor name other) :
    field = other :=
  spelling_unique _ h _ h' rfl

theorem StandsFor.words_ne_nil (h : StandsFor name field) : words name ≠ [] := by
  have hLength := (spelling_apart _ h).2.2
  refine words_ne_nil_of_canonical fun hNone => ?_
  simp [hNone] at hLength

/-- What starts with a name, a blank and more is no name. -/
theorem StandsFor.not_append (h : StandsFor name field) {c : Char} (hc : isBlank c = true)
    (hRest : words rest ≠ []) (other : Field) : ¬StandsFor (name ++ c :: rest) other := by
  intro hOther
  refine (spelling_apart _ h).1 _ hOther ⟨canonical rest, ?_⟩
  simp [canonical_append_cons hc h.words_ne_nil hRest]

theorem StandsFor.ofName?_append (h : StandsFor name field) {c : Char} (hc : isBlank c = true)
    (hRest : words rest ≠ []) : ofName? (name ++ c :: rest) = none := by
  obtain ⟨hOthers, hExtension, hLength⟩ := spelling_apart _ h
  simp only [String.toList_ofList (l := canonical name)] at hOthers hExtension hLength
  have hKey := canonical_append_cons hc h.words_ne_nil hRest
  have hStart : canonical name ++ [' '] <+: canonical (name ++ c :: rest) := by simp [hKey]
  have hSpace : ' ' ∈ canonical (name ++ c :: rest) := by simp [hKey]
  unfold ofName?
  refine (if_neg ?_).trans ((if_neg ?_).trans (Option.map_eq_none_iff.mpr ?_))
  · rw [List.isPrefixOf_iff_prefix]
    intro hAcap
    exact hExtension (List.prefix_of_prefix_length_le hAcap hStart (by simpa using hLength))
  · rw [Bool.or_eq_true, decide_eq_true_eq, decide_eq_true_eq]
    rintro (hSame | hSame) <;> exact absurd (hSame ▸ hSpace) (by decide)
  · refine List.find?_eq_none.mpr fun spelling hSpelling hSame => ?_
    exact hOthers spelling hSpelling (beq_iff_eq.mp hSame ▸ hStart)

theorem IsSpelled.standsFor (h : IsSpelled name field) : StandsFor name field := by
  have hCanonical := (spelling_canonical _ h).1
  rw [String.toList_ofList, canonical_toLower] at hCanonical
  rw [StandsFor, hCanonical]
  exact h

theorem IsSpelled.trimmed (h : IsSpelled name field) : Trimmed name := by
  have hTrim := (spelling_plain _ h).1
  rw [String.toList_ofList] at hTrim
  obtain ⟨hHead, hLast⟩ := Text.trimmed_of_trim_eq hTrim
  refine ⟨fun c hc => ?_, fun c hc => ?_⟩
  · rw [← Text.isBlank_toLower]
    exact hHead _ (by simp [Option.mem_def.mp hc])
  · rw [← Text.isBlank_toLower]
    exact hLast _ (by simp [Option.mem_def.mp hc])

theorem IsSpelled.colonless (h : IsSpelled name field) : ':' ∉ name := by
  have hColonless := (spelling_plain _ h).2.1
  rw [String.toList_ofList] at hColonless
  exact fun hMem => hColonless (List.mem_map.mpr ⟨_, hMem, rfl⟩)

/-- A name is spelled as in the table if it has hyphens for underscores and single spaces. -/
theorem StandsFor.isSpelled_iff (h : StandsFor name field) (hTrimmed : Trimmed name) :
    IsSpelled name field ↔ '_' ∉ name ∧ SingleSpaced name := by
  constructor
  · intro hSpelled
    obtain ⟨-, -, hUnderscore, hSpaced⟩ := spelling_plain _ hSpelled
    rw [String.toList_ofList] at hUnderscore hSpaced
    refine ⟨fun hMem => hUnderscore (List.mem_map.mpr ⟨_, hMem, rfl⟩), ?_⟩
    refine (List.isChain_map Char.toLower |>.mp hSpaced).imp fun c d hBlank hc => ?_
    rw [Text.isBlank_toLower, Text.isBlank_toLower] at hBlank
    rw [Text.toLower_of_isBlank hc] at hBlank
    exact hBlank hc
  · rintro ⟨hUnderscore, hSpaced⟩
    have hCanonical : canonical name = name.map Char.toLower := by
      rw [canonical, intercalate_words hSpaced hTrimmed]
      refine List.map_congr_left fun c hc => if_neg ?_
      rintro rfl
      exact hUnderscore hc
    rw [IsSpelled, ← hCanonical]
    exact h

/-- A trimmed name does not start with another one and a blank. -/
theorem StandsFor.not_extends {other more : List Char} {field' : Field} {c : Char}
    (h : StandsFor name field) (h' : StandsFor other field') (hTrimmed : Trimmed other)
    (hc : isBlank c = true) : other ≠ name ++ c :: more := by
  rintro rfl
  cases hLast : more.getLast? with
  | none =>
    obtain rfl := List.getLast?_eq_none_iff.mp hLast
    simp [hTrimmed.2 c (by simp)] at hc
  | some d =>
    have hd : isBlank d = false := hTrimmed.2 d (by simp [List.getLast?_cons, hLast])
    exact h.not_append hc (Text.words_ne_nil hd (List.mem_of_getLast? hLast)) field' h'

/-- A line starts with one name at most. -/
theorem StandsFor.eq_of_append {other rest' : List Char} {field' : Field} {c d : Char}
    (h : StandsFor name field) (h' : StandsFor other field') (hTrimmed : Trimmed name)
    (hTrimmed' : Trimmed other) (hc : isBlank c = true) (hd : isBlank d = true)
    (hSame : name ++ c :: rest = other ++ d :: rest') : name = other := by
  rcases List.append_eq_append_iff.mp hSame with ⟨_ | ⟨e, more⟩, hOther, hRest⟩ |
    ⟨_ | ⟨e, more⟩, hName, hRest⟩
  · simpa using hOther.symm
  · obtain ⟨rfl, -⟩ := List.cons_eq_cons.mp hRest
    exact absurd hOther (h.not_extends h' hTrimmed' hc)
  · simpa using hName
  · obtain ⟨rfl, -⟩ := List.cons_eq_cons.mp hRest
    exact absurd hName (h'.not_extends h hTrimmed hd)

/-! ### Names without a colon -/

theorem isBlank_of_isGap {c : Char} (h : isGap c = true) : isBlank c = true := by
  rw [isGap, Bool.or_eq_true, decide_eq_true_eq, decide_eq_true_eq] at h
  rcases h with rfl | rfl <;> decide

theorem afterSpelling?_eq_some_iff {spelling line : List Char} :
    afterSpelling? spelling line = some rest ↔
      ∃ written, line = written ++ rest ∧ written.map Char.toLower = spelling := by
  induction spelling generalizing line with
  | nil => simp [afterSpelling?, eq_comm]
  | cons s spelling ih =>
    cases line with
    | nil =>
      refine iff_of_false (by simp [afterSpelling?]) ?_
      rintro ⟨written, hLine, hWritten⟩
      simp [(List.append_eq_nil_iff.mp hLine.symm).1] at hWritten
    | cons c line =>
      rw [afterSpelling?]
      constructor
      · intro h
        split at h
        · rename_i hc
          obtain ⟨written, rfl, rfl⟩ := ih.mp h
          exact ⟨c :: written, rfl, by rw [List.map_cons, hc]⟩
        · contradiction
      · rintro ⟨_ | ⟨d, written⟩, hLine, hWritten⟩
        · contradiction
        · obtain ⟨rfl, rfl⟩ := List.cons_eq_cons.mp hLine
          obtain ⟨rfl, rfl⟩ := List.cons_eq_cons.mp hWritten
          rw [if_pos rfl]
          exact ih.mpr ⟨written, rfl, rfl⟩

/-- What is read as a name without a colon is spelled as in the table. -/
theorem exists_of_splitBare? {line value : List Char}
    (h : splitBare? line = some (field, name, value)) : ∃ c rest, line = name ++ c :: rest ∧
      isGap c = true ∧ IsSpelled name field ∧ value = rest.dropWhile isGap := by
  obtain ⟨⟨spelling, field'⟩, hSpelling, hFound⟩ := List.exists_of_findSome?_eq_some h
  simp only at hFound
  split at hFound
  · rename_i c rest hAfter
    obtain ⟨written, rfl, hWritten⟩ := afterSpelling?_eq_some_iff.mp hAfter
    have hLength : spelling.length = written.length := by
      rw [← String.length_toList, ← hWritten, List.length_map]
    rw [hLength, List.take_left] at hFound
    split at hFound
    · rename_i hGap
      obtain ⟨rfl, rfl, rfl⟩ := by simpa using hFound
      refine ⟨c, rest, rfl, hGap, ?_, rfl⟩
      rw [IsSpelled, hWritten, String.ofList_toList]
      exact hSpelling
    · contradiction
  · contradiction

theorem IsSpelled.splitBare?_eq (h : IsSpelled name field) {c : Char} (hc : isGap c = true) :
    splitBare? (name ++ c :: rest) = some (field, name, rest.dropWhile isGap) := by
  have hBlank := isBlank_of_isGap hc
  have hSome : (splitBare? (name ++ c :: rest)).isSome = true := by
    refine List.findSome?_isSome_iff.mpr ⟨_, h, ?_⟩
    have hAfter : afterSpelling? (String.ofList (name.map Char.toLower)).toList
        (name ++ c :: rest) = some (c :: rest) :=
      afterSpelling?_eq_some_iff.mpr ⟨name, rfl, String.toList_ofList.symm⟩
    simp only [hAfter, hc, if_true, Option.isSome_some]
  obtain ⟨⟨field', written, value⟩, hFound⟩ := Option.isSome_iff_exists.mp hSome
  obtain ⟨d, rest', hLine, hd, hSpelled, rfl⟩ := exists_of_splitBare? hFound
  obtain rfl := h.standsFor.eq_of_append hSpelled.standsFor h.trimmed hSpelled.trimmed hBlank
    (isBlank_of_isGap hd) hLine
  obtain ⟨-, rfl⟩ := List.cons_eq_cons.mp (List.append_cancel_left hLine)
  rw [hFound, h.standsFor.unique hSpelled.standsFor]

/-- A name of the table that is written in another way is not read without a colon. -/
theorem StandsFor.splitBare?_eq_none (h : StandsFor name field) (hTrimmed : Trimmed name)
    (hNot : ¬IsSpelled name field) {c : Char} (hc : isGap c = true) :
    splitBare? (name ++ c :: rest) = none := by
  refine Option.eq_none_iff_forall_not_mem.mpr fun ⟨field', written, value⟩ hFound => ?_
  obtain ⟨d, rest', hLine, hd, hSpelled, -⟩ := exists_of_splitBare? hFound
  obtain rfl := h.eq_of_append hSpelled.standsFor hTrimmed hSpelled.trimmed (isBlank_of_isGap hc)
    (isBlank_of_isGap hd) hLine
  exact hNot (h.unique hSpelled.standsFor ▸ hSpelled)

end RobotsTxt.Field
