import RobotsTxt.Proofs.Trimming
import RobotsTxt.Text.Lowercase
import RobotsTxt.Text.Uppercase

/-! Text in small letters.  The tables agree in this: what a character becomes when it is put in small
letters is the character itself, or it is no capital letter, has no small letter of its own and is
not blank.  So text that is trimmed and then put in small letters stays the same under both, and the
only capital letters in it are those that have no small letter. -/

namespace RobotsTxt.Text

/-! ### The tables -/

theorem Run.has_iff {run : Run} {c : Char} : run.has c = true ↔
    run.first ≤ c.toNat ∧ c.toNat ≤ run.last ∧ (c.toNat - run.first) % run.step = 0 := by
  simp [Run.has, and_assoc]

/-- The numbers `first`, `first + step` and so on, `count` of them, as a set of bits. -/
def stepBits (first step : Nat) : Nat → Nat
  | 0 => 0
  | count + 1 => stepBits first step count ||| 1 <<< (first + step * count)

/-- The code points of a run as a set of bits. -/
def Run.bits (run : Run) : Nat :=
  stepBits run.first run.step ((run.last - run.first) / run.step + 1)

def bitsOf (runs : List Run) : Nat := runs.foldr (fun run bits => run.bits ||| bits) 0

theorem testBit_stepBits {first step count k : Nat} (h : k < count) :
    (stepBits first step count).testBit (first + step * k) = true := by
  induction count with
  | zero => contradiction
  | succ count ih =>
    rw [stepBits, Nat.testBit_or, Bool.or_eq_true]
    rcases Nat.lt_succ_iff_lt_or_eq.mp h with hLess | rfl
    · exact .inl (ih hLess)
    · exact .inr (by simp [Nat.testBit_shiftLeft])

theorem Run.testBit_bits {run : Run} {c : Char} (h : run.has c = true) :
    run.bits.testBit c.toNat = true := by
  obtain ⟨hFirst, hLast, hStep⟩ := has_iff.mp h
  have hCode : c.toNat = run.first + run.step * ((c.toNat - run.first) / run.step) := by
    have := Nat.div_add_mod (c.toNat - run.first) run.step
    omega
  have hCount : (c.toNat - run.first) / run.step ≤ (run.last - run.first) / run.step :=
    Nat.div_le_div_right (by omega)
  rw [hCode]
  exact testBit_stepBits (Nat.lt_succ_of_le hCount)

theorem testBit_bitsOf {runs : List Run} {run : Run} {c : Char} (hRun : run ∈ runs)
    (h : run.has c = true) : (bitsOf runs).testBit c.toNat = true := by
  induction runs with
  | nil => contradiction
  | cons other runs ih =>
    rw [bitsOf, List.foldr_cons, Nat.testBit_or, Bool.or_eq_true]
    rcases List.mem_cons.mp hRun with rfl | hRest
    · exact .inl (Run.testBit_bits h)
    · exact .inr (ih hRest)

theorem not_has_of_bitsOf {runs others : List Run} (hApart : bitsOf runs &&& bitsOf others = 0)
    {run : Run} {c : Char} (hRun : run ∈ runs) (h : run.has c = true) :
    (others.any (Run.has · c)) = false := by
  refine List.any_eq_false.mpr fun other hOther hHas => ?_
  have hBoth : (bitsOf runs &&& bitsOf others).testBit c.toNat = true := by
    rw [Nat.testBit_and, testBit_bitsOf hRun h, testBit_bitsOf hOther hHas, Bool.and_self]
  simp [hApart] at hBoth

/-- The small letters for a run of capitals. -/
def CaseRun.smalls (run : CaseRun) : Run :=
  ⟨run.small, run.small + (run.capitals.last - run.capitals.first), run.capitals.step⟩

def blankRuns : List Run := blankRanges.map fun range => ⟨range.1, range.2, 1⟩

/-- The code points that no letter becomes: capital letters, blanks, and what stands before the
small letters of ASCII or between them and the letters of other alphabets. -/
def reservedRuns : List Run :=
  [⟨0, 0x60, 1⟩, ⟨0x7F, 0x9F, 1⟩] ++ blankRuns ++ uppercaseRuns ++ lowercaseRuns.map CaseRun.capitals

def isReserved (c : Char) : Bool := reservedRuns.any (Run.has · c)

theorem any_blankRuns (c : Char) : (blankRuns.any (Run.has · c)) = isBlank c := by
  simp [blankRuns, isBlank, inRanges, List.any_map, Run.has, Function.comp_def, Nat.mod_one]

theorem uppercase_apart : bitsOf uppercaseRuns &&& bitsOf blankRuns = 0 := by decide +kernel

theorem isBlank_of_isUppercase {c : Char} (h : isUppercase c = true) : isBlank c = false := by
  obtain ⟨run, hRun, hHas⟩ := List.any_eq_true.mp h
  rw [← any_blankRuns]
  exact not_has_of_bitsOf uppercase_apart hRun hHas

theorem smalls_apart :
    bitsOf (lowercaseRuns.map CaseRun.smalls) &&& bitsOf reservedRuns = 0 := by decide +kernel

theorem smalls_valid : (lowercaseRuns.all fun run => run.smalls.last < 0xD800 ||
    (0xDFFF < run.smalls.first && run.smalls.last < 0x110000)) = true := by decide +kernel

theorem toNat_ofNat {n : Nat} (h : n.isValidChar) : (Char.ofNat n).toNat = n := by
  rw [Char.ofNat, dif_pos h]
  rfl

theorem smalls_has {run : CaseRun} (hRun : run ∈ lowercaseRuns) {c : Char}
    (h : run.capitals.has c = true) :
    run.smalls.has (Char.ofNat (run.small + (c.toNat - run.capitals.first))) = true := by
  obtain ⟨hFirst, hLast, hStep⟩ := Run.has_iff.mp h
  have hValid := List.all_eq_true.mp smalls_valid run hRun
  simp only [Bool.or_eq_true, Bool.and_eq_true, decide_eq_true_eq] at hValid
  simp only [CaseRun.smalls] at hValid
  have hCode : (run.small + (c.toNat - run.capitals.first)).isValidChar := by
    rcases hValid with hLow | ⟨hHigh, hMax⟩
    · exact .inl (by omega)
    · exact .inr ⟨by omega, by omega⟩
  rw [Run.has_iff, toNat_ofNat hCode]
  refine ⟨Nat.le_add_right .., ?_, ?_⟩
  · simp only [CaseRun.smalls]
    omega
  · simpa [CaseRun.smalls] using hStep

theorem lowerChar_cases (c : Char) : lowerChar c = c ∨ isReserved (lowerChar c) = false := by
  rw [lowerChar]
  split
  · rename_i run hFound
    have hRun := List.mem_of_find?_eq_some hFound
    have hHas : run.capitals.has c = true := by simpa using List.find?_some hFound
    have hSmall := smalls_has hRun hHas
    exact .inr (not_has_of_bitsOf smalls_apart (List.mem_map_of_mem hRun) hSmall)
  · exact .inl rfl

section Reserved

variable {c : Char} (h : isReserved c = false)

include h

theorem not_has_of_not_isReserved {run : Run} (hRun : run ∈ reservedRuns) : run.has c = false := by
  simpa using List.any_eq_false.mp h run hRun

theorem code_of_not_isReserved : 0x60 < c.toNat ∧ (c.toNat < 0x7F ∨ 0x9F < c.toNat) := by
  have hLow : Run.has ⟨0, 0x60, 1⟩ c = false :=
    not_has_of_not_isReserved h (by simp [reservedRuns])
  have hGap : Run.has ⟨0x7F, 0x9F, 1⟩ c = false :=
    not_has_of_not_isReserved h (by simp [reservedRuns])
  simp [Run.has, Nat.mod_one] at hLow hGap
  omega

theorem isBlank_of_not_isReserved : isBlank c = false := by
  rw [← any_blankRuns]
  refine List.any_eq_false.mpr fun run hRun => ?_
  have hMem : run ∈ reservedRuns := by simp [reservedRuns, hRun]
  simp [not_has_of_not_isReserved h hMem]

theorem isUppercase_of_not_isReserved : isUppercase c = false := by
  refine List.any_eq_false.mpr fun run hRun => ?_
  have hMem : run ∈ reservedRuns := by simp [reservedRuns, hRun]
  simp [not_has_of_not_isReserved h hMem]

theorem lowerChar_of_not_isReserved : lowerChar c = c := by
  have hNone : lowercaseRuns.find? (·.capitals.has c) = none := by
    refine List.find?_eq_none.mpr fun run hRun => ?_
    have hMem : run.capitals ∈ reservedRuns := by
      simp only [reservedRuns, List.mem_append, List.mem_map]
      exact .inr ⟨run, hRun, rfl⟩
    simp [not_has_of_not_isReserved h hMem]
  rw [lowerChar, hNone]

end Reserved

/-! ### Small letters -/

/-- What a character becomes that follows `before`, which is reversed, and comes before `rest`. -/
def lowered (before : List Char) (c : Char) (rest : List Char) : List Char :=
  if c = '\u03A3' then
    if reachesCased before && !reachesCased rest then ['\u03C2'] else ['\u03C3']
  else if c = '\u0130' then ['i', '\u0307']
  else [lowerChar c]

theorem lowerFrom_cons (before : List Char) (c : Char) (rest : List Char) :
    lowerFrom before (c :: rest) = lowered before c rest ++ lowerFrom (c :: before) rest := rfl

/-- The character has no other small form than itself. -/
def IsFixed (c : Char) : Prop := lowercase [c] = [c]

theorem isFixed_iff {c : Char} :
    IsFixed c ↔ c ≠ '\u03A3' ∧ c ≠ '\u0130' ∧ lowerChar c = c := by
  have hSingle : lowercase [c] = lowered [] c [] := by
    rw [lowercase, lowerFrom_cons, lowerFrom, List.append_nil]
  rw [IsFixed, hSingle]
  by_cases hSigma : c = '\u03A3'
  · subst hSigma
    decide +kernel
  by_cases hDotted : c = '\u0130'
  · subst hDotted
    decide
  simp [lowered, hSigma, hDotted]

theorem IsFixed.lowered_eq {c : Char} (h : IsFixed c) (before rest : List Char) :
    lowered before c rest = [c] := by
  obtain ⟨hSigma, hDotted, hSame⟩ := isFixed_iff.mp h
  simp [lowered, hSigma, hDotted, hSame]

theorem isFixed_of_not_isReserved {c : Char} (h : isReserved c = false) : IsFixed c := by
  refine isFixed_iff.mpr ⟨?_, ?_, lowerChar_of_not_isReserved h⟩
  · rintro rfl
    exact absurd h (by decide +kernel)
  · rintro rfl
    exact absurd h (by decide +kernel)

theorem lowered_cases (before : List Char) (c : Char) (rest : List Char) :
    IsFixed c ∧ lowered before c rest = [c] ∨
      lowered before c rest ≠ [] ∧ ∀ d ∈ lowered before c rest, isReserved d = false := by
  by_cases hFixed : IsFixed c
  · exact .inl ⟨hFixed, hFixed.lowered_eq before rest⟩
  refine .inr ?_
  have hFinal : isReserved '\u03C2' = false := by decide +kernel
  have hSmall : isReserved '\u03C3' = false := by decide +kernel
  have hLetter : isReserved 'i' = false := by decide +kernel
  have hDot : isReserved '\u0307' = false := by decide +kernel
  unfold lowered
  split
  · split <;> simp [hFinal, hSmall]
  · rename_i hSigma
    split
    · simp [hLetter, hDot]
    · rename_i hDotted
      have hOther : lowerChar c ≠ c := fun hSame => hFixed (isFixed_iff.mpr ⟨hSigma, hDotted, hSame⟩)
      simpa using (lowerChar_cases c).resolve_left hOther

theorem mem_lowerFrom {d : Char} {before s : List Char} (h : d ∈ lowerFrom before s) :
    d ∈ s ∧ IsFixed d ∨ isReserved d = false := by
  induction s generalizing before with
  | nil => simp [lowerFrom] at h
  | cons c rest ih =>
    rw [lowerFrom_cons, List.mem_append] at h
    rcases h with hHere | hRest
    · rcases lowered_cases before c rest with ⟨hFixed, hSame⟩ | ⟨-, hSmall⟩
      · rw [hSame, List.mem_singleton] at hHere
        exact .inl ⟨by simp [hHere], hHere ▸ hFixed⟩
      · exact .inr (hSmall d hHere)
    · exact (ih hRest).imp_left fun ⟨hMem, hFixed⟩ => ⟨List.mem_cons_of_mem c hMem, hFixed⟩

theorem mem_lowerFrom_of_isFixed {c : Char} {before s : List Char} (hFixed : IsFixed c)
    (h : c ∈ s) : c ∈ lowerFrom before s := by
  induction s generalizing before with
  | nil => contradiction
  | cons d rest ih =>
    rw [lowerFrom_cons, List.mem_append]
    rcases List.mem_cons.mp h with rfl | hRest
    · exact .inl (by simp [hFixed.lowered_eq])
    · exact .inr (ih hRest)

theorem lowerFrom_of_isFixed {before s : List Char} (h : ∀ c ∈ s, IsFixed c) :
    lowerFrom before s = s := by
  induction s generalizing before with
  | nil => rfl
  | cons c rest ih =>
    obtain ⟨hHere, hRest⟩ := List.forall_mem_cons.mp h
    rw [lowerFrom_cons, hHere.lowered_eq, ih hRest, List.singleton_append]

theorem isFixed_of_mem_lowercase {c : Char} {s : List Char} (h : c ∈ lowercase s) : IsFixed c := by
  rcases mem_lowerFrom h with ⟨-, hFixed⟩ | hSmall
  · exact hFixed
  · exact isFixed_of_not_isReserved hSmall

theorem lowercase_lowercase (s : List Char) : lowercase (lowercase s) = lowercase s :=
  lowerFrom_of_isFixed fun _ => isFixed_of_mem_lowercase

theorem length_le_lowerFrom (before s : List Char) : s.length ≤ (lowerFrom before s).length := by
  induction s generalizing before with
  | nil => rfl
  | cons c rest ih =>
    have hHere : 0 < (lowered before c rest).length := by
      rcases lowered_cases before c rest with ⟨-, hSame⟩ | ⟨hne, -⟩
      · simp [hSame]
      · exact List.length_pos_iff.mpr hne
    rw [lowerFrom_cons, List.length_append, List.length_cons]
    have := ih (c :: before)
    omega

/-! ### Ends of text in small letters -/

theorem head?_lowerFrom {d : Char} {before s : List Char} (h : d ∈ (lowerFrom before s).head?) :
    d ∈ s.head? ∨ isReserved d = false := by
  cases s with
  | nil => simp [lowerFrom] at h
  | cons c rest =>
    rw [lowerFrom_cons] at h
    rcases lowered_cases before c rest with ⟨-, hSame⟩ | ⟨hne, hSmall⟩
    · exact .inl (by simpa [hSame] using h)
    · obtain ⟨first, more, hPiece⟩ := List.exists_cons_of_ne_nil hne
      rw [hPiece] at h hSmall
      obtain rfl : first = d := by simpa using h
      exact .inr (hSmall first (by simp))

theorem getLast?_lowerFrom {d : Char} {before s : List Char}
    (h : d ∈ (lowerFrom before s).getLast?) : d ∈ s.getLast? ∨ isReserved d = false := by
  induction s generalizing before with
  | nil => simp [lowerFrom] at h
  | cons c rest ih =>
    rw [lowerFrom_cons] at h
    cases rest with
    | nil =>
      rw [lowerFrom, List.append_nil] at h
      rcases lowered_cases before c [] with ⟨-, hSame⟩ | ⟨-, hSmall⟩
      · exact .inl (by simpa [hSame] using h)
      · exact .inr (hSmall d (List.mem_of_getLast? h))
    | cons next more =>
      have hRest : lowerFrom (c :: before) (next :: more) ≠ [] := by
        have := length_le_lowerFrom (c :: before) (next :: more)
        rw [List.length_cons] at this
        exact List.ne_nil_of_length_pos (by omega)
      rw [List.getLast?_append_of_ne_nil _ hRest] at h
      rw [List.getLast?_cons_cons]
      exact ih h

theorem Trimmed.lowercase {s : List Char} (h : Trimmed s) : Trimmed (lowercase s) := by
  refine ⟨fun c hc => ?_, fun c hc => ?_⟩
  · rcases head?_lowerFrom hc with hHead | hSmall
    · exact h.1 c hHead
    · exact isBlank_of_not_isReserved hSmall
  · rcases getLast?_lowerFrom hc with hLast | hSmall
    · exact h.2 c hLast
    · exact isBlank_of_not_isReserved hSmall

/-! ### Lone capitals -/

/-- Whether a capital letter has no small letter, such as the double-struck capitals. -/
def isLoneCapital (c : Char) : Bool := isUppercase c && lowercase [c] == [c]

theorem isLoneCapital_iff {c : Char} :
    isLoneCapital c = true ↔ isUppercase c = true ∧ IsFixed c := by
  simp [isLoneCapital, IsFixed]

/-- The capital letters in small-letter text are the lone capitals of the text. -/
theorem any_isUppercase_lowercase (s : List Char) :
    (lowercase s).any isUppercase = s.any isLoneCapital := by
  rw [Bool.eq_iff_iff, List.any_eq_true, List.any_eq_true]
  constructor
  · rintro ⟨c, hMem, hUpper⟩
    rcases mem_lowerFrom hMem with ⟨hOld, hFixed⟩ | hSmall
    · exact ⟨c, hOld, isLoneCapital_iff.mpr ⟨hUpper, hFixed⟩⟩
    · simp [isUppercase_of_not_isReserved hSmall] at hUpper
  · rintro ⟨c, hMem, hLone⟩
    obtain ⟨hUpper, hFixed⟩ := isLoneCapital_iff.mp hLone
    exact ⟨c, mem_lowerFrom_of_isFixed hFixed hMem, hUpper⟩

end RobotsTxt.Text
