import Mathlib.Data.Bool.AllAny
import Mathlib.Data.List.Chain
import RobotsTxt.Proofs.Concatenation
import RobotsTxt.Proofs.Markup
import RobotsTxt.Proofs.Trimming

/-! How the lines of a text are laid out does not matter.  A row is a line with blanks around it, a
comment or none, and one of the four ways to end a line.  What counts of a row is what counts of its
line, so a text made of rows has one directive for each line that counts, with the number of its
line. -/

namespace RobotsTxt

namespace Text

theorem not_mem_of_blank {blanks : List Char} (h : ∀ c ∈ blanks, isBlank c = true) {d : Char}
    (hd : isBlank d = false) : d ∉ blanks := by
  intro hMem
  have hBlank := h d hMem
  rw [hd] at hBlank
  contradiction

/-! ### Comments -/

theorem dropComment_append_of_not_mem {s : List Char} (h : '#' ∉ s) (t : List Char) :
    dropComment (s ++ t) = s ++ dropComment t := by
  refine List.takeWhile_append_of_pos fun c hc => decide_eq_true ?_
  rintro rfl
  exact h hc

theorem dropComment_of_not_mem {s : List Char} (h : '#' ∉ s) : dropComment s = s := by
  simpa [dropComment] using dropComment_append_of_not_mem h []

theorem dropComment_append_of_mem {s : List Char} (h : '#' ∈ s) (t : List Char) :
    dropComment (s ++ t) = dropComment s := by
  obtain ⟨a, b, rfl, hFirst⟩ := List.eq_append_cons_of_mem h
  rw [List.append_assoc, dropComment_append_of_not_mem hFirst,
    dropComment_append_of_not_mem hFirst]
  simp [dropComment]

/-! ### Rows -/

/-- How a line ends. -/
inductive Ending where
  | lineFeed
  | carriageReturn
  | both
  | nextLine
deriving DecidableEq, Repr

def Ending.text : Ending → List Char
  | .lineFeed => ['\n']
  | .carriageReturn => ['\r']
  | .both => ['\r', '\n']
  | .nextLine => ['\u0085']

/-- A line with blanks before and behind it, a comment or none, and its ending. -/
structure Row where
  line : List Char
  before : List Char
  after : List Char
  comment : Option (List Char)
  ending : Ending
  unbroken : ∀ c ∈ before ++ line ++ after ++ comment.getD [], isLineBreak c = false
  blank : ∀ c ∈ before ++ after, isBlank c = true

namespace Row

variable (r : Row)

def remark : List Char := r.comment.elim [] ('#' :: ·)

/-- The row without its ending. -/
def text : List Char := r.before ++ r.line ++ r.after ++ r.remark

theorem text_unbroken : ∀ c ∈ r.text, isLineBreak c = false := by
  intro c hc
  have hSign : isLineBreak '#' = false := by decide
  have hUnbroken := r.unbroken c
  simp only [text, remark, List.mem_append] at hc hUnbroken
  cases hComment : r.comment with
  | none =>
    simp only [hComment, Option.elim_none, List.not_mem_nil, or_false] at hc
    exact hUnbroken (.inl hc)
  | some comment =>
    simp only [hComment, Option.elim_some, List.mem_cons] at hc
    rcases hc with hRow | rfl | hMore
    · exact hUnbroken (.inl hRow)
    · exact hSign
    · exact hUnbroken (.inr (by simpa [hComment] using hMore))

/-- The comment goes, and what stays is the line with its blanks, those behind it only if the line
has no comment of its own. -/
theorem dropComment_text : ∃ rest, (∀ c ∈ rest, isBlank c = true) ∧
    dropComment r.text = r.before ++ (dropComment r.line ++ rest) := by
  have hBefore : '#' ∉ r.before :=
    not_mem_of_blank (fun c hc => r.blank c (by simp [hc])) (by decide)
  have hAfter : '#' ∉ r.after :=
    not_mem_of_blank (fun c hc => r.blank c (by simp [hc])) (by decide)
  have hRemark : dropComment r.remark = [] := by
    rw [remark]
    cases r.comment <;> simp [dropComment]
  have hText : dropComment r.text = r.before ++ dropComment (r.line ++ (r.after ++ r.remark)) := by
    rw [text, List.append_assoc, List.append_assoc, dropComment_append_of_not_mem hBefore]
  by_cases hSign : '#' ∈ r.line
  · exact ⟨[], by simp, by rw [hText, dropComment_append_of_mem hSign, List.append_nil]⟩
  · refine ⟨r.after, fun c hc => r.blank c (by simp [hc]), ?_⟩
    rw [hText, dropComment_append_of_not_mem hSign, dropComment_append_of_not_mem hAfter, hRemark,
      List.append_nil, dropComment_of_not_mem hSign]

theorem clean_text : clean r.text = clean r.line := by
  obtain ⟨rest, hRest, hText⟩ := r.dropComment_text
  have hBefore : ∀ c ∈ r.before, isBlank c = true := fun c hc => r.blank c (by simp [hc])
  have hOpen : '<' ∉ r.before := not_mem_of_blank hBefore (by decide)
  have hClose : '>' ∉ rest := not_mem_of_blank hRest (by decide)
  rw [clean, hText, dropTags_plain_append hOpen, dropTags_append_unclosed hClose,
    trim_blank_append hBefore, trim_append_blank hRest, clean]

end Row

/-! ### Texts made of rows -/

theorem lines_ending_append (ending : Ending) {rest : List Char}
    (h : ending = .carriageReturn → rest.head? ≠ some '\n') :
    lines (ending.text ++ rest) = [] :: lines rest := by
  cases ending with
  | both => simp [Ending.text, lines]
  | carriageReturn => exact lines_of_break rfl fun _ => h rfl
  | lineFeed | nextLine => exact lines_of_break rfl (by simp)

/-- A text made of rows. -/
def typeset (rows : List Row) : List Char := rows.flatMap fun r => r.text ++ r.ending.text

/-- No row that ends with a carriage return stands before an empty one that ends with a line feed:
the two would make one break. -/
def Parted (rows : List Row) : Prop :=
  rows.IsChain fun r next =>
    ¬(r.ending = .carriageReturn ∧ next.text = [] ∧ next.ending = .lineFeed)

instance (rows : List Row) : Decidable (Parted rows) :=
  inferInstanceAs (Decidable (rows.IsChain _))

theorem head?_typeset {r : Row} {rows : List Row}
    (h : (typeset (r :: rows)).head? = some '\n') : r.text = [] ∧ r.ending = .lineFeed := by
  cases hText : r.text with
  | nil =>
    refine ⟨rfl, ?_⟩
    rw [typeset, List.flatMap_cons, hText] at h
    cases hEnding : r.ending <;> simp [hEnding, Ending.text] at h ⊢
  | cons c text =>
    rw [typeset, List.flatMap_cons, hText] at h
    obtain rfl : c = '\n' := by simpa using h
    have hUnbroken := r.text_unbroken '\n' (by simp [hText])
    contradiction

theorem lines_typeset {rows : List Row} (h : Parted rows) :
    lines (typeset rows) = rows.map Row.text := by
  induction rows with
  | nil => rfl
  | cons r rows ih =>
    have hApart : r.ending = .carriageReturn → (typeset rows).head? ≠ some '\n' := by
      intro hReturn hHead
      cases rows with
      | nil => simp [typeset] at hHead
      | cons next rows =>
        exact (List.isChain_cons_cons.mp h).1 ⟨hReturn, head?_typeset hHead⟩
    have hEnding := lines_ending_append r.ending hApart
    rw [ih h.tail] at hEnding
    rw [typeset, List.flatMap_cons, List.append_assoc, ← typeset, List.map_cons]
    exact lines_unbroken_append r.text_unbroken hEnding

/-- Whether there is more on a line than blanks, markup and a comment. -/
def counts (line : List Char) : Bool := !(clean line).isEmpty

end Text

namespace Directive

open Text (Row typeset Parted counts)

/-- The directives of lines: one for each that counts, with its number from 1. -/
def ofLines (lines : List (List Char)) : List (Nat × Directive) :=
  (lines.zipIdx 1).filterMap fun (line, number) =>
    if counts line then some (number, ofLine (Text.clean line)) else none

theorem ofText_rows {rows : List Row} (h : Parted rows) :
    ofText (typeset rows) = ofLines (rows.map Row.line) := by
  have hClean : (rows.map Row.text).map Text.clean = (rows.map Row.line).map Text.clean := by
    simp only [List.map_map, Function.comp_def, Row.clean_text]
  rw [ofText, Text.lines_typeset h, hClean, ofLines, List.zipIdx_map, List.filterMap_map]
  refine List.filterMap_congr fun line _ => ?_
  by_cases hEmpty : Text.clean line.1 = [] <;> simp [counts, hEmpty]

/-- Without the numbers, only the lines that count matter. -/
theorem read_rows {rows : List Row} (h : Parted rows) : read (typeset rows) =
    ((rows.map Row.line).filter counts).filterMap (ofClean? ∘ Text.clean) := by
  rw [read_eq, Text.lines_typeset h, List.filterMap_filter, List.filterMap_map, List.filterMap_map]
  refine List.filterMap_congr fun r _ => ?_
  by_cases hEmpty : Text.clean r.line = [] <;>
    simp [counts, ofClean?, Row.clean_text, hEmpty]

end Directive

namespace RuleSet

open Text (Row Ending typeset Parted counts)

/-- The directives of a text are those of its lines, wherever blanks and comments stand and however
the lines end.  Lines that do not count change nothing but the numbers of the others, so with them
or without them the rule set is the same. -/
theorem ofText_typeset [Domains] {rows others : List Row} (hRows : Parted rows)
    (hOthers : Parted others) :
    Directive.ofText (typeset rows) = Directive.ofLines (rows.map Row.line) ∧
      ((rows.map Row.line).filter counts = (others.map Row.line).filter counts →
        Directive.read (typeset rows) = Directive.read (typeset others) ∧
          ∀ base, ofText base (typeset rows) = ofText base (typeset others)) := by
  refine ⟨Directive.ofText_rows hRows, fun hSame => ?_⟩
  have hRead : Directive.read (typeset rows) = Directive.read (typeset others) := by
    rw [Directive.read_rows hRows, Directive.read_rows hOthers, hSame]
  exact ⟨hRead, fun base => congrArg (ofDirectives base) hRead⟩

/-- An agent with a tag in its line, blanks around it and a comment that would close another tag. -/
def agentRow : Row where
  line := "User-agent: <b>a</b><".toList
  before := ['\t']
  after := ['\u00A0', ' ']
  comment := some "b> #".toList
  ending := .carriageReturn
  unbroken := List.all_iff_forall_prop.mp (by decide)
  blank := List.all_iff_forall_prop.mp (by decide +kernel)

/-- A rule on a row of its own. -/
def ruleRow (ending : Ending) : Row where
  line := "Disallow: /x".toList
  before := []
  after := []
  comment := none
  ending := ending
  unbroken := List.all_iff_forall_prop.mp (by decide)
  blank := by simp

/-- A row with nothing but a tag. -/
def tagRow : Row where
  line := "<hr>".toList
  before := []
  after := []
  comment := none
  ending := .nextLine
  unbroken := List.all_iff_forall_prop.mp (by decide)
  blank := by simp

theorem ofText_typeset_mixed :
    Parted [agentRow, ruleRow .both] ∧ Parted [tagRow, agentRow, tagRow, ruleRow .lineFeed] ∧
      (Directive.ofText (typeset [agentRow, ruleRow .both])).map (Prod.map id Directive.text) =
        [(1, "User-agent: a<"), (2, "Disallow: /x")] ∧
      ∀ base, ofText base (typeset [agentRow, ruleRow .both]) =
        ofText base (typeset [tagRow, agentRow, tagRow, ruleRow .lineFeed]) := by
  have hRows : Parted [agentRow, ruleRow .both] := by decide +kernel
  have hOthers : Parted [tagRow, agentRow, tagRow, ruleRow .lineFeed] := by decide +kernel
  obtain ⟨hText, hSame⟩ := ofText_typeset hRows hOthers
  refine ⟨hRows, hOthers, ?_, (hSame ?_).2⟩
  · rw [hText]
    decide +kernel
  · decide +kernel

end RuleSet

end RobotsTxt
