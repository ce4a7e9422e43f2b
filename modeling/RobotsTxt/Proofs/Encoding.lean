import RobotsTxt.Proofs.NormalForm

/-! What the escapes of a URL do to a path.  The normal form of an escaped text is that of the text
itself but for the characters that are escaped there and plain in the normal form; where there is
such a character it is longer, and so it is another. -/

namespace RobotsTxt

/-! ### Lists made piece by piece -/

section

variable {α β : Type} {f g : α → List β} {l : List α}

theorem length_flatMap_le (h : ∀ a ∈ l, f a = g a ∨ (f a).length < (g a).length) :
    (l.flatMap f).length ≤ (l.flatMap g).length := by
  induction l with
  | nil => simp
  | cons a l ih =>
    obtain ⟨hFirst, hRest⟩ := List.forall_mem_cons.mp h
    have hTail := ih hRest
    simp only [List.flatMap_cons, List.length_append]
    rcases hFirst with hSame | hLonger
    · rw [hSame]
      omega
    · omega

/-- Lists made of parts that are the same or longer are the same if all parts are. -/
theorem flatMap_eq_iff (h : ∀ a ∈ l, f a = g a ∨ (f a).length < (g a).length) :
    l.flatMap f = l.flatMap g ↔ ∀ a ∈ l, f a = g a := by
  refine ⟨fun hSame => ?_, List.flatMap_congr⟩
  induction l with
  | nil => simp
  | cons a l ih =>
    obtain ⟨hFirst, hRest⟩ := List.forall_mem_cons.mp h
    have hTail := length_flatMap_le hRest
    simp only [List.flatMap_cons] at hSame
    have hHead : f a = g a := by
      refine hFirst.resolve_right fun hLonger => ?_
      have hLength := congrArg List.length hSame
      simp only [List.length_append] at hLength
      omega
    rw [hHead] at hSame
    exact List.forall_mem_cons.mpr ⟨hHead, ih hRest (List.append_cancel_left hSame)⟩

end

namespace Percent

/-! ### Normal forms of escaped texts -/

/-- The normal form of a piece where the characters of a set are escaped before. -/
def Piece.normalOf (set : Char → Bool) : Piece → List Char
  | .char c => if set c then escapeChar c else (Piece.char c).normal
  | p => p.normal

theorem normalize_stray {s : List Char}
    (h : ∀ high low rest, s = high :: low :: rest → byte? high low = none) :
    normalize ('%' :: s) = Piece.stray.normal ++ normalize s := by
  rw [normalize, scan_stray h, List.flatMap_cons]
  rfl

theorem normalize_escaped {high low : Char} {byte : UInt8} (h : byte? high low = some byte)
    (s : List Char) :
    normalize ('%' :: high :: low :: s) = (Piece.escaped byte).normal ++ normalize s := by
  rw [normalize, scan_escaped h, List.flatMap_cons]
  rfl

/-- A set of characters to escape: none of them is a percent sign or unreserved. -/
def Escapable (set : Char → Bool) : Prop :=
  ∀ c, set c = true → isUnreserved c = false ∧ c ≠ '%'

theorem exists_escapeChar_eq (c : Char) : ∃ rest, escapeChar c = '%' :: rest := by
  obtain ⟨byte, bytes, hBytes⟩ := List.exists_cons_of_ne_nil (String.utf8EncodeChar_ne_nil (c := c))
  exact ⟨_, by rw [escapeChar, hBytes, List.flatMap_cons]; rfl⟩

variable {set : Char → Bool}

theorem encode_cons (c : Char) (s : List Char) :
    Url.encode set (c :: s) = (if set c then escapeChar c else [c]) ++ Url.encode set s := rfl

/-- An escaped text starts with an escape or with its own first character. -/
theorem encode_eq_cons {s rest : List Char} {c : Char} (h : Url.encode set s = c :: rest) :
    (∃ d more, s = d :: more ∧ set d = true ∧ c = '%' ∧
      escapeChar d ++ Url.encode set more = '%' :: rest) ∨
    ∃ more, s = c :: more ∧ Url.encode set more = rest := by
  cases s with
  | nil => contradiction
  | cons d s =>
    rw [encode_cons] at h
    split at h
    · rename_i hSet
      obtain ⟨more, hEscape⟩ := exists_escapeChar_eq d
      rw [hEscape, List.cons_append] at h
      obtain ⟨rfl, rfl⟩ := List.cons_eq_cons.mp h
      exact .inl ⟨d, s, rfl, hSet, rfl, by rw [hEscape]; rfl⟩
    · obtain ⟨rfl, rfl⟩ := List.cons_eq_cons.mp h
      exact .inr ⟨s, rfl, rfl⟩

/-- Characters that are escaped complete no escape. -/
theorem byte?_eq_none_of_encode {s : List Char}
    (h : ∀ high low rest, s = high :: low :: rest → byte? high low = none) :
    ∀ high low rest, Url.encode set s = high :: low :: rest → byte? high low = none := by
  have hPercent : Text.digitValue? '%' = none := by decide
  intro high low rest hEncode
  rcases encode_eq_cons hEncode with ⟨-, -, -, -, rfl, -⟩ | ⟨more, rfl, hMore⟩
  · exact byte?_eq_none (.inl hPercent)
  · rcases encode_eq_cons hMore with ⟨-, -, -, -, rfl, -⟩ | ⟨more, rfl, -⟩
    · exact byte?_eq_none (.inr hPercent)
    · exact h high low more rfl

theorem normalize_encode (hSet : Escapable set) (s : List Char) :
    normalize (Url.encode set s) = (scan s).flatMap (Piece.normalOf set) := by
  have hPercent : set '%' = false := by
    rw [Bool.eq_false_iff]
    exact fun h => (hSet _ h).2 rfl
  have hDigit : ∀ c, Text.digitValue? c ≠ none → set c = false := by
    intro c hDigit
    rw [Bool.eq_false_iff]
    exact fun h => hDigit (digitValue?_eq_none (hSet _ h).1)
  have hStray : ∀ t, (∀ high low rest, t = high :: low :: rest → byte? high low = none) →
      normalize (Url.encode set t) = (scan t).flatMap (Piece.normalOf set) →
      normalize (Url.encode set ('%' :: t)) = (scan ('%' :: t)).flatMap (Piece.normalOf set) := by
    intro t hNone ih
    rw [encode_cons, if_neg (by simp [hPercent]), List.cons_append, List.nil_append,
      normalize_stray (byte?_eq_none_of_encode hNone), scan_stray hNone, ih, List.flatMap_cons]
    rfl
  induction s using scan.induct with
  | case1 high low rest byte hByte ih =>
    have hHigh : set high = false := hDigit high fun h => by
      simp [byte?_eq_none (.inl h)] at hByte
    have hLow : set low = false := hDigit low fun h => by
      simp [byte?_eq_none (.inr h)] at hByte
    simp only [encode_cons, hPercent, hHigh, hLow, Bool.false_eq_true, if_false, List.cons_append,
      List.nil_append]
    rw [normalize_escaped hByte, scan_escaped hByte, ih, List.flatMap_cons]
    rfl
  | case2 high low rest hByte ih =>
    refine hStray _ ?_ ih
    rintro x y z ⟨⟩
    exact hByte
  | case3 c rest hShort ih =>
    by_cases hc : c = '%'
    · subst hc
      exact hStray rest (fun x y z hRest => absurd hRest (hShort x y z rfl)) ih
    · rw [encode_cons, scan_cons_of_ne hc, List.flatMap_cons, ← ih, Piece.normalOf]
      split
      · rename_i h
        exact normalize_escapeChar (hSet c h).1 _
      · exact normalize_cons_of_ne hc _
  | case4 => rfl

theorem one_lt_length_escapeChar (c : Char) : 1 < (escapeChar c).length := by
  obtain ⟨byte, bytes, hBytes⟩ := List.exists_cons_of_ne_nil (String.utf8EncodeChar_ne_nil (c := c))
  rw [escapeChar, hBytes, List.flatMap_cons]
  simp [escape]

theorem normal_eq_normalOf_iff {c : Char} : (Piece.char c).normal = (Piece.char c).normalOf set ↔
    (set c = true → isPlain c = false) := by
  by_cases hSet : set c = true
  · by_cases hPlain : isPlain c = true
    · have hLonger := one_lt_length_escapeChar c
      simp only [Piece.normal, Piece.normalOf, hSet, hPlain, if_true]
      refine iff_of_false (fun hSame => ?_) (by simp)
      rw [← hSame] at hLonger
      exact absurd hLonger (by simp)
    · simp [Piece.normal, Piece.normalOf, hSet, hPlain]
  · simp [Piece.normalOf, hSet]

/-- A piece is the same or longer where characters are escaped before. -/
theorem normalOf_cases (p : Piece) :
    p.normal = p.normalOf set ∨ p.normal.length < (p.normalOf set).length := by
  cases p with
  | escaped byte => exact .inl rfl
  | stray => exact .inl rfl
  | char c =>
    by_cases hSame : (Piece.char c).normal = (Piece.char c).normalOf set
    · exact .inl hSame
    · obtain ⟨hSet, hPlain⟩ := Classical.not_imp.mp (mt normal_eq_normalOf_iff.mpr hSame)
      refine .inr ?_
      rw [Bool.not_eq_false] at hPlain
      simpa [Piece.normal, Piece.normalOf, hSet, hPlain] using one_lt_length_escapeChar c

theorem char_mem_scan {c : Char} {s : List Char} (h : c ∈ s) (hUnreserved : isUnreserved c = false)
    (hPercent : c ≠ '%') : .char c ∈ scan s := by
  obtain ⟨before, after, rfl⟩ := List.append_of_mem h
  have hDigit : ∀ d ∈ (c :: after).head?, Text.digitValue? d = none := by
    simpa using digitValue?_eq_none hUnreserved
  rw [scan_append hDigit, scan_cons_of_ne hPercent]
  simp

/-- Escaping a set of characters leaves the normal form as it is if none of them is plain. -/
theorem normalize_encode_eq_iff (hSet : Escapable set) (s : List Char) :
    normalize (Url.encode set s) = normalize s ↔ ∀ c ∈ s, set c = true → isPlain c = false := by
  rw [normalize_encode hSet, eq_comm, normalize, flatMap_eq_iff fun p _ => normalOf_cases p]
  constructor
  · intro hSame c hMem hc
    obtain ⟨hUnreserved, hPercent⟩ := hSet c hc
    exact normal_eq_normalOf_iff.mp (hSame _ (char_mem_scan hMem hUnreserved hPercent)) hc
  · intro hPlain p hMem
    cases p with
    | escaped byte => rfl
    | stray => rfl
    | char c => exact normal_eq_normalOf_iff.mpr (hPlain c (mem_of_char_mem_scan hMem))

theorem length_normalize_le_encode (hSet : Escapable set) (s : List Char) :
    (normalize s).length ≤ (normalize (Url.encode set s)).length := by
  rw [normalize_encode hSet]
  exact length_flatMap_le fun p _ => normalOf_cases p

end Percent

end RobotsTxt
