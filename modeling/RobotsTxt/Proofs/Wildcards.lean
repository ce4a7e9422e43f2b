import RobotsTxt.Proofs.StrayPercent
import RobotsTxt.Proofs.Trimming

/-! Stars that make no difference.  A star beside another one, or at the end of a pattern that is not
tied to the end of the path, is one more literal to find, and an empty one.  It can send the matcher
another way, but it can be found anywhere, and so the pattern matches the same paths. -/

namespace RobotsTxt.Pattern

/-! ### Empty literals -/

/-- An empty literal before another one takes no room that the gap before that one would not. -/
theorem fits_nil_cons_iff {anchored : Bool} {literals : List (List Char)} {path : List Char}
    (h : literals ≠ []) : Fits anchored ([] :: literals) path ↔ Fits anchored literals path := by
  obtain ⟨literal, literals, rfl⟩ := List.exists_cons_of_ne_nil h
  constructor
  · rintro ⟨gap, rest, rfl, hFits⟩
    simpa using hFits.append_left gap
  · intro hFits
    exact ⟨[], path, rfl, hFits⟩

/-- Behind the last literal an empty one takes all that is left, as an open end does. -/
theorem fits_nil_iff {anchored : Bool} {path : List Char} :
    Fits anchored [[]] path ↔ Fits false [] path := by
  refine iff_of_true ⟨path, [], by simp, fun _ => rfl⟩ nofun

/-- The literals before may stay as they are. -/
theorem fits_append_congr {anchored anchored' : Bool} {more others : List (List Char)}
    (h : ∀ path, Fits anchored more path ↔ Fits anchored' others path)
    (literals : List (List Char)) (path : List Char) :
    Fits anchored (literals ++ more) path ↔ Fits anchored' (literals ++ others) path := by
  induction literals generalizing path with
  | nil => exact h path
  | cons literal literals ih =>
    refine exists_congr fun gap => exists_congr fun rest => and_congr_right fun _ => ?_
    exact ih rest

/-! ### Values with a star -/

theorem splitAnchor_append_star (s t : List Char) :
    splitAnchor (s ++ '*' :: t) = (s ++ '*' :: (splitAnchor t).1, (splitAnchor t).2) := by
  by_cases hLast : ∃ body, t = body ++ ['$']
  · obtain ⟨body, rfl⟩ := hLast
    rw [← List.cons_append, ← List.append_assoc, splitAnchor_append, splitAnchor_append]
  · have hNot : ∀ body, s ++ '*' :: t ≠ body ++ ['$'] := by
      intro body hBody
      obtain rfl | ⟨t, c, rfl⟩ := List.eq_nil_or_concat t
      · have hStar := List.append_inj_right' hBody rfl
        simp at hStar
      · rw [List.concat_eq_append, ← List.cons_append, ← List.append_assoc] at hBody
        have hDollar := List.append_inj_right' hBody rfl
        exact hLast ⟨t, by rw [List.concat_eq_append, hDollar]⟩
    rw [splitAnchor_of_ne hNot, splitAnchor_of_ne fun body hBody => hLast ⟨body, hBody⟩]

theorem rooted_append_star (s t : List Char) : rooted (s ++ '*' :: t) = rooted s ++ '*' :: t := by
  cases s with
  | nil => rfl
  | cons c s =>
    rw [List.cons_append, rooted, rooted]
    split <;> rfl

/-- A star parts what stands before it from what stands behind it. -/
theorem reads_star {raw : String} {s t : List Char} (h : Text.trim raw.toList = s ++ '*' :: t) :
    Reads raw (splitAnchor t).2
      ((rooted s).splitOn '*' ++ (splitAnchor t).1.splitOn '*') := by
  refine reads_iff.mpr ⟨s ++ '*' :: (splitAnchor t).1, ?_, ?_⟩
  · rw [h, splitAnchor_append_star]
  · rw [rooted_append_star, List.splitOn_append_cons_self]

/-- Values that read with the same first segment match the same paths if the other segments fit the
same texts. -/
theorem matchesPath_congr {raw raw' : String} {anchored anchored' : Bool}
    {segments more more' : List (List Char)} (hSegments : segments ≠ [])
    (h : Reads raw anchored (segments ++ more)) (h' : Reads raw' anchored' (segments ++ more'))
    (hFits : ∀ path, Fits anchored (more.map Percent.normalize) path ↔
      Fits anchored' (more'.map Percent.normalize) path) (path : String) :
    (ofText raw).matchesPath path = (ofText raw').matchesPath path := by
  obtain ⟨first, rest, rfl⟩ := List.exists_cons_of_ne_nil hSegments
  rw [List.cons_append] at h h'
  rw [Bool.eq_iff_iff, matchesPath, matchesPath, matchesNormal_ofText_iff h,
    matchesNormal_ofText_iff h']
  refine exists_congr fun after => and_congr_right fun _ => ?_
  rw [List.map_append, List.map_append]
  exact fits_append_congr hFits _ after

theorem hasStray_append_star (s t : List Char) :
    HasStray (s ++ '*' :: t) ↔ HasStray s ∨ HasStray t := by
  simp only [HasStray, List.splitOn_append_cons_self, List.mem_append, or_and_right, exists_or]

/-! ### Longer values that say the same -/

/-- The second value has `n` characters more and says the same: its pattern matches the same paths,
and it has a stray percent sign if the other has. -/
structure SaysSame (n : Nat) (raw longer : String) : Prop where
  matchesPath : ∀ path, (ofText longer).matchesPath path = (ofText raw).matchesPath path
  malformed : malformed longer = malformed raw
  specificity : (ofText longer).specificity = (ofText raw).specificity + n

theorem SaysSame.refl (raw : String) : SaysSame 0 raw raw :=
  ⟨fun _ => rfl, rfl, (Nat.add_zero _).symm⟩

theorem SaysSame.trans {m n : Nat} {raw longer longest : String} (h : SaysSame m raw longer)
    (h' : SaysSame n longer longest) : SaysSame (m + n) raw longest where
  matchesPath path := (h'.matchesPath path).trans (h.matchesPath path)
  malformed := h'.malformed.trans h.malformed
  specificity := by rw [h'.specificity, h.specificity, Nat.add_assoc]

variable {raw longer : String} {s t : List Char}

/-- A star behind a value that is not tied to the end of the path, and with the star an anchor. -/
theorem saysSame_end (h : ∀ body, Text.trim raw.toList ≠ body ++ ['$']) (ht : t = [] ∨ t = ['$'])
    (hLonger : Text.trim longer.toList = Text.trim raw.toList ++ '*' :: t) :
    SaysSame (t.length + 1) raw longer := by
  have hEnd : (splitAnchor t).1 = [] := by rcases ht with rfl | rfl <;> rfl
  have hStray : ¬HasStray t := by rcases ht with rfl | rfl <;> decide
  have hReads : Reads raw false ((rooted (Text.trim raw.toList)).splitOn '*' ++ []) :=
    reads_iff.mpr ⟨_, splitAnchor_of_ne h, List.append_nil _⟩
  have hReadsLonger := reads_star hLonger
  rw [hEnd, List.splitOn_nil] at hReadsLonger
  refine ⟨matchesPath_congr (List.splitOn_ne_nil _ _) hReadsLonger hReads fun _ => fits_nil_iff,
    ?_, ?_⟩
  · rw [Bool.eq_iff_iff, malformed_iff, malformed_iff, hLonger, hasStray_append_star,
      or_iff_left hStray]
  · rw [specificity_ofText, specificity_ofText, hLonger, List.length_append, List.length_cons]

/-- A star beside another one. -/
theorem saysSame_star (h : Text.trim raw.toList = s ++ '*' :: t)
    (hLonger : Text.trim longer.toList = s ++ '*' :: '*' :: t) :
    SaysSame 1 raw longer ∧ (ofText longer).anchored = (ofText raw).anchored := by
  have hAnchor := splitAnchor_append_star [] t
  have hStray := hasStray_append_star [] t
  have hNone : ¬HasStray [] := by decide
  have hReads := reads_star h
  have hReadsLonger := reads_star hLonger
  rw [List.nil_append] at hAnchor hStray
  rw [hAnchor, List.splitOn_append_cons_self, List.splitOn_nil] at hReadsLonger
  refine ⟨⟨?_, ?_, ?_⟩, ?_⟩
  · refine matchesPath_congr (List.splitOn_ne_nil _ _) hReadsLonger hReads fun path => ?_
    exact fits_nil_cons_iff (by simp)
  · rw [Bool.eq_iff_iff, malformed_iff, malformed_iff, h, hLonger, hasStray_append_star,
      hasStray_append_star, hStray, or_iff_right hNone]
  · simp only [specificity_ofText, h, hLonger, List.length_append, List.length_cons]
    omega
  · rw [(literals_ofText hReadsLonger).1, (literals_ofText hReads).1]

def stars (n : Nat) : String := String.ofList (List.replicate n '*')

theorem trim_stars (s t : String) (n : Nat) : Text.trim (s ++ stars (n + 1) ++ t).toList =
    Text.trimStart s.toList ++ '*' :: (List.replicate n '*' ++ Text.trimEnd t.toList) := by
  have hStar : Text.isBlank '*' = false := by decide
  have hEnd : Text.trimEnd (List.replicate n '*' ++ t.toList) =
      List.replicate n '*' ++ Text.trimEnd t.toList := by
    cases n with
    | zero => rfl
    | succ n =>
      simp only [List.replicate_succ', List.append_assoc, List.singleton_append]
      exact Text.rdropWhile_append_cons hStar _ _
  rw [String.toList_append, String.toList_append, stars, String.toList_ofList, List.append_assoc,
    List.replicate_succ, List.cons_append, Text.trim_append_cons hStar, hEnd]

/-- A run of stars says the same as one star. -/
theorem saysSame_stars (s t : String) (n : Nat) :
    SaysSame n (s ++ "*" ++ t) (s ++ stars (n + 1) ++ t) ∧
      (ofText (s ++ stars (n + 1) ++ t)).anchored = (ofText (s ++ "*" ++ t)).anchored := by
  induction n with
  | zero => exact ⟨.refl _, rfl⟩
  | succ n ih =>
    obtain ⟨hSame, hAnchored⟩ := saysSame_star (trim_stars s t n) (trim_stars s t (n + 1))
    exact ⟨ih.1.trans hSame, hAnchored.trans ih.2⟩

/-- A star at the end of a trimmed value that is not tied to the end of the path changes nothing but
the specificity, and with the star the value may just as well be tied to the end.  A run of stars
says the same as one star, whatever stands before and behind it, and is tied to the end if that is.
Only the specificity grows, by one for each character. -/
theorem matchesPath_stars :
    (∀ value : String, Text.trim value.toList = value.toList →
      value.toList.getLast? ≠ some '$' →
        SaysSame 1 value (value ++ "*") ∧ SaysSame 2 value (value ++ "*$")) ∧
    ∀ (s t : String) (n : Nat), SaysSame n (s ++ "*" ++ t) (s ++ stars (n + 1) ++ t) ∧
      (ofText (s ++ stars (n + 1) ++ t)).anchored = (ofText (s ++ "*" ++ t)).anchored := by
  refine ⟨fun value hTrim hLast => ?_, saysSame_stars⟩
  have hStart : Text.trimStart value.toList = value.toList :=
    Text.trimStart_eq_self (Text.trimmed_of_trim_eq hTrim).1
  have hOpen : ∀ body, Text.trim value.toList ≠ body ++ ['$'] := by
    intro body hBody
    rw [hTrim] at hBody
    exact hLast (by simp [hBody])
  have hStar : ∀ t, Text.trim (value.toList ++ '*' :: t) =
      Text.trim value.toList ++ '*' :: Text.trimEnd t := by
    intro t
    rw [Text.trim_append_cons (by decide), hStart, hTrim]
  constructor
  · refine saysSame_end hOpen (.inl rfl) ?_
    rw [String.toList_append]
    exact hStar []
  · refine saysSame_end hOpen (.inr rfl) ?_
    rw [String.toList_append]
    exact hStar ['$']

/-- A value that does not start at the root and has a stray percent sign next to its star. -/
theorem matchesPath_stars_percent :
    (Text.trim "%*2f".toList = "%*2f".toList ∧ "%*2f".toList.getLast? ≠ some '$' ∧
      SaysSame 2 "%*2f" "%*2f*$") ∧
    (ofText "%*2f*$").matchesPath "/%/2f?b" = true ∧
    (ofText "%***2f*$").matchesPath "/%/2f?b" = true ∧ (ofText "%***2f*$").specificity = 8 := by
  have hTrim : Text.trim "%*2f".toList = "%*2f".toList := by decide
  have hLast : "%*2f".toList.getLast? ≠ some '$' := by decide
  have hEnd : SaysSame 2 "%*2f" "%*2f*$" := (matchesPath_stars.1 "%*2f" hTrim hLast).2
  have hRun : SaysSame 2 "%*2f*$" "%***2f*$" := (matchesPath_stars.2 "%" "2f*$" 2).1
  have hMatch : (ofText "%*2f*$").matchesPath "/%/2f?b" = true :=
    (hEnd.matchesPath _).trans (by decide)
  exact ⟨⟨hTrim, hLast, hEnd⟩, hMatch, (hRun.matchesPath _).trans hMatch,
    hRun.specificity.trans (by decide)⟩

end RobotsTxt.Pattern
