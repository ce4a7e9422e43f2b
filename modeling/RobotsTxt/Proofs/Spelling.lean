import RobotsTxt.Proofs.Glob
import RobotsTxt.Proofs.Grouping
import RobotsTxt.Proofs.NormalForm
import RobotsTxt.Proofs.References
import RobotsTxt.Settings

/-! Which targets get the same answers.  Rules see the normal form of a path, but the robots.txt is
exempt from them by the spelling of its path; two targets that agree in both get the same answer from
every policy.  Nothing less will do, since a directive can disallow a single normal form. -/

namespace RobotsTxt

/-! ### Values for one path -/

theorem Text.trim_eq_self {first last : Char} {s : List Char} (hFirst : isBlank first = false)
    (hLast : isBlank last = false) : trim (first :: s ++ [last]) = first :: s ++ [last] := by
  simp [trim, trimStart, trimEnd, hFirst, hLast]

namespace Pattern

/-- The directive value for the paths of one normal form. -/
def exactly (path : List Char) : String := String.ofList (Percent.normalize path ++ ['$'])

variable {rest : List Char}

/-- A value from the root of the path without a star and tied to the end is one segment. -/
theorem reads_anchored (h : '*' ∉ rest) :
    Reads (String.ofList ('/' :: rest ++ ['$'])) true ['/' :: rest] := by
  have hTrim : Text.trim ('/' :: rest ++ ['$']) = '/' :: rest ++ ['$'] :=
    Text.trim_eq_self (by decide) (by decide)
  refine reads_iff.mpr ⟨'/' :: rest, ?_, ?_⟩
  · rw [String.toList_ofList, hTrim, splitAnchor_append]
  · rw [rooted, if_pos (by simp), List.splitOn_eq_singleton (by simpa using h)]

/-- Such a value matches the paths of its own normal form. -/
theorem matchesNormal_anchored (h : '*' ∉ rest) {path : List Char} :
    (ofText (String.ofList ('/' :: rest ++ ['$']))).matchesNormal path = true ↔
      path = Percent.normalize ('/' :: rest) := by
  rw [matchesNormal_ofText_iff (reads_anchored h)]
  simp [Fits]

theorem normalize_slash (rest : List Char) :
    Percent.normalize ('/' :: rest) = '/' :: Percent.normalize rest :=
  Percent.normalize_cons_of_isPlain (by decide) rest

theorem trim_exactly :
    Text.trim (exactly ('/' :: rest)).toList = Percent.normalize ('/' :: rest) ++ ['$'] := by
  rw [exactly, String.toList_ofList, normalize_slash]
  exact Text.trim_eq_self (by decide) (by decide)

theorem matchesNormal_exactly {path : List Char} :
    (ofText (exactly ('/' :: rest))).matchesNormal path = true ↔
      path = Percent.normalize ('/' :: rest) := by
  have hStarless : '*' ∉ Percent.normalize rest := by
    intro hStar
    rcases Percent.mem_normalize hStar with h | h | ⟨h, -⟩ <;> exact absurd h (by decide)
  rw [exactly, normalize_slash, matchesNormal_anchored hStarless, ← normalize_slash,
    Percent.normalize_normalize]

end Pattern

/-! ### Files with one rule -/

namespace Policy

/-- The policy for a crawler without a name where a file disallows one value for everyone. -/
def disallowing [Domains] (value : String) : Policy :=
  Settings.standard.policy [] (RuleSet.ofDirectives none [.userAgent "*", .rule .disallow value])

theorem access_disallowing [Domains] (value : String) :
    (disallowing value).access = .byRules [Rule.ofValue .disallow value] none := by
  have hGroups : (RuleSet.ofDirectives none [.userAgent "*", .rule .disallow value]).groups =
      [⟨⟨[], true⟩, [Rule.ofValue .disallow value], []⟩] := by rfl
  have hSelected : Settings.standard.selected []
      [⟨⟨[], true⟩, [Rule.ofValue .disallow value], []⟩] =
      [⟨⟨[], true⟩, [Rule.ofValue .disallow value], []⟩] := rfl
  simp [disallowing, Settings.policy, Settings.access, hGroups, hSelected, Settings.crawlDelay,
    Settings.refuses, Rule.inPrecedence]

/-- Rules decide, and they disallow a path in normal form. -/
def Disallows (p : Policy) (path : List Char) : Prop :=
  ∃ rules delay, p.access = .byRules rules delay ∧ allowsPath rules path = false

end Policy

namespace Target

section

variable [Domains]

/-- The text that patterns are compared with. -/
def normalPath (target : String) : List Char := Percent.normalize (pathAndQuery target).toList

/-- Whether the target is the robots.txt itself. -/
def IsRobots (target : String) : Prop := pathAndQuery target = "/robots.txt"

/-- Every path starts at the root. -/
theorem exists_pathAndQuery_eq (target : String) :
    ∃ rest, (pathAndQuery target).toList = '/' :: rest := by
  unfold pathAndQuery
  split
  · exact ⟨_, String.toList_ofList⟩
  · split
    · rename_i url hUrl
      rw [String.toList_ofList, ofUrl]
      have hHierarchical := (Option.filter_eq_some_iff.mp hUrl).2
      cases hPath : url.path with
      | rootless text => simp [isHierarchical, hPath] at hHierarchical
      | rooted segments =>
        cases segments with
        | nil => exact ⟨_, rfl⟩
        | cons segment segments => exact ⟨_, rfl⟩
    · exact ⟨_, String.toList_ofList⟩

theorem pathAndQuery_slash (rest : List Char) : pathAndQuery (String.ofList ('/' :: rest)) =
    String.ofList ('/' :: (Url.Reference.cut '#' rest).1) := by
  simp only [pathAndQuery, String.toList_ofList, Url.Reference.cut_eq]

theorem pathAndQuery_of_slash {rest : List Char} (h : '#' ∉ rest) :
    pathAndQuery (String.ofList ('/' :: rest)) = String.ofList ('/' :: rest) := by
  rw [pathAndQuery_slash, Url.Reference.cut_of_not_mem h]

theorem pathAndQuery_of_ne_slash {s : List Char} (h : s.head? ≠ some '/') :
    pathAndQuery (String.ofList s) =
      (((Url.ofText? s).filter isHierarchical).map fun url => String.ofList (ofUrl url)).getD
        (String.ofList ('/' :: s)) := by
  unfold pathAndQuery
  rw [String.toList_ofList]
  split
  · simp at h
  · split
    · rename_i hUrl
      rw [hUrl]
      rfl
    · rename_i hUrl
      rw [hUrl]
      rfl

theorem allows_iff {p : Policy} {rules : List Rule} {delay : Option Nat}
    (h : p.access = .byRules rules delay) (target : String) : p.allows target = true ↔
      IsRobots target ∨ Policy.allowsPath rules (normalPath target) = true := by
  simp only [Policy.allows, h, Bool.or_eq_true, decide_eq_true_eq]
  rfl

theorem allows_disallowing (value target : String) : (Policy.disallowing value).allows target =
    (decide (pathAndQuery target = "/robots.txt") ||
      Policy.allowsPath [Rule.ofValue .disallow value] (normalPath target)) := by
  simp only [Policy.allows, Policy.access_disallowing]
  rfl

/-- The rule against the path of a target disallows the targets of the same normal form. -/
theorem allows_disallowing_iff (target path : String) :
    (Policy.disallowing (Pattern.exactly (pathAndQuery path).toList)).allows target = true ↔
      IsRobots target ∨ normalPath target ≠ normalPath path := by
  obtain ⟨rest, hPath⟩ := exists_pathAndQuery_eq path
  have hPattern : (Pattern.ofText (Pattern.exactly ('/' :: rest))).matchesNormal
      (normalPath target) = true ↔ normalPath target = normalPath path := by
    rw [Pattern.matchesNormal_exactly, normalPath, normalPath, hPath]
  rw [allows_disallowing, Bool.or_eq_true, decide_eq_true_eq, hPath, Rule.ofValue_eq,
    Pattern.trim_exactly, if_neg (by simp)]
  refine or_congr Iff.rfl ?_
  by_cases hSame : normalPath target = normalPath path
  · rw [hSame] at hPattern ⊢
    simp [Policy.allowsPath, Rule.allows, hPattern.mpr rfl]
  · have hNot := mt hPattern.mp hSame
    simp [Policy.allowsPath, hNot, hSame]

/-! ### Targets told apart -/

/-- Two targets get the same answer from every policy. -/
def Alike (u v : String) : Prop := ∀ p : Policy, p.allows u = p.allows v

/-- A file with one rule, for everyone, allows one of two targets and not the other. -/
def ToldApart (u v : String) : Prop :=
  ∃ value, (Policy.disallowing value).allows u ≠ (Policy.disallowing value).allows v

theorem ToldApart.not_alike {u v : String} (h : ToldApart u v) : ¬Alike u v := by
  obtain ⟨value, hDiffer⟩ := h
  exact fun hAlike => hDiffer (hAlike _)

/-- Targets with the same normal form get different answers where only one of them is the robots.txt
and the rules disallow it. -/
theorem allows_ne_iff {u v : String} (h : normalPath u = normalPath v) (p : Policy) :
    p.allows u ≠ p.allows v ↔ ¬(IsRobots u ↔ IsRobots v) ∧ p.Disallows (normalPath u) := by
  cases hAccess : p.access with
  | all => simp [Policy.allows, Policy.Disallows, hAccess]
  | none => simp [Policy.allows, Policy.Disallows, hAccess]
  | byRules rules delay =>
    have hDisallows : p.Disallows (normalPath u) ↔
        ¬Policy.allowsPath rules (normalPath u) = true := by
      simp [Policy.Disallows, hAccess]
    rw [ne_eq, Bool.eq_iff_iff, allows_iff hAccess, allows_iff hAccess, ← h, hDisallows]
    by_cases hAllows : Policy.allowsPath rules (normalPath u) = true <;> simp [hAllows]

theorem alike_of_normalPath_eq {u v : String} (h : normalPath u = normalPath v)
    (hRobots : IsRobots u ↔ IsRobots v) : Alike u v := by
  intro p
  by_contra hDiffer
  exact ((allows_ne_iff h p).mp hDiffer).1 hRobots

theorem normalPath_of_isRobots {target : String} (h : IsRobots target) :
    normalPath target = Percent.normalize "/robots.txt".toList := by rw [normalPath, h]

/-- Targets that differ in their normal forms, or of which only one is the robots.txt, are told
apart. -/
theorem toldApart_of_not {u v : String}
    (h : ¬(normalPath u = normalPath v ∧ (IsRobots u ↔ IsRobots v))) : ToldApart u v := by
  -- The rule is against the path of one of them that is not the robots.txt.
  have hApart : ∀ u v, ¬IsRobots u → (normalPath u = normalPath v → IsRobots v) →
      ToldApart u v := by
    intro u v hu hv
    refine ⟨Pattern.exactly (pathAndQuery u).toList, fun hSame => ?_⟩
    rw [Bool.eq_iff_iff, allows_disallowing_iff, allows_disallowing_iff] at hSame
    by_cases hPath : normalPath u = normalPath v
    · simp [hu, hv hPath] at hSame
    · simp [hu, Ne.symm hPath] at hSame
  by_cases hu : IsRobots u
  · by_cases hv : IsRobots v
    · rw [normalPath_of_isRobots hu, normalPath_of_isRobots hv] at h
      simp [hu, hv] at h
    · obtain ⟨value, hDiffer⟩ := hApart v u hv fun _ => hu
      exact ⟨value, hDiffer.symm⟩
  · refine hApart u v hu fun hPath => ?_
    by_contra hv
    exact h ⟨hPath, by simp [hu, hv]⟩

theorem alike_iff_of_toldApart {u v : String} {same : Prop} (hSame : same → Alike u v)
    (hApart : ¬same → ToldApart u v) : Alike u v ↔ same := by
  refine ⟨fun hAlike => ?_, hSame⟩
  by_contra hNot
  exact (hApart hNot).not_alike hAlike

/-- Targets get the same answers if they have the same normal form and neither or both are the
robots.txt. -/
theorem alike_iff {u v : String} :
    Alike u v ↔ normalPath u = normalPath v ∧ (IsRobots u ↔ IsRobots v) :=
  alike_iff_of_toldApart (fun ⟨hPath, hRobots⟩ => alike_of_normalPath_eq hPath hRobots)
    toldApart_of_not

theorem alike_of_pathAndQuery_eq {u v : String} (h : pathAndQuery u = pathAndQuery v) :
    Alike u v := by
  rw [alike_iff, normalPath, normalPath, IsRobots, IsRobots, h]
  exact ⟨rfl, Iff.rfl⟩

end

/-! ### Escapes of unreserved characters -/

/-- The escape of an unreserved character that is not itself part of an escape does not change the
normal form. -/
theorem normalize_unreserved {before after : List Char} {c high low : Char}
    (hOwn : Percent.scan (before ++ c :: after) =
      Percent.scan before ++ .char c :: Percent.scan after)
    (hUnreserved : Percent.isUnreserved c = true)
    (hByte : Percent.byte? high low = some (UInt8.ofNat c.toNat)) :
    Percent.normalize (before ++ '%' :: high :: low :: after) =
      Percent.normalize (before ++ c :: after) := by
  have hDecoded : Char.ofNat (UInt8.ofNat c.toNat).toNat = c := by
    have hAscii := (Percent.isPlain_iff.mp (Percent.isPlain_of_isUnreserved hUnreserved)).2.1
    rw [UInt8.toNat_ofNat', Nat.mod_eq_of_lt (by omega), Char.ofNat_toNat]
  have hPieces : Percent.scan (before ++ '%' :: high :: low :: after) =
      Percent.scan before ++ .escaped (UInt8.ofNat c.toNat) :: Percent.scan after := by
    rw [Percent.scan_append (by simp; decide), Percent.scan_escaped hByte]
  have hEscaped : (Percent.Piece.escaped (UInt8.ofNat c.toNat)).normal = [c] := by
    rw [Percent.Piece.normal, hDecoded, if_pos hUnreserved]
  have hChar : (Percent.Piece.char c).normal = [c] := by
    rw [Percent.Piece.normal, if_pos (Percent.isPlain_of_isUnreserved hUnreserved)]
  rw [Percent.normalize, Percent.normalize, hPieces, hOwn]
  simp only [List.flatMap_append, List.flatMap_cons, hEscaped, hChar]

theorem not_mem_of_byte? {c high low : Char} {byte : UInt8}
    (h : Percent.byte? high low = some byte) (hDigit : Text.digitValue? c = none) :
    c ≠ high ∧ c ≠ low := by
  constructor <;> rintro rfl
  · rw [Percent.byte?_eq_none (.inl hDigit)] at h
    contradiction
  · rw [Percent.byte?_eq_none (.inr hDigit)] at h
    contradiction

/-- The second target is a path like the first but for the escape of an unreserved character, which
in the first is not itself part of an escape. -/
inductive EscapesOne : String → String → Prop where
  | intro {before after : List Char} {c high low : Char} (hBefore : '#' ∉ before)
    (hAfter : '#' ∉ after)
    (hOwn : Percent.scan ('/' :: before ++ c :: after) =
      Percent.scan ('/' :: before) ++ .char c :: Percent.scan after)
    (hUnreserved : Percent.isUnreserved c = true)
    (hByte : Percent.byte? high low = some (UInt8.ofNat c.toNat)) :
    EscapesOne (String.ofList ('/' :: before ++ c :: after))
      (String.ofList ('/' :: before ++ '%' :: high :: low :: after))

theorem EscapesOne.alike_iff [Domains] {u v : String} (h : EscapesOne u v) :
    Alike u v ↔ u ≠ "/robots.txt" := by
  obtain @⟨before, after, c, high, low, hBefore, hAfter, hOwn, hUnreserved, hByte⟩ := h
  have hc : c ≠ '#' := by
    rintro rfl
    contradiction
  have hDigits := not_mem_of_byte? hByte (show Text.digitValue? '#' = none by decide)
  have hPath := pathAndQuery_of_slash
    (show '#' ∉ before ++ c :: after by simp [hBefore, hAfter, hc.symm])
  have hEscaped := pathAndQuery_of_slash
    (show '#' ∉ before ++ '%' :: high :: low :: after by simp [hBefore, hAfter, hDigits])
  have hNormal := normalize_unreserved hOwn hUnreserved hByte
  have hRobots : String.ofList ('/' :: before ++ '%' :: high :: low :: after) ≠ "/robots.txt" := by
    intro hSame
    have hMem : '%' ∈ "/robots.txt".toList := by
      rw [← hSame, String.toList_ofList]
      simp
    exact absurd hMem (by decide)
  simp only [List.cons_append] at hNormal hRobots ⊢
  rw [Target.alike_iff, normalPath, normalPath, IsRobots, IsRobots, hPath, hEscaped,
    String.toList_ofList, String.toList_ofList, hNormal]
  simp only [hRobots, true_and, iff_false, ne_eq]

/-- What a target's spelling decides.  Two targets with the same normal form get the same answer from
every policy, except that the robots.txt is exempt from rules that disallow it and other spellings of
its path are not; and then a file with one rule tells them apart.  The escape of an unreserved
character in a path does not change its answers, unless the path is that of the robots.txt. -/
theorem answers_of_spelling [Domains] (u v : String) :
    (normalPath u = normalPath v →
      (∀ p : Policy, p.allows u ≠ p.allows v ↔
        ¬(IsRobots u ↔ IsRobots v) ∧ p.Disallows (normalPath u)) ∧
      (Alike u v ↔ (IsRobots u ↔ IsRobots v)) ∧
      (¬(IsRobots u ↔ IsRobots v) → ToldApart u v)) ∧
    (EscapesOne u v → (Alike u v ↔ u ≠ "/robots.txt")) := by
  refine ⟨fun h => ⟨allows_ne_iff h, ?_, ?_⟩, EscapesOne.alike_iff⟩
  · rw [alike_iff]
    exact and_iff_right h
  · intro hRobots
    exact toldApart_of_not fun ⟨_, hSame⟩ => hRobots hSame

theorem answers_of_spelling_private :
    (normalPath "/a%2fb" = normalPath "/a%2Fb" ∧ Alike "/a%2fb" "/a%2Fb") ∧
      EscapesOne "/private" "/%70rivate" ∧ Alike "/private" "/%70rivate" := by
  have hNormal : normalPath "/a%2fb" = normalPath "/a%2Fb" := by decide
  have hRobots : IsRobots "/a%2fb" ↔ IsRobots "/a%2Fb" := by
    rw [IsRobots, IsRobots]
    decide
  have hEscape : EscapesOne "/private" "/%70rivate" :=
    @EscapesOne.intro [] "rivate".toList 'p' '7' '0' (by decide) (by decide) (by decide)
      (by decide) (by decide)
  refine ⟨⟨hNormal, ?_⟩, hEscape, ?_⟩
  · exact ((answers_of_spelling _ _).1 hNormal).2.1.mpr hRobots
  · exact ((answers_of_spelling _ _).2 hEscape).mpr (by decide)

/-- A file that disallows everything allows the robots.txt, and not with its point escaped. -/
theorem answers_of_spelling_robots : normalPath "/robots.txt" = normalPath "/robots%2Etxt" ∧
    (Policy.disallowing "/").allows "/robots.txt" = true ∧
    (Policy.disallowing "/").allows "/robots%2Etxt" = false := by
  rw [allows_disallowing, allows_disallowing]
  decide

end Target

end RobotsTxt
