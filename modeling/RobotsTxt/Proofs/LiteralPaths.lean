import RobotsTxt.Proofs.Encoding
import RobotsTxt.Proofs.Spelling

/-! Values for single paths.  The characters that mean something in a value, stars and the dollar
sign, stand for themselves when they are escaped, and a dollar sign at the end ties the value to the
end of the path.  So there is a value for every path: the path as it is written with these characters
escaped.  The trimming of values does no harm, since the root of the path stands before all blanks
and the dollar sign behind them. -/

namespace RobotsTxt

namespace Percent

/-- A character that means something in a directive value. -/
def isMark (c : Char) : Bool := c = '*' || c = '$'

theorem escapable_isMark : Escapable isMark := by
  intro c hc
  rw [isMark, Bool.or_eq_true, decide_eq_true_eq, decide_eq_true_eq] at hc
  rcases hc with rfl | rfl <;> decide

/-- No mark is a character of normal forms, so it is the same as its escape. -/
theorem normalize_encode_isMark (s : List Char) : normalize (Url.encode isMark s) = normalize s := by
  refine (normalize_encode_eq_iff escapable_isMark s).mpr fun c _ hc => ?_
  rw [isMark, Bool.or_eq_true, decide_eq_true_eq, decide_eq_true_eq] at hc
  rcases hc with rfl | rfl <;> decide

end Percent

namespace Pattern

/-- A path with its stars and dollar signs escaped. -/
def literal (path : String) : String :=
  String.ofList (path.toList.flatMap fun c =>
    if c = '*' then "%2A".toList else if c = '$' then "%24".toList else [c])

theorem toList_literal (path : String) :
    (literal path).toList = Url.encode Percent.isMark path.toList := by
  rw [literal, String.toList_ofList, Url.encode]
  refine List.flatMap_congr fun c _ => ?_
  by_cases hStar : c = '*'
  · subst hStar
    decide
  · by_cases hDollar : c = '$'
    · subst hDollar
      decide
    · simp [Percent.isMark, hStar, hDollar]

theorem star_not_mem_literal (path : String) : '*' ∉ (literal path).toList := by
  rw [literal, String.toList_ofList, List.mem_flatMap]
  rintro ⟨c, -, hMem⟩
  split at hMem
  · exact absurd hMem (by decide)
  · rename_i hStar
    split at hMem
    · exact absurd hMem (by decide)
    · exact hStar (List.mem_singleton.mp hMem).symm

/-- Every path has a value that matches the paths of its normal form and no others. -/
theorem matchesPath_literal {path : String} (h : path.toList.head? = some '/') (other : String) :
    (ofText (literal path ++ "$")).matchesPath other = true ↔
      Percent.normalize other.toList = Percent.normalize path.toList := by
  obtain ⟨rest, hPath⟩ := List.head?_eq_some_iff.mp h
  obtain ⟨more, hMore⟩ : ∃ more, (literal path).toList = '/' :: more := by
    rw [toList_literal, hPath]
    exact ⟨_, rfl⟩
  have hValue : literal path ++ "$" = String.ofList ('/' :: more ++ ['$']) := by
    rw [← String.toList_inj, String.toList_append, hMore]
    simp
  have hStarless : '*' ∉ more := fun hMem => star_not_mem_literal path (by simp [hMore, hMem])
  rw [hValue, matchesPath, matchesNormal_anchored hStarless, ← hMore, toList_literal,
    Percent.normalize_encode_isMark]

/-- A path in which percent signs stand before a star and too close to a dollar sign, with a blank at
the end. -/
theorem matchesPath_literal_percent : "/%*%4$\t".toList.head? = some '/' ∧
    literal "/%*%4$\t" = "/%%2A%4%24\t" ∧
    (ofText (literal "/%*%4$\t" ++ "$")).matchesPath "/%25%2a%254%24%09" = true ∧
    (ofText (literal "/%*%4$\t" ++ "$")).matchesPath "/%%4$" = false := by
  have hRoot : "/%*%4$\t".toList.head? = some '/' := by decide
  refine ⟨hRoot, by decide, ?_, ?_⟩
  · exact (matchesPath_literal hRoot _).mpr (by decide)
  · rw [Bool.eq_false_iff]
    exact mt (matchesPath_literal hRoot _).mp (by decide)

end Pattern

end RobotsTxt
