import RobotsTxt.Text.Blank

/-! The words of a text: its nonempty parts between separators. -/

namespace RobotsTxt.Text

/-- The words between characters that satisfy `separates`. -/
def wordsBy (separates : Char → Bool) (s : List Char) : List (List Char) :=
  (s.splitOnP separates).filter fun word => !word.isEmpty

def words (s : List Char) : List (List Char) := wordsBy isBlank s

end RobotsTxt.Text
