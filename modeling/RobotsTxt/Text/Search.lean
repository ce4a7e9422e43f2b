/-! Finding a word in a text. -/

namespace RobotsTxt.Text

/-- What follows the leftmost occurrence of `word`, if there is one. -/
def afterFirst (word : List Char) : List Char → Option (List Char)
  | [] => word.isPrefixOf? []
  | c :: rest =>
    match word.isPrefixOf? (c :: rest) with
    | some after => some after
    | none => afterFirst word rest

end RobotsTxt.Text
