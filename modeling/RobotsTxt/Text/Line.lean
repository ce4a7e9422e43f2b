import RobotsTxt.Text.Blank

/-! The lines of a text, and what of a line counts: not a comment, not markup such as a page with
an error message has, and no blanks around. -/

namespace RobotsTxt.Text

def isLineBreak (c : Char) : Bool := c = '\n' || c = '\r' || c = '\u0085'

def pushFront (c : Char) : List (List Char) → List (List Char)
  | [] => [[c]]
  | line :: lines => (c :: line) :: lines

/-- The lines of a text, which end with a line feed, a carriage return, both in that order, or
U+0085.  What follows the last break is a line only if it is not empty. -/
def lines : List Char → List (List Char)
  | [] => []
  | '\r' :: '\n' :: rest => [] :: lines rest
  | c :: rest => if isLineBreak c then [] :: lines rest else pushFront c (lines rest)

/-- The line up to its comment, which starts with the first number sign. -/
def dropComment (line : List Char) : List Char := line.takeWhile (· ≠ '#')

/-- Whether a less-than sign before this text starts a tag: a letter of ASCII, a slash or an
exclamation mark comes next, and a greater-than sign closes the tag later. -/
def opensTag : List Char → Bool
  | [] => false
  | c :: rest => (c.isAlpha || c = '/' || c = '!') && (c :: rest).contains '>'

/-- The text without its tags.  The flag tells whether the text starts inside a tag. -/
def dropTags : Bool → List Char → List Char
  | _, [] => []
  | true, c :: rest => dropTags (c ≠ '>') rest
  | false, c :: rest =>
    if c = '<' && opensTag rest then dropTags true rest else c :: dropTags false rest

/-- What of a line counts. -/
def clean (line : List Char) : List Char := trim (dropTags false (dropComment line))

end RobotsTxt.Text
