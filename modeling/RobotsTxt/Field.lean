import RobotsTxt.Text.Words
import RobotsTxt.Verdict

/-! The fields of robots.txt lines and the spellings, right and wrong, that sites use for them. -/

namespace RobotsTxt

/-- What a line is about.  A bare URL is a line that starts with `http:` or `https:`, as if that
were a field name. -/
inductive Field where
  | userAgent
  | rule (verdict : Verdict)
  | crawlDelay
  | sitemap
  | extension
  | bareUrl
deriving DecidableEq, Repr

namespace Field

/-- The known spellings.  A field's longer spellings come before those that they start with. -/
def spellings : List (String × Field) :=
  [("user-agents", .userAgent), ("user-agent", .userAgent), ("user agent", .userAgent),
   ("useg-agent", .userAgent), ("useragent", .userAgent),
   ("dissallow", .rule .disallow), ("disallaw", .rule .disallow), ("disallow", .rule .disallow),
   ("desallow", .rule .disallow), ("dissalow", .rule .disallow), ("disalow", .rule .disallow),
   ("allow", .rule .allow),
   ("crawl-delay", .crawlDelay), ("crawl delay", .crawlDelay), ("crawldelay", .crawlDelay),
   ("site-map", .sitemap), ("sitemap", .sitemap),
   ("robot-version", .extension), ("request-rate", .extension), ("clean-param", .extension),
   ("visit-time", .extension), ("noindex", .extension), ("comment", .extension),
   ("host", .extension)]

/-- A field name in small letters, with one space between words and hyphens for underscores. -/
def canonical (name : List Char) : List Char :=
  ([' '].intercalate (Text.words name)).map fun c => if c = '_' then '-' else c.toLower

def ofName? (name : List Char) : Option Field :=
  let key := canonical name
  if "acap-".toList.isPrefixOf key then some .extension
  else if key = "http".toList || key = "https".toList then some .bareUrl
  else (spellings.find? fun spelling => spelling.1.toList == key).map Prod.snd

/-- What follows a spelling at the start of a line, letters compared without regard to case. -/
def afterSpelling? : List Char → List Char → Option (List Char)
  | [], line => some line
  | _, [] => none
  | s :: spelling, c :: line => if c.toLower = s then afterSpelling? spelling line else none

def isGap (c : Char) : Bool := c = ' ' || c = '\t'

/-- Splits a line without a colon into the field that it starts with, its name as written, and what
follows the gap after the name. -/
def splitBare? (line : List Char) : Option (Field × List Char × List Char) :=
  spellings.findSome? fun (spelling, field) =>
    match afterSpelling? spelling.toList line with
    | some (c :: rest) =>
      if isGap c then some (field, line.take spelling.length, rest.dropWhile isGap) else none
    | _ => none

end Field

end RobotsTxt
