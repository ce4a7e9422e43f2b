import RobotsTxt.Agent.Match
import RobotsTxt.Agent.Mode
import RobotsTxt.Agent.Name
import RobotsTxt.Decimal.Binary
import RobotsTxt.Decimal.Numeral
import RobotsTxt.Decimal.Shortest
import RobotsTxt.Directive
import RobotsTxt.Error
import RobotsTxt.Field
import RobotsTxt.Group
import RobotsTxt.Pattern
import RobotsTxt.Percent.Escape
import RobotsTxt.Percent.Normal
import RobotsTxt.Policy
import RobotsTxt.Proofs.AddedRule
import RobotsTxt.Proofs.AgentMatch
import RobotsTxt.Proofs.Blanket
import RobotsTxt.Proofs.Bodies
import RobotsTxt.Proofs.Canonical
import RobotsTxt.Proofs.Coherence
import RobotsTxt.Proofs.Concatenation
import RobotsTxt.Proofs.Damage
import RobotsTxt.Proofs.Decision
import RobotsTxt.Proofs.DelayScope
import RobotsTxt.Proofs.Encoding
import RobotsTxt.Proofs.EscapedCharacters
import RobotsTxt.Proofs.FieldLines
import RobotsTxt.Proofs.FieldNames
import RobotsTxt.Proofs.Fragment
import RobotsTxt.Proofs.Glob
import RobotsTxt.Proofs.GroupOrder
import RobotsTxt.Proofs.Grouping
import RobotsTxt.Proofs.Identities
import RobotsTxt.Proofs.Integrity
import RobotsTxt.Proofs.LiteralPaths
import RobotsTxt.Proofs.Markup
import RobotsTxt.Proofs.Matchers
import RobotsTxt.Proofs.MergedRules
import RobotsTxt.Proofs.MissingColon
import RobotsTxt.Proofs.Noise
import RobotsTxt.Proofs.NormalForm
import RobotsTxt.Proofs.PrintedLines
import RobotsTxt.Proofs.References
import RobotsTxt.Proofs.Rendering
import RobotsTxt.Proofs.Rows
import RobotsTxt.Proofs.Sanitized
import RobotsTxt.Proofs.Sections
import RobotsTxt.Proofs.Segments
import RobotsTxt.Proofs.Sitemaps
import RobotsTxt.Proofs.SmallLetters
import RobotsTxt.Proofs.Spelling
import RobotsTxt.Proofs.StrayPercent
import RobotsTxt.Proofs.Tally
import RobotsTxt.Proofs.Trimming
import RobotsTxt.Proofs.Utf8
import RobotsTxt.Proofs.WarnedLines
import RobotsTxt.Proofs.WebAddress
import RobotsTxt.Proofs.WebTarget
import RobotsTxt.Proofs.Wildcards
import RobotsTxt.Proofs.Words
import RobotsTxt.Rule
import RobotsTxt.RuleSet
import RobotsTxt.RuleSet.Draft
import RobotsTxt.RuleSet.Parse
import RobotsTxt.Settings
import RobotsTxt.Target
import RobotsTxt.Text.Alphanumeric
import RobotsTxt.Text.Blank
import RobotsTxt.Text.Cased
import RobotsTxt.Text.Decode
import RobotsTxt.Text.Digit
import RobotsTxt.Text.Line
import RobotsTxt.Text.Lowercase
import RobotsTxt.Text.Ranges
import RobotsTxt.Text.Search
import RobotsTxt.Text.Uppercase
import RobotsTxt.Text.Utf16
import RobotsTxt.Text.Utf8
import RobotsTxt.Text.Words
import RobotsTxt.Url.Authority
import RobotsTxt.Url.Basic
import RobotsTxt.Url.Encode
import RobotsTxt.Url.File
import RobotsTxt.Url.FilePath
import RobotsTxt.Url.Host
import RobotsTxt.Url.Ipv4
import RobotsTxt.Url.Ipv6
import RobotsTxt.Url.Parse
import RobotsTxt.Url.Path
import RobotsTxt.Url.Reference
import RobotsTxt.Url.Relative
import RobotsTxt.Url.Scheme
import RobotsTxt.Verdict
