import RobotsTxt.Proofs.Sections
import RobotsTxt.Proofs.Utf8
import RobotsTxt.RuleSet.Parse

/-! Two texts, one after the other.  Behind a line feed a new line starts, whatever stands before it,
so the lines, and with them the directives, are those of the one and then those of the other. -/

namespace RobotsTxt

namespace Text

theorem lines_of_break {c : Char} {s : List Char} (h : isLineBreak c = true)
    (hPair : c = '\r' → s.head? ≠ some '\n') : lines (c :: s) = [] :: lines s := by
  rw [lines, if_pos h]
  rintro rest rfl rfl
  exact hPair rfl rfl

theorem lines_of_not_break {c : Char} (h : isLineBreak c = false) (s : List Char) :
    lines (c :: s) = pushFront c (lines s) := by
  rw [lines, if_neg (by simp [h])]
  rintro rest rfl rfl
  simp [isLineBreak] at h

theorem lines_unbroken_append {line rest : List Char} {more : List (List Char)}
    (h : ∀ c ∈ line, isLineBreak c = false) (hRest : lines rest = [] :: more) :
    lines (line ++ rest) = line :: more := by
  induction line with
  | nil => exact hRest
  | cons c line ih =>
    obtain ⟨hHere, hMore⟩ := List.forall_mem_cons.mp h
    rw [List.cons_append, lines_of_not_break hHere, ih hMore]
    rfl

theorem lines_ne_nil {s : List Char} (h : s ≠ []) : lines s ≠ [] := by
  fun_cases lines s with
  | case1 => exact absurd rfl h
  | case2 rest => simp
  | case3 c rest hPair hBreak => simp
  | case4 c rest hPair hBreak => cases lines rest <;> simp [pushFront]

theorem pushFront_append (c : Char) {front : List (List Char)} (h : front ≠ [])
    (back : List (List Char)) : pushFront c (front ++ back) = pushFront c front ++ back := by
  obtain ⟨line, front, rfl⟩ := List.exists_cons_of_ne_nil h
  rfl

/-- What stands behind a break has its own lines, unless it is the second half of the break. -/
theorem lines_append_break {c : Char} (hc : isLineBreak c = true) {t : List Char}
    (hHalf : c = '\r' → t.head? ≠ some '\n') (s : List Char) :
    lines (s ++ c :: t) = lines (s ++ [c]) ++ lines t := by
  have hEnd : ∀ t : List Char, (c = '\r' → t.head? ≠ some '\n') → lines (c :: t) = [] :: lines t :=
    fun t => lines_of_break hc
  fun_induction lines s with
  | case1 => simp [hEnd t hHalf, hEnd [] (by simp), lines]
  | case2 rest ih => simpa [lines] using ih
  | case3 b rest hPair hBreak ih =>
    cases rest with
    | nil =>
      -- A carriage return and the line feed behind it are one break.
      by_cases hBoth : b = '\r' ∧ c = '\n'
      · obtain ⟨rfl, rfl⟩ := hBoth
        simp [lines]
      · have hNext : ∀ t : List Char, lines (b :: c :: t) = [] :: lines (c :: t) := by
          intro t
          refine lines_of_break hBreak fun hReturn hHead => hBoth ⟨hReturn, ?_⟩
          simpa using hHead
        simp [hNext, hEnd t hHalf, hEnd [] (by simp), lines]
    | cons d rest =>
      have hNext : ∀ more, lines (b :: (d :: rest ++ more)) = [] :: lines (d :: rest ++ more) := by
        intro more
        refine lines_of_break hBreak ?_
        rintro hReturn hHead
        obtain rfl : d = '\n' := by simpa using hHead
        exact hPair rest hReturn rfl
      calc lines (b :: (d :: rest ++ c :: t))
          = [] :: (lines (d :: rest ++ [c]) ++ lines t) := by rw [hNext, ih]
        _ = lines (b :: (d :: rest ++ [c])) ++ lines t := by rw [hNext]; rfl
  | case4 b rest hPair hBreak ih =>
    have hNot : isLineBreak b = false := by simpa using hBreak
    rw [List.cons_append, lines_of_not_break hNot, ih, List.cons_append, lines_of_not_break hNot,
      pushFront_append b (lines_ne_nil (by simp))]

/-- A line feed ends a line, so what stands behind it has its own lines. -/
theorem lines_append (s t : List Char) :
    lines (s ++ '\n' :: t) = lines (s ++ ['\n']) ++ lines t :=
  lines_append_break rfl (by simp) s

end Text

namespace Directive

/-- The directives of a text without their line numbers. -/
def read (s : List Char) : List Directive := (ofText s).map Prod.snd

/-- The directive of a cleaned line. -/
def ofClean? (line : List Char) : Option Directive :=
  if line.isEmpty then none else some (ofLine line)

theorem read_eq (s : List Char) : read s = (Text.lines s).filterMap (ofClean? ∘ Text.clean) := by
  have hNumbers : read s =
      (((Text.lines s).map Text.clean).zipIdx 1).filterMap (ofClean? ∘ Prod.fst) := by
    rw [read, ofText, List.map_filterMap]
    refine List.filterMap_congr fun line _ => ?_
    cases hEmpty : line.1.isEmpty <;> simp [ofClean?, hEmpty]
  rw [hNumbers, ← List.filterMap_map, List.zipIdx_map_fst, List.filterMap_map]

/-- A text that starts a line has its own directives. -/
theorem read_append {a : List Char} (hEnd : a.getLast? = some '\n') (b : List Char) :
    read (a ++ b) = read a ++ read b := by
  obtain ⟨front, rfl⟩ := List.getLast?_eq_some_iff.mp hEnd
  rw [List.append_assoc, List.singleton_append, read_eq, Text.lines_append, List.filterMap_append,
    ← read_eq, ← read_eq]

end Directive

namespace RuleSet

open Directive (read)

theorem parse_encode [Domains] (robotsUrl : String) {contentType : String}
    (hText : isText contentType = true) {s : List Char} (h : s.head? ≠ some '\uFEFF') :
    parse robotsUrl (Text.Utf8.encode s) contentType =
      ofDirectives (Url.ofText? robotsUrl.toList) (read s) := by
  rw [parse, if_pos hText, Text.decode_encode h]
  rfl

/-- A file made of two texts, where the first ends a line and has a rule behind its last agent, and
the second has an agent before its first rule or crawl delay. -/
theorem parse_append [Domains] (robotsUrl : String) {contentType : String}
    (hText : isText contentType = true) {a b : List Char} (hA : a.head? ≠ some '\uFEFF')
    (hB : b.head? ≠ some '\uFEFF') (hEnd : a.getLast? = some '\n')
    (hSettled : Layout.Settled (read a) (read a).length)
    (hFresh : Directive.Fresh (read b)) :
    let first := parse robotsUrl (Text.Utf8.encode a) contentType
    let second := parse robotsUrl (Text.Utf8.encode b) contentType
    let whole := parse robotsUrl (Text.Utf8.encode a ++ Text.Utf8.encode b) contentType
    whole.groups = first.groups ++ second.groups ∧
      whole.warnings = first.warnings + second.warnings ∧
      whole.sitemaps =
        first.sitemaps ++ second.sitemaps.filter (fun url => url ∉ first.sitemaps) := by
  have hNonempty : a ≠ [] := by
    rintro rfl
    simp at hEnd
  have hWhole : (a ++ b).head? ≠ some '\uFEFF' := by
    rwa [List.head?_append_of_ne_nil a hNonempty]
  intro first second whole
  have hFirst : first = ofDirectives (Url.ofText? robotsUrl.toList) (read a) :=
    parse_encode robotsUrl hText hA
  have hSecond : second = ofDirectives (Url.ofText? robotsUrl.toList) (read b) :=
    parse_encode robotsUrl hText hB
  have hBoth : whole = ofDirectives (Url.ofText? robotsUrl.toList) (read a ++ read b) := by
    rw [← Directive.read_append hEnd b, ← parse_encode robotsUrl hText hWhole,
      Text.Utf8.encode_append]
  rw [hBoth, hFirst, hSecond]
  refine ⟨Layout.ofDirectives_groups_append _ hSettled hFresh,
    Layout.ofDirectives_warnings_append _ hFresh, ?_⟩
  rw [Layout.ofDirectives_sitemaps_append]
  simp

def fileUrl : String := "https://h.example/robots.txt"

/-- A group, and a sitemap at another host. -/
def firstText : List Char := "User-agent: a\r\nAllow: /\nSitemap: //s.example/map\n".toList

/-- A line of no known field, the same sitemap and a group for the same crawler. -/
def secondText : List Char :=
  "noindex: /\nSitemap: //s.example/map\nUser-agent: A\nCrawl-delay: 1\rDisallow: /x".toList

/-- The texts list the same sitemap, and the file that they make lists it once. -/
theorem parse_append_once :
    isText "text/plain" = true ∧ firstText.head? ≠ some '\uFEFF' ∧
    secondText.head? ≠ some '\uFEFF' ∧ firstText.getLast? = some '\n' ∧
    Layout.Settled (read firstText) (read firstText).length ∧ Directive.Fresh (read secondText) ∧
    let first := parse fileUrl (Text.Utf8.encode firstText) "text/plain"
    let second := parse fileUrl (Text.Utf8.encode secondText) "text/plain"
    let whole :=
      parse fileUrl (Text.Utf8.encode firstText ++ Text.Utf8.encode secondText) "text/plain"
    whole.groups = first.groups ++ second.groups ∧
      whole.warnings = first.warnings + second.warnings ∧
      first.sitemaps = ["https://s.example/map"] ∧ second.sitemaps = ["https://s.example/map"] ∧
      whole.sitemaps = ["https://s.example/map"] := by
  have hText : isText "text/plain" = true := by decide +kernel
  have hA : firstText.head? ≠ some '\uFEFF' := by decide +kernel
  have hB : secondText.head? ≠ some '\uFEFF' := by decide +kernel
  have hEnd : firstText.getLast? = some '\n' := by decide +kernel
  have hSettled : Layout.Settled (read firstText) (read firstText).length := by decide +kernel
  have hFresh : Directive.Fresh (read secondText) := by decide +kernel
  obtain ⟨hGroups, hWarnings, hSitemaps⟩ :=
    parse_append fileUrl hText hA hB hEnd hSettled hFresh
  have hFirst : (parse fileUrl (Text.Utf8.encode firstText) "text/plain").sitemaps =
      ["https://s.example/map"] := by
    rw [parse_encode fileUrl hText hA]
    decide +kernel
  have hSecond : (parse fileUrl (Text.Utf8.encode secondText) "text/plain").sitemaps =
      ["https://s.example/map"] := by
    rw [parse_encode fileUrl hText hB]
    decide +kernel
  refine ⟨hText, hA, hB, hEnd, hSettled, hFresh, hGroups, hWarnings, hFirst, hSecond, ?_⟩
  rw [hSitemaps, hFirst, hSecond]
  decide

end RuleSet

end RobotsTxt
