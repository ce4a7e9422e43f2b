import RobotsTxt.Proofs.StandsAlone

/-! When the standard matcher lets a name meet a declared agent.  Word by word it should hold where a
word stands alone anywhere in the name; it holds where a counted occurrence does.  The two differ
for the words that overlap themselves at a break, and for no others. -/

namespace RobotsTxt.Agent

theorem matchesExactly_iff {name agent : List Char} :
    matchesExactly name agent = true ↔ name = agent ∨ name = productToken agent := by
  simp [matchesExactly]

theorem ne_nil_of_mem_agentWords {agent word : List Char} (h : word ∈ agentWords agent) :
    word ≠ [] := by
  have hPart := (List.mem_filter.mp (List.mem_filter.mp h).1).2
  simpa using hPart

/-- A name meets a declared agent word by word, for a notion of a word that stands in a name. -/
def MeetsBy (stands : List Char → List Char → Prop) (name agent : List Char) : Prop :=
  name = agent ∨ name = productToken agent ∨
    ∃ word ∈ agentWords agent, name = word ∨ productToken name = word ∨ stands word name

theorem MeetsBy.mono {stands stands' : List Char → List Char → Prop} {name agent : List Char}
    (h : ∀ word ∈ agentWords agent, stands word name → stands' word name)
    (hMeets : MeetsBy stands name agent) : MeetsBy stands' name agent := by
  rcases hMeets with hName | hToken | ⟨word, hWord, hSame | hToken | hStands⟩
  · exact .inl hName
  · exact .inr (.inl hToken)
  · exact .inr (.inr ⟨word, hWord, .inl hSame⟩)
  · exact .inr (.inr ⟨word, hWord, .inr (.inl hToken)⟩)
  · exact .inr (.inr ⟨word, hWord, .inr (.inr (h word hWord hStands))⟩)

theorem matchesWord_iff {name agent : List Char} : matchesWord name agent = true ↔
    ∃ word ∈ agentWords agent, name = word ∨ productToken name = word ∨ StandsCounted word name := by
  rw [matchesWord, List.any_eq_true]
  refine exists_congr fun word => and_congr_right fun hWord => ?_
  rw [Bool.or_eq_true, Bool.or_eq_true, standsAlone_iff (ne_nil_of_mem_agentWords hWord),
    beq_iff_eq, beq_iff_eq, or_assoc]

/-- Word by word, the matcher looks at counted occurrences. -/
theorem meets_byWord_iff {name agent : List Char} :
    meets .byWord name agent = true ↔ MeetsBy StandsCounted name agent := by
  rw [meets, Bool.or_eq_true, matchesExactly_iff, matchesWord_iff, or_assoc]
  rfl

theorem byProductToken_iff {names declared : List String} {mode : Mode} :
    byProductToken names declared mode = true ↔
      ∃ name ∈ names, ∃ agent ∈ declared, meets mode name.toList agent.toList = true := by
  simp only [byProductToken, List.any_eq_true]

theorem byProductToken_iff_counted {names declared : List String} :
    byProductToken names declared .byWord = true ↔
      ∃ name ∈ names, ∃ agent ∈ declared, MeetsBy StandsCounted name.toList agent.toList := by
  simp only [byProductToken_iff, meets_byWord_iff]

/-- A word that does not overlap itself at a break stands where a counted occurrence does. -/
theorem standsCounted_iff {word name : List Char} (hWord : word ≠ []) (hBreaks : ¬Breaks word) :
    StandsCounted word name ↔ Stands word name := by
  constructor
  · exact StandsCounted.stands
  · rintro ⟨before, after, hSplit, hFree⟩
    exact ⟨before, after, counted_of_not_breaks hWord hBreaks hSplit hFree.1, hFree⟩

/-- Without words that overlap themselves at a break, a word may stand anywhere in the name. -/
theorem meetsBy_stands_iff {name agent : List Char}
    (h : ∀ word ∈ agentWords agent, ¬Breaks word) :
    MeetsBy StandsCounted name agent ↔ MeetsBy Stands name agent := by
  constructor
  · exact MeetsBy.mono fun _ _ => StandsCounted.stands
  · refine MeetsBy.mono fun word hWord hStands => ?_
    exact (standsCounted_iff (ne_nil_of_mem_agentWords hWord) (h word hWord)).mpr hStands

/-- A word that overlaps itself at a break stands alone in a name that the matcher turns away. -/
theorem Breaks.exists_turned_away {word : List Char} (h : Breaks word)
    (hOnly : agentWords word = [word]) :
    ∃ name, MeetsBy Stands name word ∧ ¬MeetsBy StandsCounted name word := by
  obtain ⟨name, hLonger, hStart, hStands, hMissed⟩ := h.exists_missed
  have hMem : word ∈ agentWords word := by simp [hOnly]
  refine ⟨name, .inr (.inr ⟨word, hMem, .inr (.inr hStands)⟩), ?_⟩
  rintro (rfl | hToken | ⟨other, hOther, hMeets⟩)
  · omega
  · have hPrefix : productToken word <+: word := List.takeWhile_prefix _
    have hLength := hPrefix.length_le
    rw [← hToken] at hLength
    omega
  · rw [hOnly, List.mem_singleton] at hOther
    subst hOther
    rcases hMeets with rfl | hToken | hCounted
    · omega
    · obtain ⟨rest, hRest⟩ : productToken name <+: name := List.takeWhile_prefix _
      exact hStart rest (by rw [← hToken, hRest])
    · exact hMissed hCounted

/-- Word by word, the standard matcher looks for a word at its counted occurrences, so what it
accepts has a word that stands alone.  It accepts every such name if no word of the declared agents
overlaps itself at a break; and a declared agent that is one word accepts all of them only if that
word does not. -/
theorem byProductToken_byWord (names declared : List String) :
    (byProductToken names declared .byWord = true ↔
      ∃ name ∈ names, ∃ agent ∈ declared, MeetsBy StandsCounted name.toList agent.toList) ∧
    (byProductToken names declared .byWord = true →
      ∃ name ∈ names, ∃ agent ∈ declared, MeetsBy Stands name.toList agent.toList) ∧
    ((∀ agent ∈ declared, ∀ word ∈ agentWords agent.toList, ¬Breaks word) →
      (byProductToken names declared .byWord = true ↔
        ∃ name ∈ names, ∃ agent ∈ declared, MeetsBy Stands name.toList agent.toList)) ∧
    (∀ word, agentWords word = [word] →
      ((∀ name, byProductToken [String.ofList name] [String.ofList word] .byWord = true ↔
        MeetsBy Stands name word) ↔ ¬Breaks word)) := by
  refine ⟨byProductToken_iff_counted, fun h => ?_, fun hDeclared => ?_, fun word hOnly => ?_⟩
  · obtain ⟨name, hName, agent, hAgent, hMeets⟩ := byProductToken_iff_counted.mp h
    exact ⟨name, hName, agent, hAgent, hMeets.mono fun _ _ => StandsCounted.stands⟩
  · rw [byProductToken_iff_counted]
    exact exists_congr fun name => and_congr_right fun _ => exists_congr fun agent =>
      and_congr_right fun hAgent => meetsBy_stands_iff (hDeclared agent hAgent)
  · have hSingle : ∀ name, byProductToken [String.ofList name] [String.ofList word] .byWord = true ↔
        MeetsBy StandsCounted name word := by simp [byProductToken_iff_counted]
    simp only [hSingle]
    constructor
    · intro hAll hBreaks
      obtain ⟨name, hStands, hTurned⟩ := hBreaks.exists_turned_away hOnly
      exact hTurned ((hAll name).mpr hStands)
    · intro hBreaks name
      exact meetsBy_stands_iff (by simpa [hOnly] using hBreaks)

/-- The word overlaps itself only between letters, so where it stands alone it is found, also behind
an overlap. -/
theorem byProductToken_byWord_letters :
    (∀ agent ∈ ["aba"], ∀ word ∈ agentWords agent.toList, ¬Breaks word) ∧
    byProductToken ["ababa/aba"] ["aba"] .byWord = true ∧ agentWords "aba".toList = ["aba".toList] ∧
    ∀ name, byProductToken [String.ofList name] [String.ofList "aba".toList] .byWord = true ↔
      MeetsBy Stands name "aba".toList := by
  have hWords : agentWords "aba".toList = ["aba".toList] := by decide
  have hBreaks : ¬Breaks "aba".toList := by decide
  have hDeclared : ∀ agent ∈ ["aba"], ∀ word ∈ agentWords agent.toList, ¬Breaks word := by
    intro agent hAgent word hWord
    rw [List.mem_singleton.mp hAgent, hWords] at hWord
    rwa [List.mem_singleton.mp hWord]
  have hMem : "aba".toList ∈ agentWords "aba".toList := by
    rw [hWords]
    exact List.mem_singleton_self _
  have hStands : Stands "aba".toList "ababa/aba".toList :=
    ⟨"ababa/".toList, [], rfl, by decide +kernel, rfl⟩
  obtain ⟨-, -, hFound, hSingle⟩ := byProductToken_byWord ["ababa/aba"] ["aba"]
  refine ⟨hDeclared, (hFound hDeclared).mpr ?_, hWords, (hSingle _ hWords).mpr hBreaks⟩
  exact ⟨_, List.mem_singleton_self _, _, List.mem_singleton_self _,
    .inr (.inr ⟨_, hMem, .inr (.inr hStands)⟩)⟩

/-- The word ends in a start of itself behind a slash, and it stands alone at the end of a name that
is turned away. -/
theorem byProductToken_overlap : MeetsBy Stands "bot/bot/bot/".toList "bot/bot/".toList ∧
    byProductToken ["bot/bot/bot/"] ["bot/bot/"] .byWord = false := by
  have hWords : agentWords "bot/bot/".toList = ["bot/bot/".toList] := by rfl
  have hMem : "bot/bot/".toList ∈ agentWords "bot/bot/".toList := by
    rw [hWords]
    exact List.mem_singleton_self _
  have hStands : Stands "bot/bot/".toList "bot/bot/bot/".toList :=
    ⟨"bot/".toList, [], rfl, by decide +kernel, rfl⟩
  exact ⟨.inr (.inr ⟨_, hMem, .inr (.inr hStands)⟩), by decide⟩

end RobotsTxt.Agent
