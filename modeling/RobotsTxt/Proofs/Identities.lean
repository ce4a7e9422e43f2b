import RobotsTxt.Proofs.AgentMatch
import RobotsTxt.Proofs.Matchers
import RobotsTxt.Proofs.Sanitized

/-! The names of a crawler as a set.  The standard matcher asks whether some name meets an agent, so
the order of the names and their repeats do not count, nor do the blanks around a name and its capital
letters.  Word by word, names may as well be sanitized first: that refuses the same names for the same
reasons, and the names that it leaves are ready for matching as they are. -/

namespace RobotsTxt

namespace Agent

/-- A name without the blanks around it, in small letters. -/
def folded (raw : String) : String := String.ofList (Text.lowercase (Text.trim raw.toList))

theorem prepareName_eq_ok {mode : Mode} {raw name : String} (h : prepareName mode raw = .ok name) :
    name = folded raw := by
  cases hCheck : check raw with
  | error e =>
    rw [prepareName, hCheck] at h
    contradiction
  | ok valid =>
    obtain ⟨rfl, -⟩ := check_eq_ok_iff.mp hCheck
    simp only [prepareName, hCheck] at h
    split at h
    · contradiction
    · exact (Except.ok.inj h).symm

theorem prepare_eq_ok {mode : Mode} {given ready : List String}
    (h : prepare mode given = .ok ready) : ready = given.map folded := by
  have hNames : List.Forall₂ (· = ·) (given.map folded) ready :=
    List.forall₂_map_left_iff.mpr
      ((forall₂_mapM h).imp fun _ _ hName => (prepareName_eq_ok hName).symm)
  exact (List.forall₂_eq_eq_eq ▸ hNames).symm

/-- Word by word, a name is made ready for matching just as it is sanitized. -/
theorem prepareName_byWord : prepareName .byWord = sanitizeName := by
  funext raw
  rw [prepareName, sanitizeName]
  cases check raw <;> rfl

theorem sanitize_eq_map_prepare (names : List String) :
    sanitize names = (prepare .byWord names).map List.eraseDups := by
  rw [prepare, prepareName_byWord, sanitize]

/-- Sanitized names are ready for matching word by word. -/
theorem prepare_sanitized {names clean : List String} (h : sanitize names = .ok clean) :
    prepare .byWord clean = .ok clean := by
  have hNames : ∀ name ∈ clean, prepareName .byWord name =
      if isRefused .byWord name then .error (.uppercaseAgentName name) else .ok name :=
    fun name hName => (sanitized_of_mem h hName).prepareName_eq .byWord
  have hNone : clean.find? (isRefused .byWord) = none := by simp [isRefused]
  rw [prepare, mapM_eq_find? hNames, hNone]

/-- The standard matcher depends on which names there are. -/
theorem byProductToken_congr {names others : List String} (h : ∀ name, name ∈ others ↔ name ∈ names)
    (declared : List String) (mode : Mode) :
    byProductToken others declared mode = byProductToken names declared mode := by
  rw [Bool.eq_iff_iff, byProductToken_iff, byProductToken_iff]
  simp only [h]

end Agent

namespace Settings

variable {s : Settings} {names others : List String}

/-- With the standard matcher a policy depends on which names there are. -/
theorem policy_of_mem_iff (hMatcher : s.matcher = Agent.byProductToken)
    (h : ∀ name, name ∈ others ↔ name ∈ names) (rules : RuleSet) :
    s.policy others rules = s.policy names rules := by
  have hNil : others = [] ↔ names = [] := by simp only [List.eq_nil_iff_forall_not_mem, h]
  have hMatch : ∀ declared, s.matcher others declared s.mode = s.matcher names declared s.mode := by
    rw [hMatcher]
    exact fun declared => Agent.byProductToken_congr h declared s.mode
  have hAddresses : ∀ g, s.addresses others g = s.addresses names g := fun g => by
    rw [Bool.eq_iff_iff, addresses_iff, addresses_iff, Names, Names, hMatch, ne_eq, hNil]
  rw [policy, policy,
    access_congr rfl (fun g _ => hAddresses g) fun _ g _ d _ => hMatch d.audience.agents]

/-- With the standard matcher the names of a crawler count as a set, up to blanks around them and
capital letters.  Word by word, evaluation for any names is evaluation for the sanitized ones, or
fails as sanitizing them does. -/
theorem evaluate_identities (hMatcher : s.matcher = Agent.byProductToken) (rules : RuleSet) :
    (∀ given other ready same, Agent.prepare s.mode given = .ok ready →
      Agent.prepare s.mode other = .ok same →
      (∀ name, name ∈ other.map Agent.folded ↔ name ∈ given.map Agent.folded) →
      ∃ policy, s.evaluate given rules = .ok policy ∧ s.evaluate other rules = .ok policy) ∧
    (s.mode = .byWord → ∀ names, s.evaluate names rules = do
      let clean ← Agent.sanitize names
      s.evaluate clean rules) := by
  refine ⟨fun given other ready same hGiven hOther hSame => ?_, fun hMode names => ?_⟩
  · have hMem : ∀ name, name ∈ same ↔ name ∈ ready := by
      rwa [Agent.prepare_eq_ok hGiven, Agent.prepare_eq_ok hOther]
    refine ⟨s.policy ready rules, evaluate_of_prepare hGiven rules, ?_⟩
    rw [evaluate_of_prepare hOther, policy_of_mem_iff hMatcher hMem]
  · cases hNames : Agent.prepare .byWord names with
    | error e =>
      have hSanitize : Agent.sanitize names = .error e := by
        rw [Agent.sanitize_eq_map_prepare, hNames]
        rfl
      rw [hSanitize, evaluate, hMode, hNames]
      rfl
    | ok ready =>
      have hSanitize : Agent.sanitize names = .ok ready.eraseDups := by
        rw [Agent.sanitize_eq_map_prepare, hNames]
        rfl
      have hReady : Agent.prepare s.mode ready.eraseDups = .ok ready.eraseDups := by
        rw [hMode, Agent.prepare_sanitized hSanitize]
      have hPolicy : s.policy ready.eraseDups rules = s.policy ready rules :=
        policy_of_mem_iff hMatcher (fun _ => List.mem_eraseDups) rules
      rw [hSanitize]
      change _ = s.evaluate ready.eraseDups rules
      rw [evaluate_of_prepare (hMode ▸ hNames), evaluate_of_prepare hReady, hPolicy]

/-- A capital sigma has another small letter at the end of a word than in front of others, and a
capital I with a dot has two characters for its small letter. -/
theorem evaluate_identities_greek :
    (∃ policy,
      { standard with mode := .byWord }.evaluate [" FooBot ", "ΟΔΟΣ/2", "foobot"] examplebotRules =
        .ok policy ∧
      { standard with mode := .byWord }.evaluate ["οδος/2", "FOOBOT\t"] examplebotRules =
        .ok policy) ∧
    Agent.sanitize ["İ", "ΣΑΣ", "i̇ "] = .ok ["i̇", "σας"] ∧
    { standard with mode := .byWord }.evaluate ["İ", "ΣΑΣ", "i̇ "] examplebotRules =
      (do
        let clean ← Agent.sanitize ["İ", "ΣΑΣ", "i̇ "]
        { standard with mode := .byWord }.evaluate clean examplebotRules) := by
  have hIdentities := evaluate_identities (s := { standard with mode := .byWord }) rfl examplebotRules
  refine ⟨hIdentities.1 _ _ ["foobot", "οδος/2", "foobot"] ["οδος/2", "foobot"] (by decide +kernel)
    (by decide +kernel) ?_, by decide +kernel, hIdentities.2 rfl _⟩
  have hGiven : [" FooBot ", "ΟΔΟΣ/2", "foobot"].map Agent.folded =
      ["foobot", "οδος/2", "foobot"] := by decide +kernel
  have hOther : ["οδος/2", "FOOBOT\t"].map Agent.folded = ["οδος/2", "foobot"] := by decide +kernel
  rw [hGiven, hOther]
  simp [or_comm]

end Settings

end RobotsTxt
