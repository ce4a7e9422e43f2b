import Mathlib.Data.List.Forall2
import RobotsTxt.Proofs.SmallLetters
import RobotsTxt.Settings

/-! Evaluation for sanitized names.  A sanitized name is trimmed, in small letters and valid, and
making it ready for matching does not change it.  Exact mode still refuses it if it has a capital
letter, which is then one without a small letter that stood in the name as it was given. -/

namespace RobotsTxt

namespace Agent

open Text (isLoneCapital)

/-! ### One name -/

theorem check_eq_ok_iff {raw : String} {name : List Char} : check raw = .ok name ↔
    name = Text.trim raw.toList ∧ name ≠ [] ∧ name ≠ ['*'] ∧ ∀ c ∈ name, isIllegal c = false := by
  simp only [check]
  split
  · rename_i hEmpty
    refine iff_of_false (by simp) ?_
    rintro ⟨rfl, hne, -⟩
    exact hne (List.isEmpty_iff.mp hEmpty)
  · rename_i hNonempty
    split
    · rename_i hStar
      refine iff_of_false (by simp) ?_
      rintro ⟨rfl, -, hne, -⟩
      exact hne hStar
    · rename_i hne
      split
      · rename_i c hFound
        refine iff_of_false (by simp) ?_
        rintro ⟨rfl, -, -, hLegal⟩
        have hIllegal := List.find?_some hFound
        simp [hLegal c (List.mem_of_find?_eq_some hFound)] at hIllegal
      · rename_i hNone
        constructor
        · rintro h
          obtain rfl := Except.ok.inj h
          exact ⟨rfl, mt List.isEmpty_iff.mpr hNonempty, hne, by simpa using hNone⟩
        · rintro ⟨rfl, -⟩
          rfl

/-- A name that is valid as it stands and in small letters. -/
structure Sanitized (name : String) : Prop where
  checked : check name = .ok name.toList
  small : Text.lowercase name.toList = name.toList

theorem isIllegal_of_not_isReserved {c : Char} (h : Text.isReserved c = false) :
    isIllegal c = false := by
  have hCode := Text.code_of_not_isReserved h
  have hSign : c ≠ '#' := by
    rintro rfl
    exact absurd hCode.1 (by decide)
  simp only [isIllegal, hSign, decide_false, Bool.or_false, Bool.or_eq_false_iff,
    Bool.and_eq_false_iff, decide_eq_false_iff_not]
  omega

/-- The small letters of a valid name make a sanitized one. -/
theorem sanitized_lowercase {raw : String} {name : List Char} (h : check raw = .ok name) :
    Sanitized (String.ofList (Text.lowercase name)) := by
  obtain ⟨hTrim, hne, hStar, hLegal⟩ := check_eq_ok_iff.mp h
  have hTrimmed : Text.Trimmed name := hTrim ▸ Text.trimmed_trim raw.toList
  have hLength : name.length ≤ (Text.lowercase name).length := Text.length_le_lowerFrom [] name
  refine ⟨?_, by rw [String.toList_ofList, Text.lowercase_lowercase]⟩
  rw [String.toList_ofList, check_eq_ok_iff, String.toList_ofList, hTrimmed.lowercase.trim_eq]
  refine ⟨rfl, fun hNil => ?_, fun hSingle => ?_, fun c hc => ?_⟩
  · rw [hNil, List.length_nil] at hLength
    exact hne (List.length_eq_zero_iff.mp (by omega))
  · -- a star is no small letter, so it is the only character that the name has
    have hMem : '*' ∈ Text.lowercase name := by simp [hSingle]
    have hOld : '*' ∈ name := by
      rcases Text.mem_lowerFrom hMem with ⟨hOld, -⟩ | hSmall
      · exact hOld
      · exact absurd (Text.code_of_not_isReserved hSmall).1 (by decide)
    rw [hSingle, List.length_singleton] at hLength
    obtain ⟨c, rfl⟩ := List.length_eq_one_iff.mp
      (Nat.le_antisymm hLength (List.length_pos_iff.mpr hne))
    exact hStar (by rw [List.mem_singleton.mp hOld])
  · rcases Text.mem_lowerFrom hc with ⟨hOld, -⟩ | hSmall
    · exact hLegal c hOld
    · exact isIllegal_of_not_isReserved hSmall

/-- Whether matching in a mode refuses a sanitized name. -/
def isRefused (mode : Mode) (name : String) : Bool :=
  mode = .exact && name.toList.any isLoneCapital

theorem Sanitized.prepareName_eq {name : String} (h : Sanitized name) (mode : Mode) :
    prepareName mode name =
      if isRefused mode name then .error (.uppercaseAgentName name) else .ok name := by
  have hCapitals : name.toList.any Text.isUppercase = name.toList.any isLoneCapital := by
    rw [← Text.any_isUppercase_lowercase, h.small]
  rw [prepareName, h.checked]
  simp only [hCapitals, h.small, String.ofList_toList]
  rfl

/-! ### Lists of names -/

section

variable {α β ε : Type} {f : α → Except ε β} {l : List α}

theorem forall₂_mapM {out : List β} (h : l.mapM f = .ok out) :
    List.Forall₂ (fun a b => f a = .ok b) l out := by
  induction l generalizing out with
  | nil =>
    obtain rfl : [] = out := Except.ok.inj h
    exact .nil
  | cons a l ih =>
    rw [List.mapM_cons] at h
    cases hHead : f a with
    | error e =>
      rw [hHead] at h
      cases h
    | ok b =>
      cases hTail : l.mapM f with
      | error e =>
        rw [hHead, hTail] at h
        cases h
      | ok rest =>
        rw [hHead, hTail] at h
        obtain rfl : b :: rest = out := Except.ok.inj h
        exact .cons hHead (ih hTail)

theorem mem_mapM {out : List β} (h : l.mapM f = .ok out) :
    (∀ a ∈ l, ∃ b ∈ out, f a = .ok b) ∧ ∀ b ∈ out, ∃ a ∈ l, f a = .ok b := by
  have hAll := forall₂_mapM h
  clear h
  induction hAll with
  | nil => simp
  | @cons a b l out hHead _ ih =>
    obtain ⟨hOut, hIn⟩ := ih
    refine ⟨?_, ?_⟩
    · rintro c (_ | ⟨_, hc⟩)
      · exact ⟨b, by simp, hHead⟩
      · obtain ⟨d, hd, hSame⟩ := hOut c hc
        exact ⟨d, by simp [hd], hSame⟩
    · rintro d (_ | ⟨_, hd⟩)
      · exact ⟨a, by simp, hHead⟩
      · obtain ⟨c, hc, hSame⟩ := hIn d hd
        exact ⟨c, by simp [hc], hSame⟩

/-- A check of each element fails at the first that it refuses. -/
theorem mapM_eq_find? {g : α → Except ε α} {refused : α → Bool} {error : α → ε}
    (h : ∀ a ∈ l, g a = if refused a then .error (error a) else .ok a) :
    l.mapM g = match l.find? refused with
      | some a => .error (error a)
      | none => .ok l := by
  induction l with
  | nil => rfl
  | cons a l ih =>
    obtain ⟨hHead, hTail⟩ := List.forall_mem_cons.mp h
    rw [List.mapM_cons, hHead, ih hTail, List.find?_cons]
    cases refused a with
    | true => rfl
    | false => cases l.find? refused <;> rfl

end

theorem mem_sanitize {names clean : List String} (h : sanitize names = .ok clean) :
    (∀ raw ∈ names, ∃ name, check raw = .ok name ∧ String.ofList (Text.lowercase name) ∈ clean) ∧
      ∀ name ∈ clean, ∃ raw ∈ names, ∃ valid, check raw = .ok valid ∧
        name = String.ofList (Text.lowercase valid) := by
  obtain ⟨all, hAll, rfl⟩ : ∃ all, names.mapM sanitizeName = .ok all ∧ all.eraseDups = clean := by
    cases hAll : names.mapM sanitizeName with
    | error e => simp [sanitize, hAll, Except.map] at h
    | ok all => exact ⟨all, rfl, by simpa [sanitize, hAll, Except.map] using h⟩
  have hName : ∀ raw name, sanitizeName raw = .ok name →
      ∃ valid, check raw = .ok valid ∧ name = String.ofList (Text.lowercase valid) := by
    intro raw name hSame
    cases hCheck : check raw with
    | error e => simp [sanitizeName, hCheck, Except.map] at hSame
    | ok valid => exact ⟨valid, rfl, by simpa [sanitizeName, hCheck, Except.map] using hSame.symm⟩
  obtain ⟨hOut, hIn⟩ := mem_mapM hAll
  refine ⟨fun raw hRaw => ?_, fun name hName' => ?_⟩
  · obtain ⟨name, hMem, hSame⟩ := hOut raw hRaw
    obtain ⟨valid, hCheck, rfl⟩ := hName raw name hSame
    exact ⟨valid, hCheck, List.mem_eraseDups.mpr hMem⟩
  · obtain ⟨raw, hRaw, hSame⟩ := hIn name (List.mem_eraseDups.mp hName')
    exact ⟨raw, hRaw, hName raw name hSame⟩

theorem sanitized_of_mem {names clean : List String} (h : sanitize names = .ok clean)
    {name : String} (hName : name ∈ clean) : Sanitized name := by
  obtain ⟨raw, -, valid, hCheck, rfl⟩ := (mem_sanitize h).2 name hName
  exact sanitized_lowercase hCheck

/-- The lone capitals of sanitized names are those of the names as given. -/
theorem exists_isLoneCapital_iff {names clean : List String} (h : sanitize names = .ok clean) :
    (∃ name ∈ clean, name.toList.any isLoneCapital = true) ↔
      ∃ raw ∈ names, raw.toList.any isLoneCapital = true := by
  have hSmall : ∀ name : List Char, (Text.lowercase name).any isLoneCapital =
      name.any isLoneCapital := by
    intro name
    rw [← Text.any_isUppercase_lowercase, Text.lowercase_lowercase, Text.any_isUppercase_lowercase]
  obtain ⟨hOut, hIn⟩ := mem_sanitize h
  constructor
  · rintro ⟨name, hMem, hLone⟩
    obtain ⟨raw, hRaw, valid, hCheck, rfl⟩ := hIn name hMem
    rw [String.toList_ofList, hSmall, (check_eq_ok_iff.mp hCheck).1, List.any_eq_true] at hLone
    obtain ⟨c, hc, hLone⟩ := hLone
    exact ⟨raw, hRaw, List.any_eq_true.mpr ⟨c, Text.mem_of_mem_trim hc, hLone⟩⟩
  · rintro ⟨raw, hRaw, hLone⟩
    obtain ⟨valid, hCheck, hMem⟩ := hOut raw hRaw
    obtain ⟨c, hc, hLone⟩ := List.any_eq_true.mp hLone
    refine ⟨_, hMem, ?_⟩
    rw [String.toList_ofList, hSmall, (check_eq_ok_iff.mp hCheck).1]
    have hBlank := Text.isBlank_of_isUppercase (Text.isLoneCapital_iff.mp hLone).1
    exact List.any_eq_true.mpr ⟨c, Text.mem_trim hBlank hc, hLone⟩

end Agent

namespace Settings

open Agent (isRefused)
open Text (isLoneCapital)

/-- Evaluation takes sanitized names as they are.  It fails in exact mode alone, at the first name
with a capital letter, and it succeeds unless a name was given with one that has no small letter. -/
theorem evaluate_sanitized (s : Settings) (rules : RuleSet) {names clean : List String}
    (h : Agent.sanitize names = .ok clean) :
    (s.evaluate clean rules = match clean.find? (isRefused s.mode) with
      | some name => .error (.uppercaseAgentName name)
      | none => .ok (s.policy clean rules)) ∧
    ((∃ policy, s.evaluate clean rules = .ok policy) ↔
      (s.mode = .exact → ∀ name ∈ names, ∀ c ∈ name.toList, isLoneCapital c = false)) := by
  have hEvaluate : s.evaluate clean rules = match clean.find? (isRefused s.mode) with
      | some name => .error (.uppercaseAgentName name)
      | none => .ok (s.policy clean rules) := by
    have hNames : ∀ name ∈ clean, Agent.prepareName s.mode name =
        if isRefused s.mode name then .error (.uppercaseAgentName name) else .ok name :=
      fun name hName => (Agent.sanitized_of_mem h hName).prepareName_eq s.mode
    rw [evaluate, Agent.prepare, Agent.mapM_eq_find? hNames]
    cases clean.find? (isRefused s.mode) <;> rfl
  refine ⟨hEvaluate, ?_⟩
  have hSucceeds : (∃ policy, s.evaluate clean rules = .ok policy) ↔
      clean.find? (isRefused s.mode) = none := by
    rw [hEvaluate]
    cases clean.find? (isRefused s.mode) <;> simp
  rw [hSucceeds, List.find?_eq_none]
  cases hMode : s.mode with
  | byWord => simp [isRefused]
  | exact =>
    have hLone := not_congr (Agent.exists_isLoneCapital_iff h)
    simpa [isRefused] using hLone

/-- A final sigma and a capital I with a dot: the names are ready for exact matching. -/
theorem evaluate_sanitized_greek :
    Agent.sanitize [" FooBot ", "ΟΔΟΣ/2", "foobot", "İ"] =
        .ok ["foobot", "οδος/2", "i̇"] ∧
      ∃ policy, standard.evaluate ["foobot", "οδος/2", "i̇"]
        RuleSet.empty = .ok policy := by
  have hSanitize : Agent.sanitize [" FooBot ", "ΟΔΟΣ/2", "foobot", "İ"] =
      .ok ["foobot", "οδος/2", "i̇"] := by decide +kernel
  have hSmall : [" FooBot ", "ΟΔΟΣ/2", "foobot", "İ"].all
      (fun name => name.toList.all (!isLoneCapital ·)) = true := by decide +kernel
  refine ⟨hSanitize, ((evaluate_sanitized standard RuleSet.empty hSanitize).2).mpr ?_⟩
  intro _ name hName c hc
  simpa using List.all_eq_true.mp (List.all_eq_true.mp hSmall name hName) c hc

/-- The double-struck capital C has no small letter. -/
theorem evaluate_sanitized_doubleStruck :
    Agent.sanitize ["ℂbot"] = .ok ["ℂbot"] ∧
      standard.evaluate ["ℂbot"] RuleSet.empty = .error (.uppercaseAgentName "ℂbot") := by
  decide +kernel

end Settings

end RobotsTxt
