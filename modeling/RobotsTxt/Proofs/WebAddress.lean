import RobotsTxt.Proofs.References
import RobotsTxt.Proofs.Segments

/-! Reading addresses of the web: the scheme with a host of letters, a path without dots and perhaps
a query.  Such a text is always a URL, and what it escapes is in the path and the query. -/

namespace RobotsTxt.Url

/-! ### Hosts of letters -/

theorem ne_of_isAlpha {c d : Char} (h : c.isAlpha = true) (hd : d.isAlpha = false) : c ≠ d := by
  rintro rfl
  simp [h] at hd

theorem not_mem_of_isAlpha {s : List Char} {d : Char} (h : ∀ c ∈ s, c.isAlpha = true)
    (hd : d.isAlpha = false) : d ∉ s :=
  fun hMem => ne_of_isAlpha (h d hMem) hd rfl

theorem toNat_lt_of_isAlpha {c : Char} (h : c.isAlpha = true) : c.toNat < 128 := by
  rw [Text.isAlpha_iff] at h
  omega

theorem isAlpha_toLower {c : Char} (h : c.isAlpha = true) : c.toLower.isAlpha = true := by
  have hTable : ∀ n < 128, (Char.ofNat n).isAlpha = true →
      (Char.ofNat n).toLower.isAlpha = true := by decide
  have hLower := hTable c.toNat (toNat_lt_of_isAlpha h)
  rw [Char.ofNat_toNat] at hLower
  exact hLower h

theorem isSlash_of_isAlpha {c : Char} (h : c.isAlpha = true) (scheme : Scheme) :
    scheme.isSlash c = false := by
  have hSlash : c ≠ '/' := ne_of_isAlpha h (by decide)
  have hBackslash : c ≠ '\\' := ne_of_isAlpha h (by decide)
  simp [Scheme.isSlash, hSlash, hBackslash]

theorem isForbidden_of_isAlpha {c : Char} (h : c.isAlpha = true) : Host.isForbidden c = false := by
  rw [Text.isAlpha_iff] at h
  simp only [Host.isForbidden, Bool.or_eq_false_iff, decide_eq_false_iff_not, List.mem_cons,
    List.not_mem_nil, or_false, ← Char.toNat_inj, Char.reduceToNat]
  omega

theorem natInBase?_ten {c : Char} {s : List Char} (h : c.isAlpha = true) :
    Text.natInBase? 10 (c :: s) = none := by
  have hDigit : ∀ value, Text.digitValue? c = some value → 10 ≤ value := by
    rw [Text.isAlpha_iff] at h
    intro value hValue
    simp only [Text.digitValue?, Char.le_def, UInt32.le_iff_toNat_le, Bool.and_eq_true,
      decide_eq_true_eq, Char.toNat_val, Char.reduceToNat] at hValue
    rw [if_neg (by omega)] at hValue
    split at hValue
    · rw [← Option.some.inj hValue]
      omega
    · split at hValue
      · rw [← Option.some.inj hValue]
        omega
      · contradiction
  rw [Text.natInBase?, List.foldlM_cons]
  cases hValue : Text.digitValue? c with
  | none => rfl
  | some value => simp [Nat.not_lt.mpr (hDigit value hValue)]

theorem number?_of_isAlpha {c : Char} {s : List Char} (h : c.isAlpha = true) :
    Ipv4.number? (c :: s) = none := by
  have hZero : c ≠ '0' := ne_of_isAlpha h (by decide)
  simp [Ipv4.number?, hZero, natInBase?_ten h]

/-- A name of letters is one label. -/
theorem splitOn_of_isAlpha {s : List Char} (h : ∀ c ∈ s, c.isAlpha = true) :
    s.splitOn '.' = [s] := by
  rw [List.splitOn_eq_splitOnP]
  refine List.splitOnP_eq_singleton fun c hc => ?_
  simpa using ne_of_isAlpha (h c hc) (show ('.' : Char).isAlpha = false by decide)

/-- A name of letters does not end in a number, so it is no address. -/
theorem endsInNumber_of_isAlpha {s : List Char} (h : ∀ c ∈ s, c.isAlpha = true) :
    Ipv4.endsInNumber s = false := by
  have hSplit := splitOn_of_isAlpha h
  cases s with
  | nil => rfl
  | cons c s =>
    have hLetter : c.isAlpha = true := h c List.mem_cons_self
    have hDigit : c.isDigit = false := by
      rw [Text.isAlpha_iff] at hLetter
      simp only [Char.isDigit, UInt32.le_iff_toNat_le, Bool.and_eq_false_iff, decide_eq_false_iff_not,
        Char.toNat_val, Char.reduceToNat]
      omega
    simp [Ipv4.endsInNumber, Ipv4.parts, hSplit, hDigit, number?_of_isAlpha hLetter]

theorem scan_of_isAlpha {s : List Char} (h : ∀ c ∈ s, c.isAlpha = true) :
    Percent.scan s = s.map .char := by
  induction s with
  | nil => rfl
  | cons c s ih =>
    obtain ⟨hFirst, hRest⟩ := List.forall_mem_cons.mp h
    rw [Percent.scan_cons_of_ne (ne_of_isAlpha hFirst (by decide)), ih hRest, List.map_cons]

theorem bytes_of_isAlpha {s : List Char} (h : ∀ c ∈ s, c.isAlpha = true) :
    (Percent.scan s).flatMap Percent.Piece.bytes = s.map fun c => UInt8.ofNat c.toNat := by
  rw [scan_of_isAlpha h, List.flatMap_map, List.map_eq_flatMap]
  refine List.flatMap_congr fun c hc => ?_
  exact Percent.utf8EncodeChar_of_lt (toNat_lt_of_isAlpha (h c hc))

theorem toNat_byte_of_isAlpha {c : Char} (h : c.isAlpha = true) :
    (UInt8.ofNat c.toNat).toNat = c.toNat := by
  have hAscii := toNat_lt_of_isAlpha h
  rw [UInt8.toNat_ofNat', Nat.mod_eq_of_lt (by omega)]

theorem small_of_isAlpha {s : List Char} (h : ∀ c ∈ s, c.isAlpha = true) :
    Domains.small (s.map fun c => UInt8.ofNat c.toNat) = s.map Char.toLower := by
  rw [Domains.small, List.map_map]
  refine List.map_congr_left fun c hc => ?_
  rw [Function.comp_apply, toNat_byte_of_isAlpha (h c hc), Char.ofNat_toNat]

theorem isAlpha_of_mem_toLower {s : List Char} (h : ∀ c ∈ s, c.isAlpha = true) :
    ∀ c ∈ s.map Char.toLower, c.isAlpha = true := by
  intro c hc
  obtain ⟨d, hd, rfl⟩ := List.mem_map.mp hc
  exact isAlpha_toLower (h d hd)

/-- A mark has hyphens in it, and a name of letters has none. -/
theorem isSimple_of_isAlpha {s : List Char} (h : ∀ c ∈ s, c.isAlpha = true) :
    Host.isSimple (s.map fun c => UInt8.ofNat c.toNat) = true := by
  have hLower := isAlpha_of_mem_toLower h
  have hAscii : (s.map fun c => UInt8.ofNat c.toNat).all (· < 0x80) = true := by
    rw [List.all_map, List.all_eq_true]
    intro c hc
    simpa [UInt8.lt_iff_toNat_lt, toNat_byte_of_isAlpha (h c hc)] using
      toNat_lt_of_isAlpha (h c hc)
  have hMark : "xn--".toList.isPrefixOf (s.map Char.toLower) = false := by
    rw [Bool.eq_false_iff, ne_eq, List.isPrefixOf_iff_prefix]
    intro hPrefix
    have hHyphen : '-' ∈ s.map Char.toLower := hPrefix.subset (by decide)
    exact not_mem_of_isAlpha hLower (by decide) hHyphen
  rw [Host.isSimple, hAscii, small_of_isAlpha h, splitOn_of_isAlpha hLower, List.any_cons, hMark]
  rfl

/-- A name of letters is its own form in ASCII, in small letters, whatever the tables say. -/
theorem domain?_of_isAlpha [Domains] {s : List Char} (h : ∀ c ∈ s, c.isAlpha = true) :
    Host.domain? ((Percent.scan s).flatMap Percent.Piece.bytes) = some (s.map Char.toLower) := by
  rw [bytes_of_isAlpha h, Host.domain?, if_pos (isSimple_of_isAlpha h), small_of_isAlpha h]

theorem ofText?_of_isAlpha [Domains] {s : List Char} (hs : s ≠ [])
    (h : ∀ c ∈ s, c.isAlpha = true) : Host.ofText? s = some (.name (s.map Char.toLower)) := by
  have hLower := isAlpha_of_mem_toLower h
  have hAllowed : (s.map Char.toLower).any Host.isForbidden = false := by
    rw [List.any_eq_false]
    intro c hc
    simp [isForbidden_of_isAlpha (hLower c hc)]
  unfold Host.ofText?
  split
  · exact absurd rfl (ne_of_isAlpha (h '[' List.mem_cons_self) (by decide))
  · have hEmpty : (s.map Char.toLower).isEmpty = false := by simpa using hs
    rw [domain?_of_isAlpha h, Option.bind_eq_bind, Option.bind_some]
    simp only [hEmpty, hAllowed, endsInNumber_of_isAlpha hLower]
    rfl

/-! ### Addresses -/

theorem splitCredentials_of_not_mem {s : List Char} (h : '@' ∉ s) :
    splitCredentials s = (none, s) := by
  have hReverse : ∀ c ∈ s.reverse, decide (c ≠ '@') = true :=
    Reference.forall_ne_of_not_mem (by simpa using h)
  rw [splitCredentials, List.span_eq_takeWhile_dropWhile, List.dropWhile_eq_nil_iff.mpr hReverse]

theorem splitHost_of_not_mem {s : List Char} (h : ':' ∉ s) (inBrackets : Bool) :
    splitHost inBrackets s = (s, []) := by
  induction s generalizing inBrackets with
  | nil => rfl
  | cons c s ih =>
    rw [List.mem_cons, not_or] at h
    rw [splitHost, if_neg (by simp [Ne.symm h.1]), ih h.2]

theorem authority?_of_isAlpha [Domains] {s : List Char} (hs : s ≠ [])
    (h : ∀ c ∈ s, c.isAlpha = true) (atEnd : Bool) :
    authority? .https s atEnd = some (⟨[], [], some (.name (s.map Char.toLower)), none⟩, []) := by
  have hHost : hostAndPort? .https true s = some (some (.name (s.map Char.toLower)), none, []) := by
    rw [hostAndPort?, splitHost_of_not_mem (not_mem_of_isAlpha h (by decide))]
    cases s with
    | nil => contradiction
    | cons c s =>
      have hName : host? .https (c :: s) = some (.name ((c :: s).map Char.toLower)) :=
        ofText?_of_isAlpha hs h
      simp only [hName, Option.map_some]
  rw [authority?, splitCredentials_of_not_mem (not_mem_of_isAlpha h (by decide))]
  show (hostAndPort? .https true s).bind _ = _
  rw [hHost]
  rfl

/-- A path from the root, perhaps with a query, that ends where it ends also in an address.  No
segment of the path is dots. -/
structure IsPathText (p : List Char) : Prop where
  slash : p.head? = some '/'
  marks : ∀ c ∈ p, c ∉ ['\\', '#', '\t', '\n', '\r']
  last : ∀ c ∈ p.getLast?, Reference.isOuter c = false
  dots : ∀ segment ∈ (Reference.cut '?' p).1.splitOn '/', Path.isDots segment = false

theorem isPathText_iff {p : List Char} : IsPathText p ↔
    p.head? = some '/' ∧ p.all (fun c => c ∉ ['\\', '#', '\t', '\n', '\r']) = true ∧
      p.getLast?.any Reference.isOuter = false ∧
      ((Reference.cut '?' p).1.splitOn '/').any Path.isDots = false := by
  simp only [List.all_eq_true, decide_eq_true_eq, List.any_eq_false, Bool.not_eq_true,
    Option.any_eq_false]
  exact ⟨fun ⟨hSlash, hMarks, hLast, hDots⟩ => ⟨hSlash, hMarks, hLast, hDots⟩,
    fun ⟨hSlash, hMarks, hLast, hDots⟩ => ⟨hSlash, hMarks, hLast, hDots⟩⟩

instance (p : List Char) : Decidable (IsPathText p) := decidable_of_iff' _ isPathText_iff

/-- The path and query as an address has them. -/
def escaped (p : List Char) : List Char :=
  encode inPath (Reference.cut '?' p).1 ++
    ((Reference.cut '?' p).2.map fun query => '?' :: encode inSpecialQuery query).getD []

variable {host p : List Char}

theorem IsPathText.exists_eq (h : IsPathText p) : ∃ rest, p = '/' :: rest :=
  List.head?_eq_some_iff.mp h.slash

theorem IsPathText.exists_cut_eq (h : IsPathText p) :
    ∃ rest, (Reference.cut '?' p).1 = '/' :: rest ∧ '\\' ∉ rest ∧
      ∀ segment ∈ rest.splitOn '/', Path.isDots segment = false := by
  obtain ⟨s, rfl⟩ := h.exists_eq
  have hPath : (Reference.cut '?' ('/' :: s)).1 = '/' :: (Reference.cut '?' s).1 := by
    simp [Reference.cut_eq]
  refine ⟨_, hPath, ?_, ?_⟩
  · intro hMem
    have hPart : '\\' ∈ (Reference.cut '?' ('/' :: s)).1 := by
      rw [hPath]
      exact List.mem_cons_of_mem _ hMem
    exact h.marks '\\' (Reference.mem_of_mem_cut hPart) (by decide)
  · intro segment hSegment
    refine h.dots segment ?_
    rw [hPath, List.splitOn_cons_eq_if_modifyHead]
    simp [hSegment]

theorem IsPathText.isIgnored (h : IsPathText p) {c : Char} (hc : c ∈ p) :
    Reference.isIgnored c = false := by
  have hMarks := h.marks c hc
  simp only [List.mem_cons, not_or] at hMarks
  simp [Reference.isIgnored, hMarks]

theorem reference_web (hHost : ∀ c ∈ host, c.isAlpha = true) (h : IsPathText p) :
    Reference.ofText ("https://".toList ++ host ++ p) =
      ⟨some .https, "//".toList ++ host ++ (Reference.cut '?' p).1, (Reference.cut '?' p).2,
        none⟩ := by
  have hOutside : ∀ {d}, d.isAlpha = false → d ∉ "https://".toList →
      d ∉ "https://".toList ++ host := by
    intro d hd hScheme hMem
    exact (List.mem_append.mp hMem).elim hScheme (not_mem_of_isAlpha hHost hd)
  have hTrim : Reference.trimOuter ("https://".toList ++ host ++ p) =
      "https://".toList ++ host ++ p := by
    have hLast : ∀ c ∈ ("https://".toList ++ host ++ p).getLast?, Reference.isOuter c = false := by
      have hNil : p ≠ [] := by
        rintro rfl
        simpa using h.slash
      rw [List.getLast?_append_of_ne_nil _ hNil]
      exact h.last
    rw [Reference.trimOuter_eq_dropWhile hLast]
    rfl
  have hFragment : '#' ∉ "https://".toList ++ host ++ p := by
    intro hMem
    rcases List.mem_append.mp hMem with hStart | hPath
    · exact hOutside (by decide) (by decide) hStart
    · exact h.marks '#' hPath (by decide)
  have hQuery : '?' ∉ "https://".toList ++ host := hOutside (by decide) (by decide)
  have hScheme : Reference.splitScheme ("https://".toList ++ host ++ (Reference.cut '?' p).1) =
      (some .https, "//".toList ++ host ++ (Reference.cut '?' p).1) := by
    have hColon : Reference.cut ':' ("https://".toList ++ host ++ (Reference.cut '?' p).1) =
        ("https".toList, some ("//".toList ++ host ++ (Reference.cut '?' p).1)) :=
      Reference.cut_append_cons (show ':' ∉ "https".toList by decide) _
    have hName : Reference.isSchemeName (Reference.counted "https".toList) = true := by decide
    simp only [Reference.splitScheme, hColon, hName, if_true]
    rfl
  have hCounted : (Reference.cut '?' p).2.map Reference.counted = (Reference.cut '?' p).2 := by
    cases hQuery : (Reference.cut '?' p).2 with
    | none => rfl
    | some query =>
      rw [Option.map_some, Reference.counted_eq_self]
      intro c hc
      exact h.isIgnored (Reference.mem_of_mem_query hQuery hc)
  simp only [Reference.ofText, hTrim, Reference.cut_of_not_mem hFragment,
    Reference.cut_append hQuery, hScheme, hCounted, Option.map_none]

theorem body_web (hName : host ≠ []) (hHost : ∀ c ∈ host, c.isAlpha = true) (h : IsPathText p) :
    (Reference.counted ("//".toList ++ host ++ (Reference.cut '?' p).1)).dropWhile
      (Scheme.isSlash .https) = host ++ (Reference.cut '?' p).1 := by
  have hCounted : Reference.counted ("//".toList ++ host ++ (Reference.cut '?' p).1) =
      "//".toList ++ host ++ (Reference.cut '?' p).1 := by
    refine Reference.counted_eq_self fun c hc => ?_
    simp only [List.mem_append] at hc
    rcases hc with (hSlash | hLetter) | hPath
    · obtain rfl : c = '/' := by simpa using hSlash
      rfl
    · simpa [Reference.isIgnored, and_assoc] using
        ⟨ne_of_isAlpha (hHost c hLetter) (by decide), ne_of_isAlpha (hHost c hLetter) (by decide),
          ne_of_isAlpha (hHost c hLetter) (by decide)⟩
    · exact h.isIgnored (Reference.mem_of_mem_cut hPath)
  rw [hCounted]
  cases host with
  | nil => contradiction
  | cons c s =>
    have hFirst := isSlash_of_isAlpha (hHost c List.mem_cons_self) .https
    show List.dropWhile (Scheme.isSlash .https) (c :: (s ++ _)) = _
    rw [List.dropWhile_cons_of_neg (by simp [hFirst])]
    rfl

/-- An address is a URL, whose path is the one that is written, with its characters escaped. -/
theorem ofText?_web [Domains] (hName : host ≠ []) (hHost : ∀ c ∈ host, c.isAlpha = true)
    (h : IsPathText p) :
    ∃ path, ofText? ("https://".toList ++ host ++ p) = some
        ⟨.https, some ⟨[], [], some (.name (host.map Char.toLower)), none⟩, .rooted path,
          (Reference.cut '?' p).2.map (encode inSpecialQuery), none⟩ ∧
      (Path.rooted path).text = encode inPath (Reference.cut '?' p).1 := by
  obtain ⟨rest, hPath, hSlash, hDots⟩ := h.exists_cut_eq
  have hSpan : (host ++ '/' :: rest).span (fun c => !Scheme.isSlash .https c) =
      (host, '/' :: rest) := by
    have hKept : ∀ c ∈ host, (!Scheme.isSlash .https c) = true := by
      intro c hc
      simp [isSlash_of_isAlpha (hHost c hc)]
    rw [List.span_eq_takeWhile_dropWhile, List.takeWhile_append_of_pos hKept,
      List.dropWhile_append_of_pos hKept]
    simp [Scheme.isSlash]
  have hBody := body_web hName hHost h
  have hText := text_pathAfterAuthority .https hSlash hDots
  rw [hPath] at hBody ⊢
  refine ⟨_, ?_, hText⟩
  rw [ofText?, reference_web hHost h, hPath, ofReference?]
  show withAuthority? _ _ (List.dropWhile _ (Reference.counted _)) = _
  rw [hBody]
  simp only [withAuthority?, hSpan, authority?_of_isAlpha hName hHost]
  rfl

end RobotsTxt.Url
