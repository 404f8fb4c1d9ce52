import Frontend.Proofs.Language.LongestMatch
import Frontend.Proofs.Scanner.Outcomes
import Frontend.Proofs.Parse.Loading

/-! When the digit limit stops a scan.

A number the scanner cuts is a run of decimal digits, or such a run, a point and a second run
(`numberPiece_cases`). A number with a point is read as the double nearest to it, which never
fails, however many digits it has, and may be infinite (`numberValue_point`,
`numberValue_infinite`). A number without a point is read as a whole number, which fails exactly
when it has more than `digitLimit` digits (`numberValue_error_iff`). No other rule of the
scanner fails to make its token (`eq_number_of_make_error`).

**`scan_stops_at_long_whole`**: scanning a source in a session fails exactly when the scanner reads
up to a number without a point of more than `digitLimit` digits, and fails there on its length. -/
namespace Frontend.Language

open Scanner

/-! ### Numbers -/

theorem digitsValue?_isSome {cs : List Char} (h : cs.all Text.isDecimalDigit = true) :
    (Decimal.digitsValue? cs).isSome := by
  rw [Option.isSome_iff_ne_none]
  intro hnone
  obtain ⟨c, hc, hdigit⟩ := (Parse.digits_foldlM_eq_none_iff cs 0).mp hnone
  rw [List.all_eq_true.mp h c hc] at hdigit
  cases hdigit

/-- A number is a run of decimal digits, or a run, a point and a second run. -/
theorem numberPiece_cases {input : List Char} {k : Cut input} (h : numberPattern input = some k) :
    (k.piece.all isDigit = true ∧ '.' ∉ k.piece) ∨
      ∃ a b, k.piece = a ++ '.' :: b ∧ a.all isDigit = true ∧ b.all isDigit = true := by
  have hpiece := (TokenClass.recognizes .number).sound h
  obtain ⟨c, cs, hcs⟩ : ∃ c cs, k.piece = c :: cs := List.exists_cons_of_ne_nil k.piece_ne
  rw [hcs] at hpiece ⊢
  simp only [TokenClass.accepts, runThenMaybe, Bool.and_eq_true, Bool.or_eq_true] at hpiece
  obtain ⟨hc, hall | hfrac⟩ := hpiece
  · refine .inl ⟨by simp [hc, hall], fun hmem => ?_⟩
    have hdot : isDigit '.' = true := by
      rcases List.mem_cons.mp hmem with heq | hmem
      · rw [heq]; exact hc
      · exact List.all_eq_true.mp hall _ hmem
    revert hdot
    decide
  · obtain ⟨t, ht, hspan⟩ := startsWith_iff.mp hfrac
    obtain ⟨d, ds, rfl⟩ : ∃ d ds, t = d :: ds := by
      cases t with
      | nil => simp [spanText] at hspan
      | cons d ds => exact ⟨d, ds, rfl⟩
    simp only [spanText, Bool.and_eq_true] at hspan
    refine .inr ⟨c :: cs.takeWhile isDigit, d :: ds, ?_, ?_, by simp [hspan.1, hspan.2]⟩
    · rw [List.cons_append, show '.' :: d :: ds = cs.dropWhile isDigit from ht.symm,
        List.takeWhile_append_dropWhile]
    · simp [hc, List.all_takeWhile]

/-- A run of decimal digits has no point. -/
theorem not_mem_point_of_digits {cs : List Char} (h : cs.all isDigit = true) : '.' ∉ cs := by
  intro hmem
  have := List.all_eq_true.mp h '.' hmem
  revert this
  decide

/-- A run of decimal digits is read as a whole number, refused when it is longer than the limit,
and then on its length. -/
theorem readWhole_digits_error_iff {cs : List Char} (h : cs.all isDigit = true)
    (e : Decimal.WholeError) :
    Decimal.readWhole cs = .error e ↔ Decimal.digitLimit < cs.length ∧ e = .tooLong cs.length := by
  have hlead : Decimal.leadingDigits cs = cs.length := Decimal.leadingDigits_of_all h
  by_cases hlong : Decimal.digitLimit < cs.length
  · rw [Decimal.readWhole_tooLong (hlead ▸ hlong), hlead]
    simp [hlong, eq_comm]
  · obtain ⟨n, hn⟩ := Option.isSome_iff_exists.mp (digitsValue?_isSome h)
    have hread : Decimal.readWhole cs = .ok n := by
      rw [Decimal.readWhole, if_neg (by rw [hlead]; exact hlong)]
      rw [show cs.foldlM (fun acc c => (Text.digitValue? c).map fun v => acc * 10 + v) 0 = some n
        from hn]
    rw [hread]
    simp [hlong]

theorem numberValue_digits {cs : List Char} (h : cs.all isDigit = true) :
    numberValue cs = (Decimal.readWhole cs).map fun n => Value.int n := by
  rw [numberValue, if_neg (by simpa using not_mem_point_of_digits h)]

/-- **A number with a point is read whatever its length**: as the double nearest to it. -/
theorem numberValue_point {a b : List Char} (ha : a.all isDigit = true)
    (hb : b.all isDigit = true) :
    ∃ d, Decimal.ofParts? a b = some d ∧ numberValue (a ++ '.' :: b) = .ok (.real d.toFloat) := by
  have hall : (a ++ b).all Text.isDecimalDigit = true := by
    simp only [List.all_append, Bool.and_eq_true]
    exact ⟨ha, hb⟩
  obtain ⟨n, hn⟩ := Option.isSome_iff_exists.mp (digitsValue?_isSome hall)
  have hparts : Decimal.ofParts? a b = some ⟨n, -(b.length : Int)⟩ := by
    simp [Decimal.ofParts?, hn]
  -- the point closes the first run, and the second run follows it
  have hpoint : ∀ x ∈ a, (x != '.') = true := fun x hx => by
    have hx' : x ≠ '.' := fun hxe => not_mem_point_of_digits ha (hxe ▸ hx)
    simpa using hx'
  have htake : (a ++ '.' :: b).takeWhile (· != '.') = a := by
    rw [List.takeWhile_append_of_pos hpoint, List.takeWhile_cons_of_neg (by simp),
      List.append_nil]
  have hdrop : (a ++ '.' :: b).dropWhile (· != '.') = '.' :: b := by
    rw [List.dropWhile_append_of_pos hpoint, List.dropWhile_cons_of_neg (by simp)]
  refine ⟨_, hparts, ?_⟩
  rw [numberValue, if_pos (by simp), htake, hdrop]
  simp only [List.drop_one, List.tail_cons, hparts]

/-- A text of the number class is cut whole where it is all there is. -/
theorem numberPattern_whole {input : List Char} (h : TokenClass.number.accepts input = true) :
    ∃ k : Cut input, numberPattern input = some k ∧ k.piece = input := by
  have hne : input ≠ [] := by
    rintro rfl
    cases h
  have hr := TokenClass.recognizes .number
  obtain ⟨k, hk⟩ := Option.isSome_iff_exists.mp (hr.complete hne (List.prefix_refl input) h)
  have hlen := hr.longest hk (List.prefix_refl input) h
  exact ⟨k, hk, k.piece_isPrefix.eq_of_length (Nat.le_antisymm (k.piece_isPrefix.length_le) hlen)⟩

/-- A number with a point past the largest double is read as infinity: ten to the 309, written
with one fractional zero. -/
theorem numberValue_infinite :
    numberValue (('1' :: List.replicate 309 '0') ++ ['.', '0']) =
      .ok (.real Decimal.infinity.toFloat) := by
  obtain ⟨d, hd, hv⟩ := numberValue_point (a := '1' :: List.replicate 309 '0') (b := ['0'])
    (by decide +kernel) (by decide)
  have hinf : (Decimal.ofParts? ('1' :: List.replicate 309 '0') ['0']).map Decimal.toBinary =
      some Decimal.infinity := by
    decide +kernel
  rw [hd] at hinf
  rw [hv, Decimal.toFloat, Option.some.inj hinf]

/-- A number the scanner cuts fails to be read exactly when it has no point and more than
`digitLimit` digits, and then on its length. -/
theorem numberValue_error_iff {input : List Char} {k : Cut input}
    (h : numberPattern input = some k) (e : Decimal.WholeError) :
    numberValue k.piece = .error e ↔
      '.' ∉ k.piece ∧ Decimal.digitLimit < k.piece.length ∧ e = .tooLong k.piece.length := by
  rcases numberPiece_cases h with ⟨hall, hpoint⟩ | ⟨a, b, hab, ha, hb⟩
  · rw [numberValue_digits hall]
    cases hread : Decimal.readWhole k.piece with
    | error e' =>
      have := (readWhole_digits_error_iff hall e').mp hread
      have hmap : ((Except.error e' : Except Decimal.WholeError Nat).map fun n => Value.int n) =
          .error e' := rfl
      rw [hmap, Except.error.injEq]
      constructor
      · rintro rfl
        exact ⟨hpoint, this⟩
      · rintro ⟨-, -, rfl⟩
        exact this.2
    | ok n =>
      have hshort : ¬ Decimal.digitLimit < k.piece.length := fun hlong =>
        absurd ((readWhole_digits_error_iff hall _).mpr ⟨hlong, rfl⟩) (by rw [hread]; simp)
      simp [Except.map, hshort]
  · obtain ⟨d, -, hvalue⟩ := numberValue_point ha hb
    rw [hab, hvalue]
    simp

/-- A number the scanner cuts with a point in it is read as a double. -/
theorem numberValue_of_point_mem {input : List Char} {k : Cut input}
    (h : numberPattern input = some k) (hpoint : '.' ∈ k.piece) :
    ∃ d : Decimal, numberValue k.piece = .ok (.real d.toFloat) := by
  rcases numberPiece_cases h with ⟨-, hnot⟩ | ⟨a, b, hab, ha, hb⟩
  · exact absurd hpoint hnot
  · obtain ⟨d, -, hv⟩ := numberValue_point ha hb
    exact ⟨d, hab ▸ hv⟩

/-- Some number the scanner cuts with a point in it is read as infinity. -/
theorem exists_number_infinite :
    ∃ input, ∃ k : Cut input, numberPattern input = some k ∧ '.' ∈ k.piece ∧
      numberValue k.piece = .ok (.real Decimal.infinity.toFloat) := by
  obtain ⟨k, hk, hpiece⟩ :=
    @numberPattern_whole (('1' :: List.replicate 309 '0') ++ ['.', '0']) (by decide +kernel)
  refine ⟨_, k, hk, ?_, ?_⟩
  · rw [hpiece]
    exact List.mem_append_right _ List.mem_cons_self
  · rw [hpiece]
    exact numberValue_infinite

/-! ### Rules that fail -/

/-- Among the scanner's rules only the number rule can fail to make its token. -/
theorem eq_number_of_make_error {cls : TokenClass} {make : List Char → Except _ (Kind × Value)}
    (hact : cls.action = .token make) {piece : List Char} {e : Decimal.WholeError}
    (hmake : make piece = .error e) :
    cls = .number ∧ numberValue piece = .error e := by
  cases cls with
  | number =>
    cases hact
    refine ⟨rfl, ?_⟩
    cases hv : numberValue piece <;> simp_all [Except.map]
  | word | quoted | operator =>
    cases hact
    cases hmake
  | lineComment | blockComment | lineBreaks => cases hact

/-- The first matching rule of the scanner is the rule of a class whose pattern matches. -/
theorem exists_class_of_firstMatch? {input : List Char} {rule : Rule Decimal.WholeError Kind}
    {k : Cut input} (h : lexer.firstMatch? input = some (rule, k)) :
    ∃ cls : TokenClass, rule = cls.rule ∧ cls.pattern input = some k := by
  rw [firstMatch?_lexer, Option.map_eq_some_iff] at h
  obtain ⟨⟨cls, cut⟩, hfind, hrk⟩ := h
  obtain ⟨rfl, rfl⟩ := Prod.mk.inj hrk
  obtain ⟨cls', -, hmatch⟩ := List.exists_of_findSome?_eq_some hfind
  obtain ⟨cut', hcut', hpair⟩ := Option.map_eq_some_iff.mp hmatch
  obtain ⟨rfl, rfl⟩ := Prod.mk.inj hpair
  exact ⟨cls', rfl, hcut'⟩

/-! ### Where a scan stops -/

/-- The scanner reads up to a text where the number rule matches first, with a number that has
no point and more than `digitLimit` digits. -/
def ReachesLongWhole (input : List Char) : Prop :=
  ∃ ps c rest, ∃ k : Cut (c :: rest), lexer.Reads input ps (c :: rest) ∧ lexer.blank c = false ∧
    lexer.firstMatch? (c :: rest) = some (TokenClass.number.rule, k) ∧ '.' ∉ k.piece ∧
    Decimal.digitLimit < k.piece.length

/-- A scan fails exactly where the scanner reads up to a long number without a point, on its
length. -/
theorem scan_fails_iff_long_whole (input : List Char) (place : Place) (found : Found Kind)
    (e : Decimal.WholeError) :
    (lexer.scan input place found).2 = some e ↔
      ∃ ps c rest, ∃ k : Cut (c :: rest), lexer.Reads input ps (c :: rest) ∧
        lexer.blank c = false ∧ lexer.firstMatch? (c :: rest) = some (TokenClass.number.rule, k) ∧
        '.' ∉ k.piece ∧ Decimal.digitLimit < k.piece.length ∧ e = .tooLong k.piece.length := by
  rw [Lexer.scan_fails_iff]
  constructor
  · rintro ⟨ps, c, rest, rule, k, make, hreads, hb, hfirst, hact, hmake⟩
    obtain ⟨cls, rfl, hmatch⟩ := exists_class_of_firstMatch? hfirst
    obtain ⟨rfl, hvalue⟩ := eq_number_of_make_error hact hmake
    obtain ⟨hpoint, hlong, rfl⟩ := (numberValue_error_iff hmatch e).mp hvalue
    exact ⟨ps, c, rest, k, hreads, hb, hfirst, hpoint, hlong, rfl⟩
  · rintro ⟨ps, c, rest, k, hreads, hb, hfirst, hpoint, hlong, rfl⟩
    obtain ⟨cls, hrule, hmatch⟩ := exists_class_of_firstMatch? hfirst
    have hnumber : numberPattern (c :: rest) = some k := by
      rw [show numberPattern = cls.pattern from congrArg Rule.pattern hrule]
      exact hmatch
    have hvalue := (numberValue_error_iff hnumber _).mpr ⟨hpoint, hlong, rfl⟩
    refine ⟨ps, c, rest, _, k, _, hreads, hb, hfirst, rfl, ?_⟩
    simp [hvalue, Except.map]

/-- **A scan stops on the digit limit, and on nothing else.** Scanning a source in a session
fails exactly when the scanner reads up to a number without a point of more than `digitLimit`
digits, and the failure is that number's length. A number with a point is read whatever its
length, as the double nearest to it, which may be infinite. -/
theorem scan_stops_at_long_whole (s : Session) (source : String) :
    ((∃ e, (s.scan source).failure = some e) ↔ ReachesLongWhole source.toList) ∧
      (∀ e, (s.scan source).failure = some e → ∃ n, e = .tooLong n ∧ Decimal.digitLimit < n) ∧
      (∀ input (k : Cut input), numberPattern input = some k → '.' ∈ k.piece →
        ∃ d : Decimal, numberValue k.piece = .ok (.real d.toFloat)) ∧
      ∃ input, ∃ k : Cut input, numberPattern input = some k ∧ '.' ∈ k.piece ∧
        numberValue k.piece = .ok (.real Decimal.infinity.toFloat) := by
  have hfail : ∀ e, (s.scan source).failure = some e ↔ _ := fun e =>
    scan_fails_iff_long_whole source.toList ⟨0, 0⟩ ⟨#[], s.strays, s.line⟩ e
  refine ⟨⟨?_, ?_⟩, ?_, ?_, ?_⟩
  · rintro ⟨e, he⟩
    obtain ⟨ps, c, rest, k, hreads, hb, hfirst, hpoint, hlong, -⟩ := (hfail e).mp he
    exact ⟨ps, c, rest, k, hreads, hb, hfirst, hpoint, hlong⟩
  · rintro ⟨ps, c, rest, k, hreads, hb, hfirst, hpoint, hlong⟩
    exact ⟨_, (hfail _).mpr ⟨ps, c, rest, k, hreads, hb, hfirst, hpoint, hlong, rfl⟩⟩
  · intro e he
    obtain ⟨ps, c, rest, k, -, -, -, -, hlong, rfl⟩ := (hfail e).mp he
    exact ⟨_, rfl, hlong⟩
  · intro input k hk hpoint
    exact numberValue_of_point_mem hk hpoint
  · exact exists_number_infinite

/-- `1.5` is a number with a point, read as a double. -/
theorem scan_stops_at_long_whole_point :
    ∃ k : Cut ['1', '.', '5'], numberPattern ['1', '.', '5'] = some k ∧ '.' ∈ k.piece ∧
      ∃ d : Decimal, numberValue k.piece = .ok (.real d.toFloat) := by
  obtain ⟨k, hk, hpiece⟩ := @numberPattern_whole ['1', '.', '5'] (by decide +kernel)
  have hpoint : '.' ∈ k.piece := by
    rw [hpiece]
    exact List.mem_cons_of_mem _ List.mem_cons_self
  exact ⟨k, hk, hpoint, (scan_stops_at_long_whole {} "").2.2.1 _ k hk hpoint⟩

end Frontend.Language
