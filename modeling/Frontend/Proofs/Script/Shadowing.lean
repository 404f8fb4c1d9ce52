import Frontend.Proofs.Scanner.Outcomes
import Frontend.Proofs.Language.Lines
import Frontend.Proofs.Language.DigitLimit

/-! Rules of the script dialect that never win.

The script's scanner tries the identifier rule first and the whole-number rule second. Every rule
written for a number with a point or for the word operators `y`, `o` and `no` matches only where
one of those two matches too (`shadowed_rules_match_late`): a number with a point starts with a
run of digits, and the three words start with a letter. The first matching rule therefore never
makes a token of those kinds (`kind_not_shadowed_of_firstMatch?`), and no scan of a script holds
one (`scan_tokens_not_shadowed`).

So a number with a point is scanned as a whole number, a stray point and a whole number
(`scan_numeral`), and the three words as identifiers (`scan_word`). A run of more than
`digitLimit` digits stops the scan instead (`scan_whole_long`), so a script that starts with
such a number makes no token at all (`script_stops_on_long_numeral`).

**`script_never_makes_shadowed_kinds`** gathers these facts. -/
namespace Frontend.Script

open Scanner

/-- The kinds of token that the script's rules for numbers with a point and for the word
operators would make. -/
def shadowedKinds : List Kind := [.real, .logicalAnd, .logicalOr, .negation]

/-- The rule for identifiers and keywords, tried first. -/
def identifierRule : Rule Decimal.WholeError Kind :=
  ⟨Pattern.span (fun c => c.isAlpha || c == '_') (fun c => c.isAlphanum || c == '_'),
    .token fun cs => .ok (Kind.ofWord (String.ofList cs), .text (String.ofList cs))⟩

/-- The rule for whole numbers, tried second. -/
def wholeRule : Rule Decimal.WholeError Kind :=
  ⟨Pattern.span isDigit isDigit,
    .token fun cs => (Decimal.readWhole cs).map fun n => (.whole, .int n)⟩

/-- The rule for numbers with a point, tried third. -/
def decimalRule : Rule Decimal.WholeError Kind :=
  ⟨(Pattern.span isDigit isDigit).andThen
      ((Pattern.word ['.']).andThen (Pattern.span isDigit isDigit)),
    .token fun cs =>
      match Decimal.ofParts? (cs.takeWhile (· != '.')) ((cs.dropWhile (· != '.')).drop 1) with
      | some d => .ok (.real, .real d.toFloat)
      | none => .error (.notDecimal (String.ofList cs))⟩

theorem lexer_rules :
    lexer.rules = identifierRule :: wholeRule :: decimalRule :: lexer.rules.drop 3 := rfl

/-! ### Letters and digits -/

theorem wordStart_eq_false_of_isDigit {c : Char} (h : isDigit c = true) :
    (c.isAlpha || c == '_') = false := by
  cases hw : (c.isAlpha || c == '_')
  · rfl
  · have hnot : isDigit c = false := Language.isDigit_of_isWordStart hw
    rw [hnot] at h
    cases h

theorem identifier_eq_none_of_isDigit {c : Char} {rest : List Char} (h : isDigit c = true) :
    identifierRule.pattern (c :: rest) = none := by
  simp [identifierRule, Pattern.span, wordStart_eq_false_of_isDigit h]

/-- A word of the scanner's classes is no keyword's spelling, or it is a keyword: neither makes a
shadowed kind. -/
theorem ofWord_not_mem_shadowed (w : String) : Kind.ofWord w ∉ shadowedKinds := by
  unfold Kind.ofWord
  cases h : Kind.keywords.find? fun p => p.1 == w with
  | none => decide
  | some p =>
    have hp : p ∈ Kind.keywords := List.mem_of_find?_eq_some h
    have hkw : ∀ q ∈ Kind.keywords, q.2 ∉ shadowedKinds := by decide
    exact hkw p hp

theorem span_isSome {first more : Char → Bool} {c : Char} (h : first c = true) (cs : List Char) :
    (Pattern.span first more (c :: cs)).isSome := by
  simp [Pattern.span, h]

/-! ### Which rule matches first -/

/-- The first matching rule is the identifier rule where it matches, else the whole-number rule
where that matches, else one of the later rules. -/
theorem firstMatch?_cases {input : List Char} {rule : Rule Decimal.WholeError Kind}
    {k : Cut input} (h : lexer.firstMatch? input = some (rule, k)) :
    (rule = identifierRule ∧ identifierRule.pattern input = some k) ∨
      (identifierRule.pattern input = none ∧ rule = wholeRule ∧ wholeRule.pattern input = some k) ∨
      (identifierRule.pattern input = none ∧ wholeRule.pattern input = none ∧
        rule ∈ decimalRule :: lexer.rules.drop 3 ∧ rule.pattern input = some k) := by
  rw [Lexer.firstMatch?, lexer_rules, List.findSome?_cons] at h
  cases hid : identifierRule.pattern input with
  | some k' =>
    rw [hid] at h
    obtain ⟨rfl, rfl⟩ := Prod.mk.inj (Option.some.inj h)
    exact .inl ⟨rfl, rfl⟩
  | none =>
    rw [hid, Option.map_none, List.findSome?_cons] at h
    cases hwh : wholeRule.pattern input with
    | some k' =>
      rw [hwh] at h
      obtain ⟨rfl, rfl⟩ := Prod.mk.inj (Option.some.inj h)
      exact .inr (.inl ⟨rfl, rfl, rfl⟩)
    | none =>
      rw [hwh, Option.map_none] at h
      obtain ⟨r, hr, hmatch⟩ := List.exists_of_findSome?_eq_some h
      obtain ⟨k', hk', hpair⟩ := Option.map_eq_some_iff.mp hmatch
      obtain ⟨rfl, rfl⟩ := Prod.mk.inj hpair
      exact .inr (.inr ⟨rfl, rfl, hr, hk'⟩)

/-! ### Rules written for the shadowed kinds -/

theorem kind_of_identifierRule {make : List Char → Except Decimal.WholeError (Kind × Value)}
    (hact : identifierRule.action = .token make) {cs : List Char} {kind : Kind} {value : Value}
    (hmake : make cs = .ok (kind, value)) : kind = Kind.ofWord (String.ofList cs) := by
  cases hact
  cases hmake
  rfl

theorem kind_of_wholeRule {make : List Char → Except Decimal.WholeError (Kind × Value)}
    (hact : wholeRule.action = .token make) {cs : List Char} {kind : Kind} {value : Value}
    (hmake : make cs = .ok (kind, value)) : kind = .whole := by
  cases hact
  dsimp only at hmake
  cases hread : Decimal.readWhole cs with
  | error e =>
    rw [hread] at hmake
    cases hmake
  | ok n =>
    rw [hread] at hmake
    cases hmake
    rfl

/-- A number with a point starts with the run of digits that the whole-number rule takes. -/
theorem decimal_shadowed {input : List Char} {k : Cut input}
    (h : decimalRule.pattern input = some k) : (wholeRule.pattern input).isSome := by
  obtain ⟨k₁, -, h₁, -, -⟩ := Pattern.andThen_eq_some h
  rw [show wholeRule.pattern = Pattern.span isDigit isDigit from rfl, h₁]
  rfl

/-- The word operators that would make a shadowed kind start with a letter, where the identifier
rule matches. -/
theorem word_shadowed {op : String × Kind} (hop : op ∈ operators) (hkind : op.2 ∈ shadowedKinds)
    {input : List Char} {k : Cut input} (h : Pattern.word op.1.toList input = some k) :
    (identifierRule.pattern input).isSome := by
  have hletter : ∀ op ∈ operators, op.2 ∈ shadowedKinds →
      op.1.toList ≠ [] ∧ op.1.toList.head?.all Char.isAlpha = true := by
    decide
  obtain ⟨hne, hhead⟩ := hletter op hop hkind
  obtain ⟨c, t, hct⟩ := List.exists_cons_of_ne_nil hne
  rw [hct] at hhead
  obtain ⟨⟨u, hu⟩, -⟩ := Pattern.word_eq_some h
  rw [hct, List.cons_append] at hu
  subst hu
  simp only [List.head?_cons, Option.all_some] at hhead
  have hfirst : (c.isAlpha || c == '_') = true := by simp [hhead]
  show (Pattern.span (fun c => c.isAlpha || c == '_') (fun c => c.isAlphanum || c == '_')
    (c :: (t ++ u))).isSome
  exact span_isSome hfirst _

/-- **Every rule that can make a shadowed kind matches only where the identifier rule or the
whole-number rule matches too.** -/
theorem shadowed_rules_match_late {r : Rule Decimal.WholeError Kind} (hr : r ∈ lexer.rules)
    {make : List Char → Except Decimal.WholeError (Kind × Value)} (hact : r.action = .token make)
    {cs : List Char} {kind : Kind} {value : Value} (hmake : make cs = .ok (kind, value))
    (hkind : kind ∈ shadowedKinds) {input : List Char} {k : Cut input}
    (hmatch : r.pattern input = some k) :
    (identifierRule.pattern input).isSome ∨ (wholeRule.pattern input).isSome := by
  simp only [lexer, List.mem_append, List.mem_cons, List.mem_map, List.not_mem_nil,
    or_false] at hr
  rcases hr with (rfl | rfl | rfl | rfl | rfl | rfl | rfl) | ⟨op, hop, rfl⟩
  · exact absurd (kind_of_identifierRule hact hmake ▸ hkind) (ofWord_not_mem_shadowed _)
  · rw [kind_of_wholeRule hact hmake] at hkind
    exact absurd hkind (by decide)
  · exact .inr (decimal_shadowed hmatch)
  · cases hact
    cases hmake
    exact absurd hkind (by decide)
  · cases hact
  · cases hact
  · cases hact
  · cases hact
    cases hmake
    exact .inl (word_shadowed hop hkind hmatch)

/-- **The first matching rule never makes a shadowed kind.** -/
theorem kind_not_shadowed_of_firstMatch? {input : List Char}
    {rule : Rule Decimal.WholeError Kind} {k : Cut input} (h : lexer.firstMatch? input = some (rule, k))
    {make : List Char → Except Decimal.WholeError (Kind × Value)} (hact : rule.action = .token make)
    {kind : Kind} {value : Value} (hmake : make k.piece = .ok (kind, value)) :
    kind ∉ shadowedKinds := by
  intro hkind
  rcases firstMatch?_cases h with ⟨rfl, -⟩ | ⟨-, rfl, -⟩ | ⟨hid, hwh, hr, hmatch⟩
  · exact ofWord_not_mem_shadowed _ (kind_of_identifierRule hact hmake ▸ hkind)
  · rw [kind_of_wholeRule hact hmake] at hkind
    exact absurd hkind (by decide)
  · have hmem : rule ∈ lexer.rules := by
      rw [lexer_rules]
      exact List.mem_cons_of_mem _ (List.mem_cons_of_mem _ hr)
    rcases shadowed_rules_match_late hmem hact hmake hkind hmatch with hsome | hsome
    · rw [hid] at hsome
      cases hsome
    · rw [hwh] at hsome
      cases hsome

/-- **No script's scan makes a shadowed kind.** -/
theorem scan_tokens_not_shadowed (source : String) :
    ∀ t ∈ (scan source).tokens, t.kind ∉ shadowedKinds := by
  intro t ht
  rw [scan_tokens] at ht
  rcases Lexer.mem_scan_tokens ht with hnil | ⟨text, rule, k, make, hfirst, hact, hmake⟩
  · simp at hnil
  · exact kind_not_shadowed_of_firstMatch? hfirst hact hmake

/-! ### Scanning numbers and words -/

theorem blank_eq_false {c : Char} (hspace : c ≠ ' ') (htab : c ≠ '\t') : lexer.blank c = false := by
  simp [lexer, hspace, htab]

theorem blank_eq_false_of_isDigit {c : Char} (h : isDigit c = true) : lexer.blank c = false := by
  apply blank_eq_false <;> rintro rfl <;> exact absurd h (by decide)

theorem span_cons {first more : Char → Bool} {c : Char} (h : first c = true) (cs : List Char) :
    ∃ k : Cut (c :: cs), Pattern.span first more (c :: cs) = some k ∧
      k.piece = c :: cs.takeWhile more ∧ k.rest = cs.dropWhile more :=
  ⟨_, by rw [Pattern.span, if_pos h], rfl, rfl⟩

/-- A run of a class followed by a character outside it: the run is where the class stops. -/
theorem takeWhile_append_of_head {p : Char → Bool} {run t : List Char} (hrun : run.all p = true)
    (ht : ∀ e ∈ t.head?, p e = false) :
    (run ++ t).takeWhile p = run ∧ (run ++ t).dropWhile p = t := by
  cases t with
  | nil =>
    have hmem : ∀ a ∈ run, p a = true := List.all_eq_true.mp hrun
    simp [List.takeWhile_eq_self_iff.mpr hmem, List.dropWhile_eq_nil_iff.mpr hmem]
  | cons e t => exact takeWhile_append_stop t hrun (ht e rfl)

theorem firstMatch?_of_identifier {input : List Char} {k : Cut input}
    (h : identifierRule.pattern input = some k) :
    lexer.firstMatch? input = some (identifierRule, k) := by
  rw [Lexer.firstMatch?, lexer_rules, List.findSome?_cons, h]
  rfl

theorem firstMatch?_of_whole {input : List Char} {k : Cut input}
    (hid : identifierRule.pattern input = none) (h : wholeRule.pattern input = some k) :
    lexer.firstMatch? input = some (wholeRule, k) := by
  rw [Lexer.firstMatch?, lexer_rules, List.findSome?_cons, hid, Option.map_none,
    List.findSome?_cons, h]
  rfl

/-- No rule of the script's scanner takes a point. -/
theorem firstMatch?_point (t : List Char) : lexer.firstMatch? ('.' :: t) = none := by
  have hdot : isDigit '.' = false := by decide
  simp [Lexer.firstMatch?, lexer, operators, Pattern.word, Pattern.span, Pattern.andThen,
    Pattern.thenWhile, Pattern.quoted, Pattern.between, hdot]

/-- A point is a stray character. -/
theorem scan_point (t : List Char) (place : Place) (found : Found Kind) :
    lexer.scan ('.' :: t) place found =
      lexer.scan t (place.past ['.'])
        { found with strays := found.strays.push ⟨'.', found.line, place.column⟩ } :=
  Lexer.scan_stray place found (by decide) (firstMatch?_point t)

/-- A run of digits followed by no digit is cut whole by the whole-number rule, which matches
first there. -/
theorem firstMatch?_digits {a t : List Char} (ha : a ≠ []) (hda : a.all isDigit = true)
    (ht : ∀ e ∈ t.head?, isDigit e = false) :
    ∃ k : Cut (a ++ t), lexer.firstMatch? (a ++ t) = some (wholeRule, k) ∧ k.piece = a ∧
      k.rest = t := by
  obtain ⟨d, ds, rfl⟩ := List.exists_cons_of_ne_nil ha
  simp only [List.all_cons, Bool.and_eq_true] at hda
  obtain ⟨k, hk, hpiece, hrest⟩ := @span_cons isDigit isDigit d hda.1 (ds ++ t)
  obtain ⟨htake, hdrop⟩ := takeWhile_append_of_head hda.2 ht
  refine ⟨k, firstMatch?_of_whole (identifier_eq_none_of_isDigit hda.1) hk, ?_, ?_⟩
  · rw [hpiece, htake]
  · rw [hrest, hdrop]

/-- A run of digits of at most `digitLimit` digits, followed by no digit, is a whole number. -/
theorem scan_whole {a t : List Char} (ha : a ≠ []) (hda : a.all isDigit = true)
    (ht : ∀ e ∈ t.head?, isDigit e = false) {n : Nat} (hread : Decimal.readWhole a = .ok n)
    (place : Place) (found : Found Kind) :
    lexer.scan (a ++ t) place found =
      lexer.scan t (place.past a)
        { found with tokens := found.tokens.push ⟨.whole, .int n, found.line, place.column⟩ } := by
  obtain ⟨k, hfirst, hpiece, hrest⟩ := firstMatch?_digits ha hda ht
  obtain ⟨d, ds, rfl⟩ := List.exists_cons_of_ne_nil ha
  have hd : isDigit d = true := (Bool.and_eq_true _ _ ▸ hda).1
  have hmake : (Decimal.readWhole k.piece).map (fun n => ((Kind.whole, Value.int n))) =
      .ok (.whole, .int n) := by
    rw [hpiece, hread]
    rfl
  refine (Lexer.scan_token place found (blank_eq_false_of_isDigit hd) hfirst rfl hmake).trans ?_
  rw [hpiece, hrest]

/-- A run of more than `digitLimit` digits stops the scan, on its length. -/
theorem scan_whole_long {a t : List Char} (hda : a.all isDigit = true)
    (hlong : Decimal.digitLimit < a.length) (ht : ∀ e ∈ t.head?, isDigit e = false)
    (place : Place) (found : Found Kind) :
    lexer.scan (a ++ t) place found = (found, some (.tooLong a.length)) := by
  have ha : a ≠ [] := by
    rintro rfl
    exact absurd hlong (by decide)
  obtain ⟨k, hfirst, hpiece, -⟩ := firstMatch?_digits ha hda ht
  obtain ⟨d, ds, rfl⟩ := List.exists_cons_of_ne_nil ha
  have hd : isDigit d = true := (Bool.and_eq_true _ _ ▸ hda).1
  have hread : Decimal.readWhole k.piece = .error (.tooLong (d :: ds).length) := by
    rw [hpiece]
    exact (Language.readWhole_digits_error_iff hda _).mpr ⟨hlong, rfl⟩
  have hmake : (Decimal.readWhole k.piece).map (fun n => ((Kind.whole, Value.int n))) =
      .error (.tooLong (d :: ds).length) := by
    rw [hread]
    rfl
  exact Lexer.scan_fail place found (blank_eq_false_of_isDigit hd) hfirst rfl hmake

/-- A run of digits of at most `digitLimit` digits is read as a whole number. -/
theorem readWhole_digits_ok {a : List Char} (hda : a.all isDigit = true)
    (hshort : a.length ≤ Decimal.digitLimit) : ∃ n, Decimal.readWhole a = .ok n := by
  cases hread : Decimal.readWhole a with
  | error e =>
    have := ((Language.readWhole_digits_error_iff hda e).mp hread).1
    omega
  | ok n => exact ⟨n, rfl⟩

/-- **A number with a point is two whole numbers around a stray point**, when each run has at
most `digitLimit` digits. -/
theorem scan_numeral {a b rest : List Char} (ha : a ≠ []) (hb : b ≠ [])
    (hda : a.all isDigit = true) (hdb : b.all isDigit = true)
    (hrest : ∀ e ∈ rest.head?, isDigit e = false) (hla : a.length ≤ Decimal.digitLimit)
    (hlb : b.length ≤ Decimal.digitLimit) (place : Place) (found : Found Kind) :
    ∃ n m, Decimal.readWhole a = .ok n ∧ Decimal.readWhole b = .ok m ∧
      lexer.scan (a ++ '.' :: (b ++ rest)) place found =
        lexer.scan rest (place.past (a ++ '.' :: b))
          ⟨(found.tokens.push ⟨.whole, .int n, found.line, place.column⟩).push
              ⟨.whole, .int m, found.line, (place.past (a ++ ['.'])).column⟩,
            found.strays.push ⟨'.', found.line, (place.past a).column⟩, found.line⟩ := by
  obtain ⟨n, hn⟩ := readWhole_digits_ok hda hla
  obtain ⟨m, hm⟩ := readWhole_digits_ok hdb hlb
  refine ⟨n, m, hn, hm, ?_⟩
  rw [scan_whole ha hda (fun e he => by cases he; decide) hn, scan_point,
    scan_whole hb hdb hrest hm]
  simp only [Place.past_append, List.append_assoc, List.singleton_append]

/-- A word of identifier characters, followed by none, is a token of the class of its spelling. -/
theorem scan_identifier {c : Char} {cs rest : List Char} (hc : (c.isAlpha || c == '_') = true)
    (hcs : cs.all (fun c => c.isAlphanum || c == '_') = true)
    (hrest : ∀ e ∈ rest.head?, (e.isAlphanum || e == '_') = false) (hspace : c ≠ ' ')
    (htab : c ≠ '\t') (place : Place) (found : Found Kind) :
    lexer.scan (c :: cs ++ rest) place found =
      lexer.scan rest (place.past (c :: cs))
        { found with tokens := found.tokens.push (⟨Kind.ofWord (String.ofList (c :: cs)),
            .text (String.ofList (c :: cs)), found.line, place.column⟩) } := by
  obtain ⟨k, hk, hpiece, hrest'⟩ :=
    @span_cons (fun c => c.isAlpha || c == '_') (fun c => c.isAlphanum || c == '_') c hc
      (cs ++ rest)
  obtain ⟨htake, hdrop⟩ := takeWhile_append_of_head hcs hrest
  refine (Lexer.scan_token place found (blank_eq_false hspace htab) (firstMatch?_of_identifier hk)
    rfl rfl).trans ?_
  rw [hpiece, hrest', htake, hdrop]

/-- **The word operators are identifiers**: `y`, `o` and `no`, followed by no identifier
character, are each scanned as an identifier. -/
theorem scan_word {w : String} (hw : w ∈ ["y", "o", "no"]) {rest : List Char}
    (hrest : ∀ e ∈ rest.head?, (e.isAlphanum || e == '_') = false) (place : Place)
    (found : Found Kind) :
    lexer.scan (w.toList ++ rest) place found =
      lexer.scan rest (place.past w.toList)
        { found with tokens := found.tokens.push ⟨.identifier, .text w, found.line, place.column⟩ } := by
  have hwords : ∀ w ∈ ["y", "o", "no"], w.toList ≠ [] ∧
      (w.toList.head?.all fun c => (c.isAlpha || c == '_') && c != ' ' && c != '\t') = true ∧
      w.toList.tail.all (fun c => c.isAlphanum || c == '_') = true ∧
      Kind.ofWord w = .identifier := by
    decide
  obtain ⟨hne, hhead, hall, hkind⟩ := hwords w hw
  obtain ⟨c, cs, hcs⟩ := List.exists_cons_of_ne_nil hne
  rw [hcs] at hhead hall
  simp only [List.head?_cons, Option.all_some, Bool.and_eq_true, bne_iff_ne, ne_eq] at hhead
  simp only [List.tail_cons] at hall
  rw [hcs, scan_identifier hhead.1.1 hall hrest hhead.1.2 hhead.2, ← hcs, String.ofList_toList,
    hkind]

/-! ### Scripts -/

theorem scan_failure (source : String) :
    (scan source).failure = (lexer.run (Text.withUniversalBreaks source) 1 #[]).2 := by
  rcases h : lexer.run (Text.withUniversalBreaks source) 1 #[] with ⟨found, _ | e⟩ <;>
    simp [scan, h]

/-- A source without carriage returns is scanned as it is. -/
theorem run_withUniversalBreaks {source : String} (h : '\r' ∉ source.toList) (line : Nat)
    (strays : Array Stray) :
    lexer.run (Text.withUniversalBreaks source) line strays =
      lexer.scan source.toList ⟨0, 0⟩ ⟨#[], strays, line⟩ := by
  rw [Lexer.run, Text.withUniversalBreaks, String.toList_ofList,
    Text.normalizeBreaks_of_not_mem _ h]

/-- **The script's rules for numbers with a point and for the word operators never win.** No
scan of a script makes a token of their kinds, since each of those rules matches only where the
identifier rule or the whole-number rule, tried before it, matches too. A number with a point
whose runs have at most `digitLimit` digits is scanned as two whole numbers around a stray point,
a run of more digits stops the scan on its length, and `y`, `o` and `no` are identifiers. -/
theorem script_never_makes_shadowed_kinds :
    (∀ source, ∀ t ∈ (scan source).tokens, t.kind ∉ shadowedKinds) ∧
      (∀ r ∈ lexer.rules, ∀ make, r.action = .token make →
        ∀ cs kind value, make cs = .ok (kind, value) → kind ∈ shadowedKinds →
        ∀ input (k : Cut input), r.pattern input = some k →
          (identifierRule.pattern input).isSome ∨ (wholeRule.pattern input).isSome) ∧
      (∀ a b rest, a ≠ [] → b ≠ [] → a.all isDigit = true → b.all isDigit = true →
        (∀ e ∈ rest.head?, isDigit e = false) → a.length ≤ Decimal.digitLimit →
        b.length ≤ Decimal.digitLimit → ∀ (place : Place) (found : Found Kind),
        ∃ n m, Decimal.readWhole a = .ok n ∧ Decimal.readWhole b = .ok m ∧
          lexer.scan (a ++ '.' :: (b ++ rest)) place found =
            lexer.scan rest (place.past (a ++ '.' :: b))
              ⟨(found.tokens.push ⟨.whole, .int n, found.line, place.column⟩).push
                  ⟨.whole, .int m, found.line, (place.past (a ++ ['.'])).column⟩,
                found.strays.push ⟨'.', found.line, (place.past a).column⟩, found.line⟩) ∧
      (∀ a t, a.all isDigit = true → Decimal.digitLimit < a.length →
        (∀ e ∈ t.head?, isDigit e = false) → ∀ (place : Place) (found : Found Kind),
        lexer.scan (a ++ t) place found = (found, some (.tooLong a.length))) ∧
      (∀ w ∈ ["y", "o", "no"], ∀ rest, (∀ e ∈ rest.head?, (e.isAlphanum || e == '_') = false) →
        ∀ (place : Place) (found : Found Kind),
        lexer.scan (w.toList ++ rest) place found =
          lexer.scan rest (place.past w.toList)
            { found with
              tokens := found.tokens.push ⟨.identifier, .text w, found.line, place.column⟩ }) := by
  refine ⟨scan_tokens_not_shadowed, ?_, ?_, ?_, ?_⟩
  · intro r hr make hact cs kind value hmake hkind input k hmatch
    exact shadowed_rules_match_late hr hact hmake hkind hmatch
  · intro a b rest ha hb hda hdb hrest hla hlb place found
    exact scan_numeral ha hb hda hdb hrest hla hlb place found
  · intro a t hda hlong ht place found
    exact scan_whole_long hda hlong ht place found
  · intro w hw rest hrest place found
    exact scan_word hw hrest place found

/-- `3.5` at the start of a script is two whole numbers around a stray point. -/
theorem script_never_makes_shadowed_kinds_numeral :
    ∃ n m, Decimal.readWhole ['3'] = .ok n ∧ Decimal.readWhole ['5'] = .ok m ∧
      lexer.scan (['3'] ++ '.' :: (['5'] ++ [])) ⟨0, 0⟩ ⟨#[], #[], 1⟩ =
        lexer.scan [] (Place.past ⟨0, 0⟩ (['3'] ++ '.' :: ['5']))
          ⟨(#[].push ⟨.whole, .int n, 1, Place.column ⟨0, 0⟩⟩).push
              ⟨.whole, .int m, 1, (Place.past ⟨0, 0⟩ (['3'] ++ ['.'])).column⟩,
            #[].push ⟨'.', 1, (Place.past ⟨0, 0⟩ ['3']).column⟩, 1⟩ :=
  script_never_makes_shadowed_kinds.2.2.1 ['3'] ['5'] [] (by decide) (by decide) (by decide)
    (by decide) (by simp) (by decide) (by decide) ⟨0, 0⟩ ⟨#[], #[], 1⟩

/-- A script that starts with a run of more than `digitLimit` digits and a point stops on that
run: it makes no token, and its failure is the run's length. -/
theorem scan_long_numeral {n : Nat} (hn : Decimal.digitLimit < n) :
    (scan (String.ofList (List.replicate n '1' ++ ['.', '5']))).failure = some (.tooLong n) ∧
      (scan (String.ofList (List.replicate n '1' ++ ['.', '5']))).tokens = #[] := by
  have hcr : '\r' ∉ (String.ofList (List.replicate n '1' ++ ['.', '5'])).toList := by
    simp [List.mem_replicate]
  have hdigits : (List.replicate n '1').all isDigit = true := by
    have hone : isDigit '1' = true := by decide
    simp [List.all_replicate, hone]
  have hscan : lexer.scan (List.replicate n '1' ++ ['.', '5']) ⟨0, 0⟩ ⟨#[], #[], 1⟩ =
      (⟨#[], #[], 1⟩, some (.tooLong n)) := by
    rw [scan_whole_long hdigits (by rwa [List.length_replicate])
      (fun e he => by cases he; decide), List.length_replicate]
  rw [scan_failure, scan_tokens, run_withUniversalBreaks hcr, String.toList_ofList, hscan]
  exact ⟨rfl, rfl⟩

/-- A script that starts with a run of 4301 digits and a point makes no token: the scan stops on
the run. -/
theorem script_stops_on_long_numeral :
    (scan (String.ofList (List.replicate 4301 '1' ++ ['.', '5']))).failure =
        some (.tooLong 4301) ∧
      (scan (String.ofList (List.replicate 4301 '1' ++ ['.', '5']))).tokens = #[] :=
  scan_long_numeral (by decide)

end Frontend.Script
