import Frontend.Proofs.Language.Classes

/-! The language's scanner takes the longest match.

The scanner tries its rules in order and takes the first that matches. Two facts make that the
longest match. Each rule's pattern recognizes its class (`TokenClass.recognizes`), and each class
outranks the classes after it (`classes_outrank`). The second holds because two classes that can
start at the same place are ordered longer first: `//` and `/*` before `/`, and `!=`, `==`, `>=`,
`<=` before `!`, `=`, `>`, `<`. Every other pair is told apart by its first characters
(`Start.apart`). For the identifier and number pair this takes the fact that no ASCII letter is a
digit of any script.

**`Session.scan_eq_scanLongest`**: in every session, scanning a source gives exactly what the
longest-match scanner of `Language.Classes` gives: the same tokens, strays, line count and
failure. -/
namespace Frontend.Language

open Scanner

/-! ### No letter is a digit -/

theorem wordStart_toNat {c : Char} (h : isWordStart c = true) : 65 ≤ c.toNat ∧ c.toNat ≤ 122 := by
  -- the ASCII ranges that `Char.isAlpha` tests, written out
  change ((decide (c.val ≥ 'A'.val ∧ c.val ≤ 'Z'.val) ||
      (decide (c.val ≥ 'a'.val) && decide (c.val ≤ 'z'.val))) || c == '_') = true at h
  simp only [Bool.or_eq_true, Bool.and_eq_true, decide_eq_true_eq, beq_iff_eq] at h
  rcases h with (⟨h1, h2⟩ | ⟨h1, h2⟩) | rfl
  case inr => decide
  all_goals
    simp only [ge_iff_le, UInt32.le_iff_toNat_le] at h1 h2
    simp at h1 h2
    omega

/-- Below the first digit run past ASCII, the ASCII digits are the only decimal digits. -/
theorem runOf_decimalRuns_eq_none {n : Nat} (h : n < 0x660) (h' : 57 < n) :
    Text.runOf? Text.decimalRuns n = none := by
  simp only [Text.runOf?, Text.decimalRuns]
  simp
  omega

theorem isDigit_of_isWordStart {c : Char} (h : isWordStart c = true) : isDigit c = false := by
  have := wordStart_toNat h
  simp [isDigit, Text.isDecimalDigit, Text.digitValue?,
    runOf_decimalRuns_eq_none (n := c.toNat) (by omega) (by omega)]
  omega

/-! ### How the texts of a class start -/

/-- What every text of a class starts with: a letter, a digit, or a fixed word. -/
inductive Start where
  | letter
  | digit
  | text (w : List Char)

namespace Start

/-- Whether a text has a start. -/
def begins : Start → List Char → Bool
  | letter, c :: _ => isWordStart c
  | digit, c :: _ => isDigit c
  | text w, s => w.isPrefixOf s
  | _, [] => false

/-- The least length of a text with a start. -/
def length : Start → Nat
  | text w => w.length
  | _ => 1

/-- Two starts that no two texts at the front of one input can have. -/
def apart : Start → Start → Bool
  | text w, text w' => !w.isPrefixOf w' && !w'.isPrefixOf w
  | text (c :: _), s => !s.begins [c]
  | s, text (c :: _) => !s.begins [c]
  | letter, digit => true
  | digit, letter => true
  | _, _ => false

theorem length_le {s : Start} {q : List Char} (h : s.begins q = true) : s.length ≤ q.length := by
  cases s with
  | text w => exact (List.isPrefixOf_iff_prefix.mp h).length_le
  | letter => cases q <;> simp_all [begins, length]
  | digit => cases q <;> simp_all [begins, length]

/-- A text that starts a longer one gives it its start. -/
theorem begins_of_prefix {s : Start} {q input : List Char} (h : s.begins q = true)
    (hq : q <+: input) : s.begins input = true := by
  cases s with
  | text w =>
    exact List.isPrefixOf_iff_prefix.mpr ((List.isPrefixOf_iff_prefix.mp h).trans hq)
  | letter | digit =>
    match q, input, hq with
    | [], _, _ => simp [begins] at h
    | c :: _, d :: _, hq =>
      obtain ⟨rfl, -⟩ := List.cons_prefix_cons.mp hq
      simpa [begins] using h

/-- A letter or a digit start depends on the first character only. -/
theorem begins_cons {s : Start} (hs : ∀ w, s ≠ text w) (c : Char) (r : List Char) :
    s.begins (c :: r) = s.begins [c] := by
  cases s with
  | text w => exact absurd rfl (hs w)
  | letter | digit => rfl

theorem apart_text {w : List Char} {s : Start} {input : List Char} (hw : w <+: input)
    (ha : (text w).apart s = true ∨ s.apart (text w) = true) (hs : s.begins input = true) :
    False := by
  cases s with
  | text w' =>
    have hpre := List.prefix_or_prefix_of_prefix hw (List.isPrefixOf_iff_prefix.mp hs)
    rcases hpre with h | h <;>
      simp [apart, List.isPrefixOf_iff_prefix.mpr h] at ha
  | letter | digit =>
    match w, input, hw with
    | [], _, _ => simp [apart] at ha
    | c :: _, d :: _, hw =>
      obtain ⟨rfl, -⟩ := List.cons_prefix_cons.mp hw
      rw [begins_cons (by simp) c] at hs
      simp [apart, hs] at ha

/-- Apart starts are never both at the front of one input. -/
theorem apart_sound {a b : Start} (hab : a.apart b = true) {input : List Char}
    (ha : a.begins input = true) (hb : b.begins input = true) : False := by
  cases a with
  | text w => exact apart_text (List.isPrefixOf_iff_prefix.mp ha) (.inl hab) hb
  | letter | digit =>
    cases b with
    | text w' => exact apart_text (List.isPrefixOf_iff_prefix.mp hb) (.inr hab) ha
    | letter | digit =>
      match input with
      | [] => simp [begins] at ha
      | c :: _ =>
        simp only [begins] at ha hb
        simp_all [apart, isDigit_of_isWordStart]

end Start

namespace TokenClass

/-! ### Patterns recognize their classes -/

/-- The pattern of the scanner's rule for a class. -/
def pattern : TokenClass → Pattern
  | word => Pattern.span isWordStart isWordPart
  | number => numberPattern
  | quoted => Pattern.quoted
  | lineComment => (Pattern.word ['/', '/']).thenWhile (· != '\n')
  | blockComment => Pattern.between ['/', '*'] ['*', '/']
  | lineBreaks => Pattern.span (· == '\n') (· == '\n')
  | operator w _ => Pattern.word w.toList

/-- The scanner's rule for a class. -/
def rule (k : TokenClass) : Rule Decimal.WholeError Kind := ⟨k.pattern, k.action⟩

theorem lexer_rules : lexer.rules = classes.map rule := rfl

/-- A fraction starts with its point, which is no digit. -/
theorem fraction_start (s : List Char) (h : fraction s = true) :
    ∃ d t, s = d :: t ∧ isDigit d = false := by
  obtain ⟨t, rfl, -⟩ := startsWith_iff.mp h
  exact ⟨'.', t, rfl, by decide⟩

theorem recognizes : ∀ k : TokenClass, Recognizes k.pattern k.accepts
  | word => Recognizes.span _ _
  | number =>
    Recognizes.spanThenMaybe (Recognizes.wordThen (by decide) (Recognizes.span _ _) rfl)
      fraction_start
  | quoted => by
    rw [pattern, Pattern.quoted_eq_andThen]
    exact Recognizes.wordThen (by decide) Recognizes.quotedBody rfl
  | lineComment => Recognizes.wordWhile _ (by decide)
  | blockComment => by
    rw [pattern, Pattern.between_eq_andThen]
    exact Recognizes.wordThen (by decide) (Recognizes.upTo (by decide)) rfl
  | lineBreaks => Recognizes.span _ _
  | operator _ _ => Recognizes.word _

/-! ### Earlier classes outrank later ones -/

/-- How the texts of a class start. -/
def start : TokenClass → Start
  | word => .letter
  | number => .digit
  | quoted => .text ['"']
  | lineComment => .text ['/', '/']
  | blockComment => .text ['/', '*']
  | lineBreaks => .text ['\n']
  | operator w _ => .text w.toList

/-- The length of the longest text of a class, where there is a bound. -/
def maxLength? : TokenClass → Option Nat
  | operator w _ => some w.toList.length
  | _ => none

theorem begins_start : ∀ (k : TokenClass) (q : List Char), k.accepts q = true →
    k.start.begins q = true
  | word, c :: _, h => by
    simp only [accepts, spanText, Bool.and_eq_true] at h
    simp [start, Start.begins, h.1]
  | lineBreaks, c :: _, h => by
    simp only [accepts, spanText, Bool.and_eq_true, beq_iff_eq] at h
    simp [start, Start.begins, h.1]
  | number, c :: _, h => by
    simp only [accepts, runThenMaybe, Bool.and_eq_true] at h
    simp [start, Start.begins, h.1]
  | quoted, _, h | lineComment, _, h | blockComment, _, h => by
    simp only [accepts, startsWith, Bool.and_eq_true] at h
    exact h.1
  | operator w _, q, h => by
    simp only [accepts, beq_iff_eq] at h
    simp [start, Start.begins, h]
  | word, [], h | number, [], h | lineBreaks, [], h => by simp [accepts, spanText, runThenMaybe] at h

theorem length_le_maxLength {k : TokenClass} {q : List Char} {m : Nat} (h : k.accepts q = true)
    (hm : k.maxLength? = some m) : q.length ≤ m := by
  cases k with
  | operator w _ =>
    simp only [accepts, beq_iff_eq] at h
    simp only [maxLength?, Option.some.injEq] at hm
    rw [h]
    exact Nat.le_of_eq hm
  | _ => cases hm

/-- A check that one class outranks another: their texts start apart, or the later class's texts
are never longer than the shortest text of the earlier one. -/
def separated (a b : TokenClass) : Bool :=
  a.start.apart b.start || b.maxLength?.any (· ≤ a.start.length)

theorem outranks_of_separated {a b : TokenClass} (h : separated a b = true) :
    Outranks accepts a b := by
  intro q t ha hb
  simp only [separated, Bool.or_eq_true, Option.any_eq_true] at h
  rcases h with hab | ⟨m, hm, hle⟩
  · exact (Start.apart_sound hab (Start.begins_of_prefix (begins_start a q ha)
      (List.prefix_append q t)) (begins_start b _ hb)).elim
  · have h₁ := length_le_maxLength hb hm
    have h₂ := Start.length_le (begins_start a q ha)
    rw [List.length_append] at h₁
    exact List.eq_nil_of_length_eq_zero (by simp at hle; omega)

end TokenClass

theorem classes_separated : classes.Pairwise fun a b => TokenClass.separated a b = true := by
  decide

theorem classes_outrank : classes.Pairwise (Outranks TokenClass.accepts) :=
  classes_separated.imp TokenClass.outranks_of_separated

/-! ### The scan -/

theorem firstMatch?_lexer (input : List Char) :
    lexer.firstMatch? input =
      (classes.findSome? fun k => (k.pattern input).map fun cut => (k, cut)).map
        fun r => (r.1.rule, r.2) := by
  rw [Lexer.firstMatch?, TokenClass.lexer_rules, List.findSome?_map, List.map_findSome?]
  simp only [Function.comp_def, Option.map_map]
  rfl

/-- At every position the scanner's first match is the longest match, with its class. -/
theorem longestMatch_eq_firstMatch (input : List Char) :
    longestMatch TokenClass.accepts classes input =
      (classes.findSome? fun k => (k.pattern input).map fun cut => (k, cut)).map
        fun r => (r.1, r.2.piece.length) :=
  (findSome_eq_longestMatch TokenClass.pattern (fun k _ => TokenClass.recognizes k)
    classes_outrank input).symm

theorem firstMatch?_eq_none {input : List Char}
    (h : longestMatch TokenClass.accepts classes input = none) : lexer.firstMatch? input = none := by
  rw [longestMatch_eq_firstMatch, Option.map_eq_none_iff] at h
  rw [firstMatch?_lexer, h, Option.map_none]

theorem firstMatch?_eq_some {input : List Char} {k : TokenClass} {n : Nat}
    (h : longestMatch TokenClass.accepts classes input = some (k, n)) :
    ∃ cut : Cut input, lexer.firstMatch? input = some (k.rule, cut) ∧
      cut.piece = input.take n ∧ cut.rest = input.drop n := by
  rw [longestMatch_eq_firstMatch, Option.map_eq_some_iff] at h
  obtain ⟨⟨k', cut⟩, hfirst, hkn⟩ := h
  obtain ⟨rfl, rfl⟩ := Prod.mk.inj hkn
  refine ⟨cut, by rw [firstMatch?_lexer, hfirst]; rfl, ?_, cut.rest_eq_drop⟩
  exact List.prefix_iff_eq_take.mp cut.piece_isPrefix

theorem lexer_scan_eq_scanLongest (input : List Char) (place : Place) (found : Found Kind) :
    lexer.scan input place found = scanLongest input place found := by
  fun_induction scanLongest input place found with
  | case1 place found => simp [Lexer.scan]
  | case2 c rest place found hblank ih =>
    rw [Lexer.scan, if_pos (show lexer.blank c = true from hblank), ih]
  | case3 c rest place found hblank hnone ih =>
    rw [Lexer.scan, if_neg (show ¬ lexer.blank c = true from hblank), firstMatch?_eq_none hnone]
    exact ih
  | case4 c rest place found hblank k n h _ piece make hact kind value hmake ih =>
    obtain ⟨cut, hfm, hpiece, hrest⟩ := firstMatch?_eq_some h
    rw [Lexer.scan, if_neg (show ¬ lexer.blank c = true from hblank), hfm]
    simp only [TokenClass.rule, hact, hpiece, hrest]
    rw [show make ((c :: rest).take n) = .ok (kind, value) from hmake]
    exact ih
  | case5 c rest place found hblank k n h _ piece make hact e hmake =>
    obtain ⟨cut, hfm, hpiece, hrest⟩ := firstMatch?_eq_some h
    rw [Lexer.scan, if_neg (show ¬ lexer.blank c = true from hblank), hfm]
    simp only [TokenClass.rule, hact, hpiece, hrest]
    rw [show make ((c :: rest).take n) = .error e from hmake]
  | case6 c rest place found hblank k n h _ piece hact ih =>
    obtain ⟨cut, hfm, hpiece, hrest⟩ := firstMatch?_eq_some h
    rw [Lexer.scan, if_neg (show ¬ lexer.blank c = true from hblank), hfm]
    simp only [TokenClass.rule, hact, hpiece, hrest]
    exact ih
  | case7 c rest place found hblank k n h _ piece hact ih =>
    obtain ⟨cut, hfm, hpiece, hrest⟩ := firstMatch?_eq_some h
    rw [Lexer.scan, if_neg (show ¬ lexer.blank c = true from hblank), hfm]
    simp only [TokenClass.rule, hact, hpiece, hrest]
    exact ih

/-- **The scanner takes the longest match.** In every session, scanning a source gives what the
longest-match scanner gives: the same tokens in the same order, the same stray characters, the
same line count and the same failure. -/
theorem Session.scan_eq_scanLongest (s : Session) (source : String) :
    s.scan source = s.scanLongest source := by
  simp only [Session.scan, Session.scanLongest, Lexer.run, lexer_scan_eq_scanLongest]

end Frontend.Language
