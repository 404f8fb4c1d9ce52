import Frontend.Proofs.Scanner.Positions

/-! What a scan makes, and where it stops.

A scan takes one step at the front of its input: it skips a blank, records a stray, makes a
token, drops a piece, or counts a run of line breaks, and goes on with what follows; or it stops,
when the first matching rule cannot make its token (`Lexer.scan_blank` to `Lexer.scan_fail`).
The scan therefore follows what its scanner reads: once the scanner has read some pieces at the
front of a text, the scan of the text goes on as a scan of what follows them
(`Lexer.scan_of_reads`).

So a scan stops on a failure exactly when the scanner reads up to a piece whose token the first
matching rule cannot make (`Lexer.scan_fails_iff`), and every token a scan adds was made, from the
piece it cut, by the rule that matched first at some text (`Lexer.mem_scan_tokens`). -/
namespace Frontend.Scanner.Lexer

variable {ε κ : Type} {lx : Lexer ε κ} {c : Char} {rest : List Char} {rule : Rule ε κ}
  {k : Cut (c :: rest)} {make : List Char → Except ε (κ × Value)}

/-! ### One step -/

theorem scan_blank (place : Place) (found : Found κ) (hb : lx.blank c = true) :
    lx.scan (c :: rest) place found = lx.scan rest (place.past [c]) found := by
  rw [scan, if_pos hb]

theorem scan_stray (place : Place) (found : Found κ) (hb : lx.blank c = false)
    (hnone : lx.firstMatch? (c :: rest) = none) :
    lx.scan (c :: rest) place found =
      lx.scan rest (place.past [c])
        { found with strays := found.strays.push ⟨c, found.line, place.column⟩ } := by
  rw [scan, if_neg (by simp [hb]), hnone]

theorem scan_token (place : Place) (found : Found κ) {kind : κ} {value : Value}
    (hb : lx.blank c = false) (hfirst : lx.firstMatch? (c :: rest) = some (rule, k))
    (hact : rule.action = .token make) (hmake : make k.piece = .ok (kind, value)) :
    lx.scan (c :: rest) place found =
      lx.scan k.rest (place.past k.piece)
        { found with tokens := found.tokens.push ⟨kind, value, found.line, place.column⟩ } := by
  rw [scan, if_neg (by simp [hb]), hfirst]
  simp only [hact, hmake]

theorem scan_fail (place : Place) (found : Found κ) {e : ε} (hb : lx.blank c = false)
    (hfirst : lx.firstMatch? (c :: rest) = some (rule, k)) (hact : rule.action = .token make)
    (hmake : make k.piece = .error e) :
    lx.scan (c :: rest) place found = (found, some e) := by
  rw [scan, if_neg (by simp [hb]), hfirst]
  simp only [hact, hmake]

theorem scan_skip (place : Place) (found : Found κ) (hb : lx.blank c = false)
    (hfirst : lx.firstMatch? (c :: rest) = some (rule, k)) (hact : rule.action = .skip) :
    lx.scan (c :: rest) place found = lx.scan k.rest (place.past k.piece) found := by
  rw [scan, if_neg (by simp [hb]), hfirst]
  simp only [hact]

theorem scan_lineBreaks (place : Place) (found : Found κ) (hb : lx.blank c = false)
    (hfirst : lx.firstMatch? (c :: rest) = some (rule, k)) (hact : rule.action = .lineBreaks) :
    lx.scan (c :: rest) place found =
      lx.scan k.rest (place.past k.piece) { found with line := found.line + k.piece.length } := by
  rw [scan, if_neg (by simp [hb]), hfirst]
  simp only [hact]

/-! ### The scan follows the reading -/

/-- After the pieces the scanner reads at the front of a text, the scan of the text goes on as a
scan of what follows them. -/
theorem scan_of_reads {text out : List Char} {ps : List Piece} (h : lx.Reads text ps out)
    (place : Place) (found : Found κ) :
    ∃ place' found', lx.scan text place found = lx.scan out place' found' := by
  induction h generalizing place found with
  | nil => exact ⟨place, found, rfl⟩
  | blank hb _ ih =>
    rw [scan_blank place found hb]
    exact ih _ _
  | stray hb hnone _ ih =>
    rw [scan_stray place found hb hnone]
    exact ih _ _
  | token hb hfirst hact hmake _ ih =>
    rw [scan_token place found hb hfirst hact hmake]
    exact ih _ _
  | skip hb hfirst hact _ ih =>
    rw [scan_skip place found hb hfirst hact]
    exact ih _ _
  | lineBreaks hb hfirst hact _ ih =>
    rw [scan_lineBreaks place found hb hfirst hact]
    exact ih _ _

/-- The scanner reads up to a text whose first matching rule cannot make its token. -/
def FailsAt (lx : Lexer ε κ) (input : List Char) (e : ε) : Prop :=
  ∃ ps c rest rule, ∃ k : Cut (c :: rest), ∃ make,
    lx.Reads input ps (c :: rest) ∧ lx.blank c = false ∧
      lx.firstMatch? (c :: rest) = some (rule, k) ∧ rule.action = .token make ∧
      make k.piece = .error e

/-- **Where a scan stops.** A scan stops on a failure exactly when the scanner reads up to a
text where the first matching rule cannot make its token, and the failure is that rule's. -/
theorem scan_fails_iff (input : List Char) (place : Place) (found : Found κ) (e : ε) :
    (lx.scan input place found).2 = some e ↔ lx.FailsAt input e := by
  constructor
  · intro h
    fun_induction Lexer.scan lx input place found with
    | case1 => cases h
    | case2 c rest place found hblank ih =>
      obtain ⟨ps, c', rest', rule, k, make, hreads, hfail⟩ := ih h
      exact ⟨.blank c :: ps, c', rest', rule, k, make, .blank hblank hreads, hfail⟩
    | case3 c rest place found hblank hnone ih =>
      obtain ⟨ps, c', rest', rule, k, make, hreads, hfail⟩ := ih h
      exact ⟨.stray c :: ps, c', rest', rule, k, make, .stray (by simpa using hblank) hnone hreads,
        hfail⟩
    | case4 c rest place found hblank rule k hfirst make hact kind value hmake ih =>
      obtain ⟨ps, c', rest', rule', k', make', hreads, hfail⟩ := ih h
      exact ⟨.token k.piece :: ps, c', rest', rule', k', make',
        .token (by simpa using hblank) hfirst hact hmake hreads, hfail⟩
    | case5 c rest place found hblank rule k hfirst make hact e' hmake =>
      cases h
      exact ⟨[], c, rest, rule, k, make, .nil _, by simpa using hblank, hfirst, hact, hmake⟩
    | case6 c rest place found hblank rule k hfirst hact ih =>
      obtain ⟨ps, c', rest', rule', k', make', hreads, hfail⟩ := ih h
      exact ⟨.skip k.piece :: ps, c', rest', rule', k', make',
        .skip (by simpa using hblank) hfirst hact hreads, hfail⟩
    | case7 c rest place found hblank rule k hfirst hact ih =>
      obtain ⟨ps, c', rest', rule', k', make', hreads, hfail⟩ := ih h
      exact ⟨.lineBreaks k.piece :: ps, c', rest', rule', k', make',
        .lineBreaks (by simpa using hblank) hfirst hact hreads, hfail⟩
  · rintro ⟨ps, c, rest, rule, k, make, hreads, hb, hfirst, hact, hmake⟩
    obtain ⟨place', found', heq⟩ := scan_of_reads hreads place found
    rw [heq, scan_fail place' found' hb hfirst hact hmake]

/-- **What a scan makes.** Every token a scan adds was made by the rule that matched first at
some text, from the piece that rule cut there. -/
theorem mem_scan_tokens {input : List Char} {place : Place} {found : Found κ} {t : Lexed κ}
    (ht : t ∈ (lx.scan input place found).1.tokens) :
    t ∈ found.tokens ∨ ∃ (text : List Char) (rule : Rule ε κ) (k : Cut text) (make : _),
      lx.firstMatch? text = some (rule, k) ∧ rule.action = .token make ∧
        make k.piece = .ok (t.kind, t.value) := by
  fun_induction Lexer.scan lx input place found with
  | case1 => exact .inl ht
  | case2 c rest place found hblank ih => exact ih ht
  | case3 c rest place found hblank hnone ih => exact ih ht
  | case4 c rest place found hblank rule k hfirst make hact kind value hmake ih =>
    rcases ih ht with hold | hmade
    · rcases Array.mem_push.mp hold with hold | rfl
      · exact .inl hold
      · exact .inr ⟨c :: rest, rule, k, make, hfirst, hact, hmake⟩
    · exact .inr hmade
  | case5 => exact .inl ht
  | case6 c rest place found hblank rule k hfirst hact ih => exact ih ht
  | case7 c rest place found hblank rule k hfirst hact ih => exact ih ht

end Frontend.Scanner.Lexer
