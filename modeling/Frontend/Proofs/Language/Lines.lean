import Frontend.Proofs.Scanner.Positions
import Frontend.Proofs.Language.LongestMatch
import Frontend.Script.Lexer

/-! Lines and columns of the tokens of the language and of the script dialect.

Both scanners count lines with their rule for runs of line breaks alone, and take columns from
the text: from the pieces before a token, its column is the physical one, and its line is the
line the scan started on moved by the runs of line breaks among those pieces. The other line
breaks of a source stand in quoted texts and block comments, which the line count does not see
(`lexer_countsRuns`, `Script.lexer_countsRuns`). A session starts each source on the line where
the last one ended; the script starts its text, read with universal line breaks, on line 1
(`lines_count_break_runs`). So a token's line is its physical line exactly when the scan starts
on line 1 and no quoted text or block comment before it spans lines. -/
namespace Frontend

open Scanner

namespace Language

/-- In the language's scanner, only runs of line breaks hold line breaks, besides quoted texts
and block comments. -/
theorem lexer_countsRuns : lexer.CountsRuns := by
  refine .of_rules (by decide) ⟨TokenClass.lineBreaks.rule, ?_, fun rest => ?_⟩ ?_
  · rw [TokenClass.lexer_rules]
    exact List.mem_map_of_mem (by simp [classes])
  · simp [TokenClass.rule, TokenClass.pattern, Pattern.span]
  · rw [TokenClass.lexer_rules]
    intro r hr
    obtain ⟨k, hk, rfl⟩ := List.mem_map.mp hr
    simp only [classes, List.mem_append, List.mem_cons, List.mem_map, List.not_mem_nil,
      or_false] at hk
    rcases hk with (rfl | rfl | rfl | rfl | rfl | rfl) | ⟨⟨w, kind⟩, hw, rfl⟩
    · exact Rule.placesBreaks_of_avoids (Action.token_ne_lineBreaks _)
        (Pattern.avoids_span (by decide) (by decide))
    · exact Rule.placesBreaks_of_avoids (Action.token_ne_lineBreaks _)
        (Pattern.Avoids.thenMaybe (Pattern.avoids_span (by decide) (by decide))
          (Pattern.Avoids.andThen (Pattern.avoids_word (by decide))
            (Pattern.avoids_span (by decide) (by decide))))
    · exact Rule.placesBreaks_of_opens (Action.token_ne_lineBreaks _) Pattern.quoted_opens
    · exact Rule.placesBreaks_of_avoids Action.skip_ne_lineBreaks
        (Pattern.Avoids.thenWhile (Pattern.avoids_word (by decide)) (by decide))
    · exact Rule.placesBreaks_of_opens Action.skip_ne_lineBreaks Pattern.blockComment_opens
    · exact Rule.placesBreaks_of_run rfl rfl
    · have hops : ∀ op ∈ operators, '\n' ∉ op.1.toList := by decide
      exact Rule.placesBreaks_of_avoids (Action.token_ne_lineBreaks _)
        (Pattern.avoids_word (hops _ hw))

namespace Session

theorem scan_eq (s : Session) (source : String) :
    s.scan source = ⟨(lexer.run source s.line s.strays).1.tokens.map toToken,
      (lexer.run source s.line s.strays).2,
      ⟨(lexer.run source s.line s.strays).1.line, (lexer.run source s.line s.strays).1.strays⟩⟩ :=
  rfl

/-- The `i`-th token of a source scanned in a session stands at the `i`-th token piece of the
source: on the session's line moved by the runs of line breaks before it, at its physical
column. -/
theorem token_placed (s : Session) (source : String) (i : Nat)
    (hi : i < (s.scan source).tokens.size) :
    ∃ pre piece post rest, lexer.Reads source.toList (pre ++ .token piece :: post) rest ∧
      pre.countP Piece.isToken = i ∧
      (s.scan source).tokens[i].line = ↑(s.line + breaks pre) ∧
      (s.scan source).tokens[i].column = ↑(columnAfter (texts pre)) := by
  have hi' : i < (lexer.run source s.line s.strays).1.tokens.size := by simpa [scan_eq] using hi
  obtain ⟨pre, piece, post, rest, hreads, hcount, hline, hcolumn⟩ :=
    Lexer.run_token source s.line s.strays i hi'
  refine ⟨pre, piece, post, rest, hreads, hcount, ?_, ?_⟩
  · simp [scan_eq, toToken, hline]
  · simp [scan_eq, toToken, hcolumn]

/-- The strays a source adds to a session stand at its stray pieces, on the session's line moved
by the runs of line breaks before them, at their physical columns. -/
theorem stray_placed (s : Session) (source : String) (i : Nat)
    (hi : i < (s.scan source).session.strays.size) (hold : s.strays.size ≤ i) :
    ∃ pre c post rest, lexer.Reads source.toList (pre ++ .stray c :: post) rest ∧
      s.strays.size + pre.countP Piece.isStray = i ∧
      (s.scan source).session.strays[i] = ⟨c, s.line + breaks pre, columnAfter (texts pre)⟩ :=
  Lexer.run_stray source s.line s.strays i hi hold

/-- A source scanned to its end leaves the session on its line moved by all the runs of line
breaks of the source. -/
theorem line_after (s : Session) (source : String) (hdone : (s.scan source).failure = none) :
    ∃ ps, lexer.Reads source.toList ps [] ∧ (s.scan source).session.line = s.line + breaks ps := by
  rw [scan_eq] at hdone ⊢
  exact Lexer.run_line source s.line s.strays hdone

end Session

end Language

namespace Script

/-- In the script dialect's scanner too, only runs of line breaks hold line breaks, besides quoted
texts and block comments. -/
theorem lexer_countsRuns : lexer.CountsRuns := by
  refine .of_rules (by decide) ⟨⟨Pattern.span (· == '\n') (· == '\n'), .lineBreaks⟩, ?_,
    fun rest => ?_⟩ ?_
  · simp [lexer]
  · simp [Pattern.span]
  · intro r hr
    simp only [lexer, List.mem_append, List.mem_cons, List.mem_map, List.not_mem_nil,
      or_false] at hr
    rcases hr with (rfl | rfl | rfl | rfl | rfl | rfl | rfl) | ⟨⟨w, kind⟩, hw, rfl⟩
    · exact Rule.placesBreaks_of_avoids (Action.token_ne_lineBreaks _)
        (Pattern.avoids_span (by decide) (by decide))
    · exact Rule.placesBreaks_of_avoids (Action.token_ne_lineBreaks _)
        (Pattern.avoids_span (by decide) (by decide))
    · exact Rule.placesBreaks_of_avoids (Action.token_ne_lineBreaks _)
        (Pattern.Avoids.andThen (Pattern.avoids_span (by decide) (by decide))
          (Pattern.Avoids.andThen (Pattern.avoids_word (by decide))
            (Pattern.avoids_span (by decide) (by decide))))
    · exact Rule.placesBreaks_of_opens (Action.token_ne_lineBreaks _) Pattern.quoted_opens
    · exact Rule.placesBreaks_of_avoids Action.skip_ne_lineBreaks
        (Pattern.Avoids.thenWhile (Pattern.avoids_word (by decide)) (by decide))
    · exact Rule.placesBreaks_of_opens Action.skip_ne_lineBreaks Pattern.blockComment_opens
    · exact Rule.placesBreaks_of_run rfl rfl
    · have hops : ∀ op ∈ operators, '\n' ∉ op.1.toList := by decide
      exact Rule.placesBreaks_of_avoids (Action.token_ne_lineBreaks _)
        (Pattern.avoids_word (hops _ hw))

theorem scan_tokens (source : String) :
    (scan source).tokens = (lexer.run (Text.withUniversalBreaks source) 1 #[]).1.tokens := by
  rcases h : lexer.run (Text.withUniversalBreaks source) 1 #[] with ⟨found, _ | e⟩ <;>
    simp [scan, h]

/-- The `i`-th token of a script stands at the `i`-th token piece of its text, read with
universal line breaks: on line 1 moved by the runs of line breaks before it, at its physical
column. -/
theorem token_placed (source : String) (i : Nat) (hi : i < (scan source).tokens.size) :
    ∃ pre piece post rest,
      lexer.Reads (Text.withUniversalBreaks source).toList (pre ++ .token piece :: post) rest ∧
      pre.countP Piece.isToken = i ∧
      (scan source).tokens[i].line = 1 + breaks pre ∧
      (scan source).tokens[i].column = columnAfter (texts pre) := by
  simp only [scan_tokens] at hi ⊢
  exact Lexer.run_token (Text.withUniversalBreaks source) 1 #[] i hi

/-- The strays of a script stand at the stray pieces of its text: on line 1 moved by the runs of
line breaks before them, at their physical columns. -/
theorem stray_placed (source : String) (i : Nat)
    (hi : i < (lexer.run (Text.withUniversalBreaks source) 1 #[]).1.strays.size) :
    ∃ pre c post rest,
      lexer.Reads (Text.withUniversalBreaks source).toList (pre ++ .stray c :: post) rest ∧
      pre.countP Piece.isStray = i ∧
      (lexer.run (Text.withUniversalBreaks source) 1 #[]).1.strays[i] =
        ⟨c, 1 + breaks pre, columnAfter (texts pre)⟩ := by
  obtain ⟨pre, c, post, rest, hreads, hcount, hstray⟩ :=
    Lexer.run_stray (Text.withUniversalBreaks source) 1 #[] i hi (Nat.zero_le i)
  exact ⟨pre, c, post, rest, hreads, by simpa using hcount, hstray⟩

end Script

/-- **Lines count the runs of line breaks only.** Scanning a source in a session, the `i`-th
token stands at the `i`-th token piece the scanner reads: its column is its physical column, and
its line is the session's line moved by the runs of line breaks before it. So are the strays the
source adds, and a source scanned to its end leaves the session on its line moved by all the runs
of the source: the next source goes on from there. Every line break of a source that no run
counts stands in a quoted text or a block comment. The script dialect places its tokens and
strays the same way in its text read with universal line breaks, from line 1. -/
theorem lines_count_break_runs (s : Language.Session) (source : String) :
    (∀ i (hi : i < (s.scan source).tokens.size), ∃ pre piece post rest,
      Language.lexer.Reads source.toList (pre ++ .token piece :: post) rest ∧
        pre.countP Piece.isToken = i ∧
        (s.scan source).tokens[i].line = ↑(s.line + breaks pre) ∧
        (s.scan source).tokens[i].column = ↑(columnAfter (texts pre))) ∧
    (∀ i (hi : i < (s.scan source).session.strays.size), s.strays.size ≤ i →
      ∃ pre c post rest, Language.lexer.Reads source.toList (pre ++ .stray c :: post) rest ∧
        s.strays.size + pre.countP Piece.isStray = i ∧
        (s.scan source).session.strays[i] = ⟨c, s.line + breaks pre, columnAfter (texts pre)⟩) ∧
    ((s.scan source).failure = none → ∃ ps, Language.lexer.Reads source.toList ps [] ∧
      (s.scan source).session.line = s.line + breaks ps) ∧
    (∀ ps rest, Language.lexer.Reads source.toList ps rest →
      breaks ps + hiddenBreaks ps = (texts ps).count '\n' ∧
        ∀ p ∈ ps, 0 < p.hidden → OpensQuoteOrComment p.text) ∧
    (∀ i (hi : i < (Script.scan source).tokens.size), ∃ pre piece post rest,
      Script.lexer.Reads (Text.withUniversalBreaks source).toList (pre ++ .token piece :: post)
        rest ∧
        pre.countP Piece.isToken = i ∧
        (Script.scan source).tokens[i].line = 1 + breaks pre ∧
        (Script.scan source).tokens[i].column = columnAfter (texts pre)) ∧
    (∀ i (hi : i < (Script.lexer.run (Text.withUniversalBreaks source) 1 #[]).1.strays.size),
      ∃ pre c post rest,
        Script.lexer.Reads (Text.withUniversalBreaks source).toList (pre ++ .stray c :: post)
          rest ∧
        pre.countP Piece.isStray = i ∧
        (Script.lexer.run (Text.withUniversalBreaks source) 1 #[]).1.strays[i] =
          ⟨c, 1 + breaks pre, columnAfter (texts pre)⟩) ∧
    (∀ ps rest, Script.lexer.Reads (Text.withUniversalBreaks source).toList ps rest →
      breaks ps + hiddenBreaks ps = (texts ps).count '\n' ∧
        ∀ p ∈ ps, 0 < p.hidden → OpensQuoteOrComment p.text) :=
  ⟨s.token_placed source, s.stray_placed source, s.line_after source,
    fun _ _ h => h.breaks_add_hidden Language.lexer_countsRuns,
    Script.token_placed source, Script.stray_placed source,
    fun _ _ h => h.breaks_add_hidden Script.lexer_countsRuns⟩

end Frontend
