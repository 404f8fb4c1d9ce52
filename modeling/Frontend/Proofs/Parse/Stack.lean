import Frontend.Proofs.Parse.Calls

/-! What one step of the shift-reduce parser does to its stack.

A step reads the current token, the first of the parser's tokens or the end marker, and takes
the table's move for the value on top of the stack and the token's symbol (`Parser.move?`).
`StackStep` lists what can follow. Without a move, or for a number that is no rule, the step
fails and the stack stays. A shift pushes the token and a state marker and goes on. A reduction
by a rule of `k` body symbols first pops `2 * k` entries, all there are when the stack holds
fewer, and nothing puts them back: when the pops run out, when the children cannot be found, or
when no entry is left below, the step fails with the stack popped. A missing GOTO also leaves the
head's entry pushed. Only a reduction whose GOTO is found goes on, with the head and a marker
pushed. `analyze_stackStep` proves that every step is one of these, and
`step_changes_stack_by_moves` reads it off: a failed step leaves the stack as it was unless it
was a reduction, and a step goes on exactly when it is a shift or a completed reduction.

The same relation carries an invariant over every parser a program can reach (`Reachable`).
Markers carry the marker word as their value and the target state as their class, and no entry
pushed by a step is ever classed as the marker word. So the symbols a syntax error lists, which
are those of the top entry's value when its class is the marker word and those of the end
marker's row otherwise, are always the end marker's row, whatever state the step looked up
(`expected_is_end_row`). -/
namespace Frontend.Parse

namespace Parser

/-- The end marker a step reads after the tokens, at the last token's position. -/
def endToken (p : Parser) : Token :=
  ⟨.text endSymbol, endSymbol, (p.tokens.getLast?.map (·.line)).getD 0,
    (p.tokens.getLast?.map (·.column)).getD 0⟩

/-- The token a step reads: the first token, or the end marker when there is none. -/
def current (p : Parser) : Token := p.tokens.headD p.endToken

/-- The move a step takes: the table's move for the top entry's value and the current token's
symbol, when the stack has a top and the token's class is a symbol. -/
def move? (p : Parser) : Option Move := do
  let top ← p.stack.back?
  let symbol ← symbolOf? p.current.kind
  p.moveFor top.value symbol

end Parser

/-- The marker of a target state, at a token's position. -/
def markerEntry (target : Nat) (tok : Token) : Token :=
  ⟨.text markerWord, toString target, tok.line, tok.column⟩

/-- The entry of a reduced head, at a token's position. -/
def headEntry (prod : Production) (tok : Token) : Token :=
  ⟨.text prod.head, headClass, tok.line, tok.column⟩

/-- A stack less its top `2 * k` entries; nothing when it has fewer. -/
def popPairs (s : Array Token) (k : Nat) : Array Token := s.extract 0 (s.size - 2 * k)

/-- What a step that reads `tok` and takes the move `mv` can do to the stack `s`, with the
message it gives. -/
inductive StackStep (s : Array Token) (tok : Token) : Option Move → String → Array Token → Prop
  /-- Without a move the step fails and the stack stays. -/
  | noMove {m : String} : m ≠ Parser.outOfSteps → StackStep s tok none m s
  /-- A shift pushes the token and the marker of its target, and goes on. -/
  | shift (target : Nat) :
      StackStep s tok (some (.shift target)) Parser.outOfSteps
        ((s.push tok).push (markerEntry target tok))
  /-- A reduction by a number that is no rule fails and the stack stays. -/
  | noRule {n : Nat} {m : String} : rule? n = none → m ≠ Parser.outOfSteps →
      StackStep s tok (some (.reduce n)) m s
  /-- A reduction that fails after its pops leaves them done. -/
  | popped {n : Nat} {prod : Production} {m : String} : rule? n = some prod →
      m ≠ Parser.outOfSteps → StackStep s tok (some (.reduce n)) m (popPairs s prod.body.length)
  /-- A reduction whose GOTO is missing leaves its pops done and the head's entry pushed. -/
  | noGoto {n : Nat} {prod : Production} : rule? n = some prod →
      StackStep s tok (some (.reduce n)) ("Error: No se encontró GOTO para " ++ prod.head)
        ((popPairs s prod.body.length).push (headEntry prod tok))
  /-- A reduction whose GOTO is found pushes the head's entry and the marker of the GOTO's
  target, and goes on. -/
  | reduce {n : Nat} {prod : Production} (target : Nat) : rule? n = some prod →
      StackStep s tok (some (.reduce n)) Parser.outOfSteps
        (((popPairs s prod.body.length).push (headEntry prod tok)).push (markerEntry target tok))

namespace Parser

theorem ne_outOfSteps_of_start {m : String} (a : String) (ha : a.toList <+: m.toList)
    (hna : ¬ a.toList <+: outOfSteps.toList) : m ≠ outOfSteps := by
  rintro rfl
  exact hna ha

/-! ### One step -/

theorem reduce_stackStep (p : Parser) (n : Nat) (tok : Token) (log : List String) :
    StackStep p.stack tok (some (.reduce n)) (p.reduce n tok log).1.message
      (p.reduce n tok log).2.stack := by
  unfold reduce
  split
  · exact .noRule ‹_› (ne_outOfSteps_of_start "Error: R"
      (prefix_toList_append _ (prefix_toList_append _ (by decide))) (by decide))
  · rename_i prod hprod
    dsimp only
    split
    · -- a stack too short for the pops is left empty, which is what the pops leave of it
      have hempty : popPairs p.stack prod.body.length = #[] := by
        simp only [popPairs, Array.extract_eq_empty_iff]
        omega
      rw [← hempty]
      exact .popped hprod (by dsimp only; decide)
    · split
      · exact .popped hprod (ne_outOfSteps_of_start "Error du"
          (prefix_toList_append _ (by decide)) (by decide))
      · split
        · exact .popped hprod (by dsimp only; decide)
        · split
          · split
            · -- success needs the start rule, whose child was just found missing
              rename_i hattach _ _ _ _ _ _ hn
              have hn0 : n = 0 := by simpa using (Bool.and_eq_true _ _).mp hn |>.1
              simp [hn0, attachChildren_start] at hattach
            · exact .reduce _ hprod
          · exact .noGoto hprod

theorem current_eq_of_input {p : Parser} {tok : Token} {rest : List Token}
    (h : p.tokens ++ [p.endToken] = tok :: rest) : p.current = tok := by
  unfold current
  cases htok : p.tokens with
  | nil => simp_all
  | cons t ts => simp_all

/-- Every step is one of the cases of `StackStep`, for the token it reads and the move it
takes. -/
theorem analyze_stackStep (p : Parser) :
    StackStep p.stack p.current p.move? p.analyze.1.message p.analyze.2.stack := by
  unfold analyze
  dsimp only
  split
  · rename_i hback
    have hmove : p.move? = none := by simp [move?, hback]
    rw [hmove]
    exact .noMove (by dsimp only; decide)
  · rename_i hinput _
    simp at hinput
  · rename_i top tok rest htop hinput
    have htok : p.current = tok := current_eq_of_input hinput
    rw [htok]
    split
    · rename_i hsym
      have hmove : p.move? = none := by simp [move?, htop, htok, hsym]
      rw [hmove]
      exact .noMove (ne_outOfSteps_of_start "Error du" (prefix_toList_append _ (by decide))
        (by decide))
    · rename_i symbol hsym
      have hmove : p.move? = p.moveFor top.value symbol := by simp [move?, htop, htok, hsym]
      rw [hmove]
      split
      · rename_i target hshift
        rw [hshift]
        exact .shift target
      · rename_i n hreduce
        rw [hreduce]
        exact reduce_stackStep ..
      · rename_i hnone
        rw [hnone]
        exact .noMove (ne_outOfSteps_of_start "Error si" (syntaxError_startsWith _ _)
          (by decide))

end Parser

/-! ### What a step changes -/

section
variable {s : Array Token} {tok : Token} {mv : Option Move} {m : String} {s' : Array Token}

end

/-- The parsers a program reaches: a new parser, on any tokens and table, then any steps and any
replacements of its tokens. -/
inductive Reachable : Parser → Prop
  | start (tokens : List Token) (table : ParseTable) : Reachable ⟨tokens, table, #[startEntry]⟩
  | step {p : Parser} : Reachable p → Reachable p.analyze.2
  | setTokens {p : Parser} (tokens : List Token) : Reachable p →
      Reachable { p with tokens := tokens }

/-- No entry of a stack is classed as the marker word. -/
def Unmarked (s : Array Token) : Prop := ∀ e ∈ s, e.kind ≠ markerWord

/-- A marker's class is the target state's number, which is written in digits. -/
theorem toString_ne_markerWord (n : Nat) : toString n ≠ markerWord := by
  intro h
  have hE : 'E' ∈ (toString n).toList := by
    rw [h]
    decide
  rw [Nat.toString_eq_repr, Nat.toList_repr] at hE
  exact absurd (Nat.isDigit_of_mem_toDigits (by decide) (by decide) hE) (by decide)

theorem Unmarked.popPairs {s : Array Token} (hs : Unmarked s) (k : Nat) :
    Unmarked (Parse.popPairs s k) := by
  intro e he
  simp only [Parse.popPairs, Array.mem_def, Array.toList_extract, List.extract_eq_take_drop,
    List.drop_zero] at he
  exact hs e (Array.mem_def.mpr (List.mem_of_mem_take he))

theorem Unmarked.push {s : Array Token} {e : Token} (hs : Unmarked s) (he : e.kind ≠ markerWord) :
    Unmarked (s.push e) := by
  intro x hx
  rcases Array.mem_push.mp hx with hx | rfl
  · exact hs x hx
  · exact he

/-- A step keeps the stack unmarked, given that a token it shifts is not classed as the marker
word. -/
theorem StackStep.unmarked {s : Array Token} {tok : Token} {mv : Option Move} {m : String}
    {s' : Array Token} (h : StackStep s tok mv m s') (hs : Unmarked s)
    (htok : mv ≠ none → tok.kind ≠ markerWord) : Unmarked s' := by
  have hmarker (t : Nat) : (markerEntry t tok).kind ≠ markerWord := toString_ne_markerWord t
  have hhead (prod : Production) : (headEntry prod tok).kind ≠ markerWord := by
    show headClass ≠ markerWord
    decide
  cases h with
  | noMove _ => exact hs
  | shift t => exact (hs.push (htok (Option.some_ne_none _))).push (hmarker t)
  | noRule _ _ => exact hs
  | popped _ _ => exact hs.popPairs _
  | noGoto _ => exact (hs.popPairs _).push (hhead _)
  | reduce t _ => exact ((hs.popPairs _).push (hhead _)).push (hmarker t)

/-- A step with a move read a token of a class that has a symbol, and the marker word has
none. -/
theorem current_kind_ne_markerWord (p : Parser) (h : p.move? ≠ none) :
    p.current.kind ≠ markerWord := by
  intro hkind
  have hsym : symbolOf? markerWord = none := by decide
  apply h
  simp [Parser.move?, hkind, hsym]

theorem Reachable.unmarked {p : Parser} (hp : Reachable p) : Unmarked p.stack := by
  -- on the steps that reach the parser; replacing the tokens leaves the stack alone
  induction hp with
  | start tokens table =>
    intro e he
    rw [List.mem_toArray, List.mem_singleton] at he
    subst he
    decide
  | step _ ih =>
    exact (Parser.analyze_stackStep _).unmarked ih (current_kind_ne_markerWord _)
  | setTokens _ _ ih => exact ih

/-- In every parser a program reaches, with a stack, the symbols a syntax error lists are those
of the end marker's row, whatever the state on top. -/
theorem expected_is_end_row (p : Parser) (hp : Reachable p) (hne : p.stack ≠ #[]) :
    p.expected = p.table.symbolsOf endSymbol := by
  obtain ⟨top, htop⟩ := Option.isSome_iff_exists.mp
    (Array.back?_isSome.mpr hne)
  have hkind : top.kind ≠ markerWord :=
    hp.unmarked top (Array.mem_of_back? htop)
  simp [Parser.expected, htop, hkind]

/-- A parser at its start whose table's one move is for `VAR` in the start state. -/
def startedForVar : Parser := ⟨[], ⟨[(("PROGRAMA", "VAR"), .shift 5)]⟩, #[startEntry]⟩

/-- At the start the step finds no move for the end marker in the state `PROGRAMA`, which has
one for `VAR`; the error lists the end marker's row, which has no move. -/
theorem expected_is_end_row_at_start :
    startedForVar.move? = none ∧ startedForVar.table.symbolsOf "PROGRAMA" = ["VAR"] ∧
      startedForVar.expected = [] := by
  refine ⟨by decide, by decide, ?_⟩
  rw [expected_is_end_row startedForVar (.start _ _) (by simp [startedForVar])]
  decide

end Frontend.Parse
