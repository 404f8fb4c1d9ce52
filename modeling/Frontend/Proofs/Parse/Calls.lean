import Frontend.Parse.Parser

/-! Repeated steps of the shift-reduce parser on one instance.

A step of `Parser.analyze` makes one move and reports; calling it again on the parser it returns
is the only way to go on. Nothing a step does can make a later step succeed. The step reads its
input afresh from the parser's tokens, which no step changes, so every step sees the same first
token. The state it looks up is the top entry's value, and the entry a step that goes on leaves
on top is a state marker, whose value is the marker word whatever state it carries. And a
reduction by the start rule, the only one that reports success, has no node built in its step
to take as its child, so it fails instead (`attachChildren_start`).

`calls_never_succeed` says this for any number of steps from any parser: no step reports
success or gives a tree, the tokens stay as they were, and a step that goes on leaves the marker
word on top, so the next step looks up the moves of a state named by that word
(`next_call_looks_up_marker`). -/
namespace Frontend.Parse
namespace Parser

/-- The outcomes of `k` steps on one parser, each with the parser after it. -/
def calls : Nat → Parser → List (Outcome × Parser)
  | 0, _ => []
  | k + 1, p => p.analyze :: calls k p.analyze.2

/-- What a step from a parser with `p`'s tokens gives: no success and no tree, the tokens
unchanged, and, when it goes on, the marker word as the value on top of the stack. -/
structure Unsuccessful (p : Parser) (r : Outcome × Parser) : Prop where
  tokens_eq : r.2.tokens = p.tokens
  tree_eq : r.1.tree = none
  message_ne : r.1.message ≠ "Análisis exitoso"
  marker_top : r.1.message = outOfSteps →
    r.2.stack.back?.map Token.value = some (.text markerWord)

theorem Unsuccessful.of_tokens_eq {p q : Parser} {r : Outcome × Parser} (h : Unsuccessful q r)
    (hq : q.tokens = p.tokens) : Unsuccessful p r :=
  { h with tokens_eq := h.tokens_eq.trans hq }

/-! ### Messages

Every failure message starts with `Error`, and its first eight characters tell it from the message
of a step that goes on; that is all the proofs need of it. -/

theorem prefix_toList_append {a s : String} (t : String) (h : a.toList <+: s.toList) :
    a.toList <+: (s ++ t).toList := by
  rw [String.toList_append]
  exact h.trans (List.prefix_append _ _)

theorem syntaxError_startsWith (p : Parser) (tok : Token) :
    "Error si".toList <+: (p.syntaxError tok).toList := by
  unfold syntaxError
  repeat apply prefix_toList_append
  decide

/-- A failure, told by a prefix `a` of its message. -/
theorem unsuccessful_of_failure {p q : Parser} {m : String} {log : List String} (a : String)
    (hq : q.tokens = p.tokens) (ha : a.toList <+: m.toList)
    (hfail : "Error".toList <+: a.toList ∧ ¬ a.toList <+: outOfSteps.toList ∧
      ¬ outOfSteps.toList <+: a.toList) :
    Unsuccessful p (⟨m, none, log⟩, q) where
  tokens_eq := hq
  tree_eq := rfl
  message_ne := by
    rintro rfl
    exact absurd (hfail.1.trans ha) (by decide)
  marker_top := by
    rintro rfl
    rcases List.prefix_or_prefix_of_prefix ha (List.prefix_refl _) with h | h
    · exact absurd h hfail.2.1
    · exact absurd h hfail.2.2

theorem unsuccessful_of_goesOn {p q : Parser} {log : List String} (hq : q.tokens = p.tokens)
    (htop : q.stack.back?.map Token.value = some (.text markerWord)) :
    Unsuccessful p (⟨outOfSteps, none, log⟩, q) where
  tokens_eq := hq
  tree_eq := rfl
  message_ne := by show outOfSteps ≠ _; decide
  marker_top := fun _ => htop

/-! ### One step -/

/-- The start rule takes one node built in its step, and a reduction starts with none. -/
theorem attachChildren_start (node : Node) :
    attachChildren (.int 0) node [] = .error (.noNode (.int 0)) := by
  cases node; rfl

theorem reduce_unsuccessful (p : Parser) (n : Nat) (tok : Token) (log : List String) :
    Unsuccessful p (p.reduce n tok log) := by
  unfold reduce
  split
  · exact unsuccessful_of_failure "Error: R" rfl
      (prefix_toList_append _ (prefix_toList_append _ (by decide))) (by decide)
  · dsimp only
    split
    · exact unsuccessful_of_failure "Error: P" rfl (by decide) (by decide)
    · split
      · exact unsuccessful_of_failure "Error du" rfl (prefix_toList_append _ (by decide))
          (by decide)
      · split
        · exact unsuccessful_of_failure "Error: P" rfl (by decide) (by decide)
        · split
          · split
            · -- success needs rule 0, whose children were just found missing
              rename_i hattach _ _ _ _ _ _ hn
              have hn0 : n = 0 := by simpa using (Bool.and_eq_true _ _).mp hn |>.1
              simp [hn0, attachChildren_start] at hattach
            · exact unsuccessful_of_goesOn rfl (by simp)
          · exact unsuccessful_of_failure "Error: N" rfl (prefix_toList_append _ (by decide))
              (by decide)

/-- A reduction logs nothing of its own. -/
theorem reduce_log (p : Parser) (n : Nat) (tok : Token) (log : List String) :
    (p.reduce n tok log).1.log = log := by
  unfold reduce
  split
  · rfl
  · dsimp only
    repeat' split
    all_goals rfl

theorem analyze_unsuccessful (p : Parser) : Unsuccessful p p.analyze := by
  unfold analyze
  dsimp only
  split
  · exact unsuccessful_of_failure "Error: P" rfl (by decide) (by decide)
  · exact unsuccessful_of_failure "Error: N" rfl (by decide) (by decide)
  · split
    · exact unsuccessful_of_failure "Error du" rfl (prefix_toList_append _ (by decide))
        (by decide)
    · split
      · exact unsuccessful_of_goesOn rfl (by simp)
      · exact reduce_unsuccessful ..
      · exact unsuccessful_of_failure "Error si" rfl (syntaxError_startsWith _ _) (by decide)

/-- A step that gets as far as a lookup logs it, for the top entry's value. -/
theorem analyze_log (p : Parser) {top : Token} (htop : p.stack.back? = some top) :
    p.analyze.1.log = [] ∨ ∃ symbol, p.analyze.1.log =
      ["Buscando produccion para [" ++ top.value.render ++ ", " ++ symbol ++ "]"] := by
  unfold analyze
  dsimp only
  split
  · simp_all
  · exact .inl rfl
  · rename_i top' _ _ htop' _
    have : top' = top := Option.some.inj (htop'.symm.trans htop)
    subst this
    split
    · exact .inl rfl
    · rename_i symbol _
      refine .inr ⟨symbol, ?_⟩
      split
      · rfl
      · exact reduce_log ..
      · rfl

/-! ### Runs -/

/-- However many steps are taken on one parser, none succeeds or gives a tree, none moves past a
token, and each that goes on leaves the marker word on top. -/
theorem calls_never_succeed (p : Parser) (k : Nat) : ∀ r ∈ p.calls k, Unsuccessful p r := by
  -- on the number of steps, from whatever parser the first step leaves
  induction k generalizing p with
  | zero => simp [calls]
  | succ k ih =>
    have hstep := analyze_unsuccessful p
    intro r hr
    rcases List.mem_cons.mp hr with rfl | hr
    · exact hstep
    · exact (ih p.analyze.2 r hr).of_tokens_eq hstep.tokens_eq

/-- The table of a program of no statements: at the end the empty list of statements is
reduced, and then the program. -/
def emptyProgramTable : ParseTable :=
  ⟨[(("PROGRAMA", "$"), .reduce 2), (("PROGRAMA", "lista_sentencias"), .shift 1),
    (("PROGRAMA", "PROGRAMA"), .shift 2), (("1", "$"), .reduce 0)]⟩

/-- A parser of no tokens with that table. -/
def emptyProgram : Parser := ⟨[], emptyProgramTable, #[startEntry]⟩

/-- The second step on the empty program, where the reduction by the start rule is due. -/
theorem calls_never_succeed_emptyProgram :
    emptyProgram.analyze.2.analyze ∈ emptyProgram.calls 2 ∧
      Unsuccessful emptyProgram emptyProgram.analyze.2.analyze := by
  have hmem : emptyProgram.analyze.2.analyze ∈ emptyProgram.calls 2 := by simp [calls]
  exact ⟨hmem, calls_never_succeed emptyProgram 2 _ hmem⟩

/-- After a step that goes on, the next step looks up the moves of the state named by the marker
word, not of the state the marker carries. -/
theorem next_call_looks_up_marker (p : Parser) (h : p.analyze.1.message = outOfSteps) :
    p.analyze.2.analyze.1.log = [] ∨ ∃ symbol, p.analyze.2.analyze.1.log =
      ["Buscando produccion para [" ++ markerWord ++ ", " ++ symbol ++ "]"] := by
  obtain ⟨top, htop, hval⟩ := Option.map_eq_some_iff.mp ((analyze_unsuccessful p).marker_top h)
  simpa [hval, Value.render] using analyze_log p.analyze.2 htop

end Parser
end Frontend.Parse
