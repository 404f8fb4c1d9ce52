import Frontend.Proofs.Predictive.Termination

/-! An analysis stays within its stack and its input.

Every configuration an analysis passes through (`Reaches`) holds the end mark at the bottom of
its stack, under a run of other symbols (`OverEndMark`). A match pops a top that is not the end
mark and an expansion replaces such a top, while the analysis stops as soon as the end mark is on
top; so the bottom is never popped, whatever end marks the bodies push above it. The position of
every such configuration lies within the input, the current token is the token there, and it
never passes the first end mark of the input (`Reaches.onInput`), since a match needs a current
token equal to a top that is not the end mark.

**`analysis_stays_within_stack_and_input`**: for every table and every token list, end marks and
`ε` among the tokens and in the bodies included, every configuration of the analysis has a stack
over the end mark and a position before the end of the input and no later than its first end
mark. -/
namespace Frontend.Predictive

/-- A stack whose bottom is the end mark. -/
def OverEndMark (stack : List String) : Prop := ∃ σ, stack = σ ++ [endMark]

section Steps

variable {t : Table} {input : List String} {c next : Config} {top : String} {below : List String}

theorem overEndMark_start : OverEndMark (start input).stack := ⟨[startSymbol], rfl⟩

/-- A step from a top other than the end mark keeps the end mark at the bottom. -/
theorem OverEndMark.advance (hover : OverEndMark c.stack) (hs : c.stack = top :: below)
    (htop : top ≠ endMark) (h : advance t input c top below = .inr next) :
    OverEndMark next.stack := by
  obtain ⟨σ, hσ⟩ := hover
  obtain ⟨σ', -, rfl⟩ := eq_cons_of_append_endMark (hσ.symm.trans hs) htop
  rcases advance_eq_inr h with ⟨-, rfl⟩ | ⟨body, -, rfl⟩
  · exact ⟨σ', rfl⟩
  · exact ⟨body.filter (· != emptyMark) ++ σ', by simp [expand]⟩

/-- Every configuration an analysis reaches has the end mark at the bottom of its stack. -/
theorem Reaches.overEndMark {m : Nat} (h : Reaches t input c m) : OverEndMark c.stack := by
  induction h with
  | start => exact overEndMark_start
  | step _ hs htop hadv ih => exact ih.advance hs htop hadv

end Steps

/-- **An analysis stays within its stack and its input.** For every table and every token list,
every configuration an analysis of the list followed by the end mark reaches has a stack whose
bottom is the end mark, a position before the end of the input holding the current token, and
no later than the first end mark of the input. -/
theorem analysis_stays_within_stack_and_input (t : Table) (tokens : List String) (c : Config)
    (m : Nat) (h : Reaches t (tokens ++ [endMark]) c m) :
    (∃ σ, c.stack = σ ++ [endMark]) ∧ c.position < (tokens ++ [endMark]).length ∧
      (tokens ++ [endMark])[c.position]? = some c.current ∧
      c.position ≤ (tokens ++ [endMark]).idxOf endMark := by
  have hend : endMark ∈ tokens ++ [endMark] := by simp
  obtain ⟨hon, -⟩ := h.onInput hend
  have hlt : c.position < (tokens ++ [endMark]).length :=
    (List.getElem?_eq_some_iff.mp hon.current_eq).1
  exact ⟨h.overEndMark, hlt, hon.current_eq, hon.position_le⟩

/-- With an end mark in a body and another among the tokens, the analysis of `int $ int` pushes
`int $` over the bottom, matches `int`, and stands on the first end mark with two below it. -/
theorem analysis_stays_within_stack_and_input_marked :
    Reaches markedBodyTable (["int", "$", "int"] ++ [endMark])
        (consume (["int", "$", "int"] ++ [endMark])
          (expand (["int", "$", "int"] ++ [endMark]) (start (["int", "$", "int"] ++ [endMark]))
            "E" [endMark] ["int", "$"]) "int" ["$", "$"]) 1 ∧
      ((∃ σ, ["$", "$"] = σ ++ [endMark]) ∧ 1 < (["int", "$", "int"] ++ [endMark]).length ∧
        (["int", "$", "int"] ++ [endMark])[1]? = some "$" ∧
        1 ≤ (["int", "$", "int"] ++ [endMark]).idxOf endMark) := by
  have hexpand : Reaches markedBodyTable (["int", "$", "int"] ++ [endMark])
      (expand (["int", "$", "int"] ++ [endMark]) (start (["int", "$", "int"] ++ [endMark]))
        "E" [endMark] ["int", "$"]) 0 :=
    .step .start rfl (by decide) (advance_of_find? (by decide) (by decide))
  have hmatch := Reaches.step hexpand rfl (by decide) (advance_of_match rfl)
  exact ⟨hmatch, analysis_stays_within_stack_and_input _ _ _ _ hmatch⟩

end Frontend.Predictive
