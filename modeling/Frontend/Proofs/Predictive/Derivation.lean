import Mathlib.Logic.Relation
import Frontend.Predictive.Analysis

/-! Leftmost derivations behind a predictive analysis.

A predictive table is a grammar: a symbol that heads a row is a nonterminal, and each entry
`(X, a) ↦ α` is a production `X → α` with `ε` left out. While deriving a token list `w`, a
*leftmost step* guided by the table replaces the leftmost nonterminal, after the terminals `u`,
by the table's body for it and the token of `w` that follows `u` (`LeftStep`, `LeftDerives`).

A configuration of the analysis of `w` is *sentential* when its stack is a run of symbols over
the end mark and the tokens consumed, followed by that run, are derived from the start symbol
(`Sentential`). The start is sentential, and so is every configuration a match or an expansion
leads to, as long as no token of `w` is the end mark or names a nonterminal and no body holds
the end mark (`sentential_consume`, `sentential_expand`). Every step is recorded from the
configuration it starts in, so every recorded step shows a sentential configuration.

**`analysis_left_sentential`**: under those conditions every step an analysis of `w` records
shows a sentential configuration, and an accepted `w` is derived from the start symbol. -/
namespace Frontend.Predictive

/-- Whether a symbol heads a row of the table: the nonterminals of its grammar. -/
def Table.isHead (t : Table) (a : String) : Bool := t.entries.any (·.1.1 == a)

/-- The token at a position of a token list followed by the end mark. -/
def lookahead (w : List String) (n : Nat) : String := (w ++ [endMark]).getD n endMark

section Grammar
variable (t : Table) (w : List String)

/-- One leftmost step of the table's grammar while deriving `w`: the leftmost nonterminal, after
the terminals `u`, is replaced by the body the table gives for it and the token of `w` that
follows `u`, with `ε` left out. -/
inductive LeftStep : List String → List String → Prop
  | expand {u β body : List String} {X : String} (hu : ∀ a ∈ u, t.isHead a = false)
      (hX : t.find? X (lookahead w u.length) = some body) :
      LeftStep (u ++ X :: β) (u ++ body.filter (· != emptyMark) ++ β)

/-- Leftmost derivations of the table's grammar, guided by the table, while deriving `w`. -/
def LeftDerives : List String → List String → Prop := Relation.ReflTransGen (LeftStep t w)

/-- A configuration of the analysis of `w` whose stack is a run of symbols over the end mark, such
that the tokens consumed followed by the run are derived from the start symbol, and whose current
token is the token of `w` at its position. -/
structure Sentential (c : Config) : Prop where
  above : ∃ σ, c.stack = σ ++ [endMark] ∧ endMark ∉ σ ∧
    LeftDerives t w [startSymbol] (w.take c.position ++ σ)
  position_le : c.position ≤ w.length
  current_eq : c.current = lookahead w c.position

/-- Every step of a trace shows a sentential configuration: its number, its stack and the input
left are those of the configuration. -/
def Recorded (steps : Array Step) : Prop :=
  ∀ s ∈ steps.toList, ∃ c, Sentential t w c ∧ s = stepLine (w ++ [endMark]) c s.action

end Grammar

/-! ### The token ahead -/

section Lookahead
variable {w : List String} {n : Nat}

theorem lookahead_of_lt (h : n < w.length) : lookahead w n = w[n] := by
  simp [lookahead, List.getD_eq_getElem?_getD, List.getElem?_append_left h, List.getElem?_eq_getElem h]

theorem lookahead_of_le (h : w.length ≤ n) : lookahead w n = endMark := by
  simp only [lookahead, List.getD_eq_getElem?_getD, List.getElem?_append_right h]
  cases n - w.length <;> simp

/-- Up to the end of `w`, the input holds the token ahead at every position. -/
theorem getElem?_input (h : n ≤ w.length) : (w ++ [endMark])[n]? = some (lookahead w n) := by
  rcases Nat.lt_or_eq_of_le h with h | rfl
  · rw [lookahead_of_lt h, List.getElem?_append_left h, List.getElem?_eq_getElem h]
  · simp [lookahead_of_le (Nat.le_refl _)]

/-- A token ahead other than the end mark lies within `w`. -/
theorem lt_of_lookahead_ne (h : lookahead w n ≠ endMark) : n < w.length :=
  Nat.lt_of_not_le fun hn => h (lookahead_of_le hn)

/-- Where `w` holds no end mark, the end mark is ahead only at the end of `w`. -/
theorem eq_length_of_lookahead (hw : endMark ∉ w) (hn : n ≤ w.length)
    (h : lookahead w n = endMark) : n = w.length := by
  rcases Nat.lt_or_eq_of_le hn with hlt | heq
  · rw [lookahead_of_lt hlt] at h
    exact absurd (h ▸ List.getElem_mem hlt) hw
  · exact heq

end Lookahead

/-! ### The leftmost step is determined by the form -/

section Determined
variable {t : Table} {w : List String}

/-- The leftmost step from a form, where there is one: the first nonterminal, after the terminals
before it, replaced by the table's body for it and the token ahead, with `ε` left out. -/
def leftStep? (t : Table) (w v : List String) : Option (List String) :=
  match v.dropWhile (!t.isHead ·) with
  | [] => none
  | X :: β =>
    (t.find? X (lookahead w (v.takeWhile (!t.isHead ·)).length)).map fun body =>
      v.takeWhile (!t.isHead ·) ++ body.filter (· != emptyMark) ++ β

/-- A symbol the table has a body for heads a row. -/
theorem isHead_of_find? {X a : String} {body : List String} (h : t.find? X a = some body) :
    t.isHead X = true := by
  obtain ⟨e, he, -⟩ := Option.map_eq_some_iff.mp h
  have hkey : e.1 = (X, a) := by simpa using List.find?_some he
  exact List.any_eq_true.mpr ⟨e, List.mem_of_find?_eq_some he, by simp [hkey]⟩

/-- A leftmost step is the step `leftStep?` takes: the nonterminal it rewrites is the first one
of the form. -/
theorem leftStep_iff {v v' : List String} : LeftStep t w v v' ↔ leftStep? t w v = some v' := by
  constructor
  · rintro @⟨u, β, body, X, hu, hX⟩
    have hpos : ∀ a ∈ u, (!t.isHead a) = true := fun a ha => by simp [hu a ha]
    have hstop : (!t.isHead X) = false := by simp [isHead_of_find? hX]
    have htake : (u ++ X :: β).takeWhile (!t.isHead ·) = u := by
      rw [List.takeWhile_append_of_pos hpos, List.takeWhile_cons_of_neg (by simp [hstop]),
        List.append_nil]
    have hdrop : (u ++ X :: β).dropWhile (!t.isHead ·) = X :: β := by
      rw [List.dropWhile_append_of_pos hpos, List.dropWhile_cons_of_neg (by simp [hstop])]
    simp only [leftStep?, hdrop, htake, hX, Option.map_some]
  · intro h
    unfold leftStep? at h
    split at h
    · cases h
    · rename_i X β hdrop
      obtain ⟨body, hX, rfl⟩ := Option.map_eq_some_iff.mp h
      have hu : ∀ a ∈ v.takeWhile (!t.isHead ·), t.isHead a = false := fun a ha => by
        simpa using List.all_eq_true.mp List.all_takeWhile a ha
      have hv : v.takeWhile (!t.isHead ·) ++ X :: β = v := by
        rw [← hdrop, List.takeWhile_append_dropWhile]
      have hstep := LeftStep.expand (w := w) (β := β) hu hX
      rwa [hv] at hstep

/-- The forms derived from `v` lie in any list of forms that holds `v` and the leftmost step from
each of its forms. -/
theorem mem_of_leftDerives {L : List (List String)} {v v' : List String} (hv : v ∈ L)
    (hL : ∀ x ∈ L, ∀ y ∈ leftStep? t w x, y ∈ L) (h : LeftDerives t w v v') : v' ∈ L := by
  induction h with
  | refl => exact hv
  | tail _ hstep ih => exact hL _ ih _ (leftStep_iff.mp hstep)

end Determined

/-! ### What a step does -/

section Steps
variable {t : Table} {input : List String} {c : Config} {top : String} {below : List String}

theorem advance_eq_inl {o : Outcome} (h : advance t input c top below = .inl o) :
    o = reject input c top := by
  unfold advance at h
  split at h
  · cases h
  · split at h
    · cases h
    · cases h
      rfl

theorem advance_eq_inr {next : Config} (h : advance t input c top below = .inr next) :
    (top = c.current ∧ next = consume input c top below) ∨
      ∃ body, t.find? top c.current = some body ∧ next = expand input c top below body := by
  unfold advance at h
  split at h
  · rename_i heq
    cases h
    exact .inl ⟨beq_iff_eq.mp heq, rfl⟩
  · split at h
    · rename_i body hb
      cases h
      exact .inr ⟨body, hb, rfl⟩
    · cases h

theorem mem_entries_of_find? {X a : String} {body : List String} (h : t.find? X a = some body) :
    ∃ e ∈ t.entries, e.2 = body := by
  obtain ⟨e, he, rfl⟩ := Option.map_eq_some_iff.mp h
  exact ⟨e, List.mem_of_find?_eq_some he, rfl⟩

end Steps

/-! ### Sentential configurations -/

section Invariant
variable {t : Table} {w : List String} {c : Config} {top : String} {below : List String}

/-- A stack over the end mark whose top is another symbol holds that symbol over a shorter run. -/
theorem eq_cons_of_append_endMark {σ : List String} (h : σ ++ [endMark] = top :: below)
    (htop : top ≠ endMark) : ∃ σ', σ = top :: σ' ∧ below = σ' ++ [endMark] := by
  cases σ with
  | nil =>
    simp only [List.nil_append, List.cons.injEq] at h
    exact absurd h.1.symm htop
  | cons a σ' =>
    simp only [List.cons_append, List.cons.injEq] at h
    exact ⟨σ', by rw [h.1], h.2.symm⟩

theorem sentential_start : Sentential t w (start (w ++ [endMark])) where
  above := ⟨[startSymbol], rfl, by simp [endMark, startSymbol], by simpa using .refl⟩
  position_le := Nat.zero_le _
  current_eq := by cases w <;> rfl

/-- Matching the top against the token ahead consumes that token of `w`: the derived form stays
as it is. -/
theorem sentential_consume (hc : Sentential t w c) (hs : c.stack = top :: below)
    (htop : top ≠ endMark) (heq : top = c.current) :
    Sentential t w (consume (w ++ [endMark]) c top below) := by
  obtain ⟨σ, hσ, hnot, hd⟩ := hc.above
  obtain ⟨σ', rfl, rfl⟩ := eq_cons_of_append_endMark (hσ ▸ hs) htop
  -- the top is the token ahead, so it is the next token of `w`
  have hlt : c.position < w.length := lt_of_lookahead_ne (hc.current_eq ▸ heq ▸ htop)
  have hnext : w[c.position] = top := by rw [← lookahead_of_lt hlt, ← hc.current_eq, heq]
  refine ⟨⟨σ', rfl, fun h => hnot (List.mem_cons_of_mem _ h), ?_⟩, hlt, ?_⟩
  · simpa [consume, List.take_add_one, List.getElem?_eq_getElem hlt, hnext] using hd
  · simp only [consume]
    rw [getElem?_input hlt]
    rfl

/-- Expanding the top by the table's body for the token ahead is one leftmost step, as long as
the tokens consumed are terminals. -/
theorem sentential_expand (hheads : ∀ a ∈ w, t.isHead a = false)
    (hbodies : ∀ e ∈ t.entries, endMark ∉ e.2) {body : List String} (hc : Sentential t w c)
    (hs : c.stack = top :: below) (htop : top ≠ endMark)
    (hb : t.find? top c.current = some body) :
    Sentential t w (expand (w ++ [endMark]) c top below body) := by
  obtain ⟨σ, hσ, hnot, hd⟩ := hc.above
  obtain ⟨σ', rfl, rfl⟩ := eq_cons_of_append_endMark (hσ ▸ hs) htop
  have hpushed : endMark ∉ body.filter (· != emptyMark) := by
    obtain ⟨e, he, rfl⟩ := mem_entries_of_find? hb
    exact fun h => hbodies e he (List.mem_filter.mp h).1
  have hstep : LeftStep t w (w.take c.position ++ top :: σ')
      (w.take c.position ++ body.filter (· != emptyMark) ++ σ') := by
    refine .expand (fun a ha => hheads a (List.mem_of_mem_take ha)) ?_
    rw [List.length_take_of_le hc.position_le, ← hc.current_eq]
    exact hb
  refine ⟨⟨body.filter (· != emptyMark) ++ σ', by simp [expand], ?_, ?_⟩,
    hc.position_le, hc.current_eq⟩
  · simp only [List.mem_append, not_or]
    exact ⟨hpushed, fun h => hnot (List.mem_cons_of_mem _ h)⟩
  · simpa [LeftDerives, expand, List.append_assoc] using hd.tail hstep

theorem recorded_push {steps : Array Step} (hr : Recorded t w steps) (hc : Sentential t w c)
    (action : String) : Recorded t w (steps.push (stepLine (w ++ [endMark]) c action)) := by
  intro s hs
  rw [Array.toList_push, List.mem_append, List.mem_singleton] at hs
  rcases hs with hs | rfl
  · exact hr s hs
  · exact ⟨c, hc, rfl⟩

/-- With the end mark on top, the analysis accepts only when all of `w` is consumed, and then the
derived form is `w` itself. -/
theorem finish_tracked (hw : endMark ∉ w) (hc : Sentential t w c) (hr : Recorded t w c.steps)
    (hs : c.stack = endMark :: below) :
    Recorded t w (finish (w ++ [endMark]) c).steps ∧
      ((finish (w ++ [endMark]) c).verdict = .accepted →
        LeftDerives t w [startSymbol] w) := by
  unfold finish
  split
  · rename_i hcur
    refine ⟨recorded_push hr hc _, fun _ => ?_⟩
    obtain ⟨σ, hσ, hnot, hd⟩ := hc.above
    -- nothing stands over the end mark, and the position is the end of `w`
    have hσ_nil : σ = [] := by
      cases σ with
      | nil => rfl
      | cons a σ' =>
        rw [hs, List.cons_append, List.cons.injEq] at hσ
        exact absurd (hσ.1 ▸ List.mem_cons_self) hnot
    have hpos : c.position = w.length :=
      eq_length_of_lookahead hw hc.position_le (hc.current_eq ▸ beq_iff_eq.mp hcur)
    simpa [hσ_nil, hpos] using hd
  · exact ⟨recorded_push hr hc _, nofun⟩

end Invariant

/-! ### Runs -/

section Runs
variable {t : Table} {w : List String}
variable (hw : endMark ∉ w) (hheads : ∀ a ∈ w, t.isHead a = false)
  (hbodies : ∀ e ∈ t.entries, endMark ∉ e.2)
include hw hheads hbodies

/-- A run from a sentential configuration whose trace is recorded ends with a recorded trace,
and derives `w` if it accepts. -/
theorem loop_tracked (fuel : Nat) (c : Config) {o : Outcome}
    (h : loop t (w ++ [endMark]) fuel c = some o) (hc : Sentential t w c)
    (hr : Recorded t w c.steps) :
    Recorded t w o.steps ∧ (o.verdict = .accepted → LeftDerives t w [startSymbol] w) := by
  induction fuel generalizing c with
  | zero => cases h
  | succ fuel ih =>
    obtain ⟨σ, hσ, -, -⟩ := hc.above
    cases hstack : c.stack with
    | nil => simp [hσ] at hstack
    | cons top below =>
      by_cases htop : top = endMark
      · subst htop
        rw [loop_end t _ fuel c below hstack] at h
        cases h
        exact finish_tracked hw hc hr hstack
      · rw [loop_step t _ fuel c top below hstack htop] at h
        split at h
        · rename_i o' hadv
          cases h
          rw [advance_eq_inl hadv]
          exact ⟨recorded_push hr hc _, nofun⟩
        · rename_i next hadv
          rcases advance_eq_inr hadv with ⟨heq, rfl⟩ | ⟨body, hb, rfl⟩
          · exact ih _ h (sentential_consume hc hstack htop heq) (recorded_push hr hc _)
          · exact ih _ h (sentential_expand hheads hbodies hc hstack htop hb)
              (recorded_push hr hc _)

/-- **Every recorded step is a left-sentential form.** Where no token of `w` is the end mark or
names a nonterminal of the table, and no body of the table holds the end mark, every step an
analysis of `w` records shows a configuration whose consumed tokens, followed by its stack over
the end mark, are derived from the start symbol by leftmost steps guided by the table; and if
the analysis accepts, `w` itself is so derived. -/
theorem analysis_left_sentential {o : Outcome} (h : analyze t w = some o) :
    Recorded t w o.steps ∧ (o.verdict = .accepted → LeftDerives t w [startSymbol] w) :=
  loop_tracked hw hheads hbodies _ _ h sentential_start (by simp [Recorded, start])

end Runs

/-- The table the analysis reads by default: sums and products of `int` with parentheses. -/
def sumsTable : Table := ⟨[
  (("E", "int"), ["T", "X"]), (("E", "par_izq"), ["T", "X"]),
  (("X", "mas"), ["mas", "E"]), (("X", "par_der"), ["ε"]), (("X", "$"), ["ε"]),
  (("T", "int"), ["int", "Y"]), (("T", "par_izq"), ["par_izq", "E", "par_der"]),
  (("Y", "mult"), ["mult", "T"]), (("Y", "mas"), ["ε"]), (("Y", "par_der"), ["ε"]),
  (("Y", "$"), ["ε"])]⟩

theorem analysis_left_sentential_sums :
    endMark ∉ ["int", "mas", "int"] ∧ (∀ a ∈ ["int", "mas", "int"], sumsTable.isHead a = false) ∧
      (∀ e ∈ sumsTable.entries, endMark ∉ e.2) ∧
      (analyze sumsTable ["int", "mas", "int"]).map Outcome.verdict = some .accepted ∧
      LeftDerives sumsTable ["int", "mas", "int"] [startSymbol] ["int", "mas", "int"] := by
  have hacc : (analyze sumsTable ["int", "mas", "int"]).map Outcome.verdict = some .accepted := by
    decide +kernel
  obtain ⟨o, h, hv⟩ := Option.map_eq_some_iff.mp hacc
  exact ⟨by decide, by decide, by decide, hacc,
    (analysis_left_sentential (by decide) (by decide) (by decide) h).2 hv⟩

/-! ### Without the conditions -/

/-- An analysis that accepts a token list that the table's grammar does not derive from the start
symbol. -/
def AcceptsUnderived (t : Table) (w : List String) : Prop :=
  (analyze t w).map Outcome.verdict = some .accepted ∧ ¬ LeftDerives t w [startSymbol] w

/-- A table whose start expands to a nonterminal, which a token may name. -/
def namedHeadTable : Table := ⟨[(("E", "X"), ["X", "Y"]), (("X", "c"), ["c"]), (("Y", "$"), ["ε"])]⟩

/-- A table with the end mark in a body. -/
def markedBodyTable : Table := ⟨[(("E", "int"), ["int", "$"])]⟩

/-- Each condition is needed: with the default table an end mark among the tokens ends the input
early; a token that names a nonterminal is matched against it; and an end mark in a body ends the
stack early. Each table is one the reader loads from its text. -/
theorem acceptance_without_derivation :
    (Table.ofCsv defaultText).toOption = some sumsTable ∧
      AcceptsUnderived sumsTable ["int", "$", "int"] ∧
    (Table.ofCsv ";X;c;$\nE;X Y;;\nX;;c;\nY;;;ε\n").toOption = some namedHeadTable ∧
      AcceptsUnderived namedHeadTable ["X"] ∧
    (Table.ofCsv ";int;$\nE;int $;\n").toOption = some markedBodyTable ∧
      AcceptsUnderived markedBodyTable ["int"] := by
  refine ⟨by decide +kernel, ⟨by decide +kernel, fun h => ?_⟩, by decide +kernel,
    ⟨by decide +kernel, fun h => ?_⟩, by decide +kernel, ⟨by decide +kernel, fun h => ?_⟩⟩
  -- every form derived from the start is one of a few, none of them the tokens
  · have := mem_of_leftDerives
      (L := [["E"], ["T", "X"], ["int", "Y", "X"], ["int", "X"], ["int"]]) (by decide)
      (by decide) h
    revert this
    decide
  · have := mem_of_leftDerives (L := [["E"], ["X", "Y"]]) (by decide) (by decide) h
    revert this
    decide
  · have := mem_of_leftDerives (L := [["E"], ["int", "$"]]) (by decide) (by decide) h
    revert this
    decide

end Frontend.Predictive
