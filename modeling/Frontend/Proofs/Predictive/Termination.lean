import Mathlib
import Frontend.Proofs.Predictive.Derivation

/-! When a predictive analysis ends.

At a fixed token `a` the analysis only expands: the top symbol `x`, other than `a`, is replaced by
the table's body for `x` and `a`, `ε` left out. A symbol *vanishes* at `a` when its body there holds
only `ε` and symbols that vanish (`Vanishes`): the expansions can remove it without reading. A
symbol *clears* at `a` when it is `ε` or vanishes, and `x` *leads* to `y` at `a` when `y` stands in
the body of `x` after symbols that all clear (`Leads`): `y` is what the expansions may reach next.

When no symbol leads back to itself at any token, the analysis ends on every token list, and it
matches no more tokens than stand before the first end mark (`analysis_ends_within_matches`). The
proof gives each stack symbol a level and the stack the potential `Σ (w + 1) ^ level`, where `w`
is the longest body. A symbol on top at position `p` has a level above `(e - p) · H` plus its
*height*, the number of row symbols it leads to (`height`), where `e` is the position of the end
mark and `H` bounds every height. A symbol under one that cannot clear only has to lie above
`(e - p) · H`: the expansions do not reach it before a token is read (`Fit`). An expansion gives
each body symbol a lower level, so a body of at most `w` symbols weighs less than its head; a match
drops its symbol and lowers every bound by `H`. The potential falls at every step
(`potential_falls`), and the fuel of the analysis exceeds the starting potential.

The condition counts `ε` among the symbols that clear. Without it, a body `ε E` for `E` leads
nowhere but to `ε`, and the analysis expands `E` to itself for ever
(`analysis_loops_past_empty_mark`). -/
namespace Frontend.Predictive

/-! ### Vanishing and leading -/

section Leads

variable (t : Table) (a : String)

/-- A symbol vanishes at token `a` when the table's body for it and `a` holds only `ε` and
symbols that vanish: the least such set of symbols. -/
inductive Vanishes : String → Prop
  | intro {x : String} {body : List String} : t.find? x a = some body →
      (∀ z ∈ body, z ≠ emptyMark → Vanishes z) → Vanishes x

/-- A symbol that the expansions at token `a` can remove without reading: `ε`, or a symbol that
vanishes. -/
def Clears (z : String) : Prop := z = emptyMark ∨ Vanishes t a z

/-- `x` leads to `y` at token `a`, past the symbols `passes` lets through: `x` is not `a`, and `y`
stands in the table's body for `x` and `a` after symbols that all pass. -/
def LeadsPast (passes : String → Prop) (x y : String) : Prop :=
  x ≠ a ∧ ∃ body pre post, t.find? x a = some body ∧ body = pre ++ y :: post ∧ ∀ z ∈ pre, passes z

/-- `x` leads to `y` at token `a` when `y` stands in the body of `x` after symbols that clear. -/
def Leads : String → String → Prop := LeadsPast t a (Clears t a)

/-- The symbols that head a row of the table. -/
def rowSymbols : Finset String := (t.entries.map fun e => e.1.1).toFinset

open Classical in
/-- The height of a symbol at token `a`: how many row symbols it leads to, itself included. -/
noncomputable def height (x : String) : Nat :=
  ((rowSymbols t).filter fun z => Relation.ReflTransGen (Leads t a) x z).card

variable {t a}

theorem exists_entry_of_find? {x : String} {body : List String} (h : t.find? x a = some body) :
    ∃ e ∈ t.entries, e.1 = (x, a) ∧ e.2 = body := by
  obtain ⟨e, he, rfl⟩ := Option.map_eq_some_iff.mp h
  exact ⟨e, List.mem_of_find?_eq_some he, by simpa using List.find?_some he, rfl⟩

theorem mem_rowSymbols_of_find? {x : String} {body : List String} (h : t.find? x a = some body) :
    x ∈ rowSymbols t := by
  obtain ⟨e, he, hkey, -⟩ := exists_entry_of_find? h
  simp only [rowSymbols, List.mem_toFinset, List.mem_map]
  exact ⟨e, he, by rw [hkey]⟩

theorem height_le (x : String) : height t a x ≤ t.entries.length := by
  classical
  unfold height
  calc _ ≤ (rowSymbols t).card := Finset.card_filter_le _ _
    _ ≤ (t.entries.map fun e => e.1.1).length := List.toFinset_card_le _
    _ = t.entries.length := List.length_map _

/-- Along a lead the height drops: what `y` leads to, `x` leads to as well, and `x` itself is not
among it when no symbol leads back to itself. -/
theorem height_lt (hacyclic : ∀ x, ¬ Relation.TransGen (Leads t a) x x) {x y : String}
    (h : Leads t a x y) : height t a y < height t a x := by
  classical
  have hrow : x ∈ rowSymbols t := by
    obtain ⟨-, body, -, -, hfind, -⟩ := h
    exact mem_rowSymbols_of_find? hfind
  unfold height
  apply Finset.card_lt_card
  rw [Finset.ssubset_iff_of_subset]
  · refine ⟨x, ?_, ?_⟩
    · exact Finset.mem_filter.mpr ⟨hrow, .refl⟩
    · intro hx
      exact hacyclic x (Relation.TransGen.head' h (Finset.mem_filter.mp hx).2)
  · intro z hz
    obtain ⟨hrow, hyz⟩ := Finset.mem_filter.mp hz
    exact Finset.mem_filter.mpr ⟨hrow, Relation.ReflTransGen.head h hyz⟩

/-- A symbol with a body whose every symbol clears vanishes; so a symbol that does not clear has a
symbol in its body that does not clear either. -/
theorem exists_not_clears {x : String} {body : List String} (hfind : t.find? x a = some body)
    (hx : ¬ Clears t a x) : ∃ z ∈ body, ¬ Clears t a z := by
  by_contra hall
  apply hx (Or.inr (Vanishes.intro hfind fun z hz hne => ?_))
  by_contra hz'
  exact hall ⟨z, hz, fun hc => hc.elim hne hz'⟩

/-- A symbol of the body, with `ε` left out, after symbols that all clear is one `x` leads to. -/
theorem leads_of_filter {x : String} {body pre post : List String} {y : String}
    (hxa : x ≠ a) (hfind : t.find? x a = some body)
    (hsplit : body.filter (· != emptyMark) = pre ++ y :: post) (hpre : ∀ z ∈ pre, Clears t a z) :
    Leads t a x y := by
  obtain ⟨l₁, l₂, rfl, h₁, h₂⟩ := List.filter_eq_append_iff.mp hsplit
  obtain ⟨m₁, m₂, rfl, hm₁, -, -⟩ := List.filter_eq_cons_iff.mp h₂
  refine ⟨hxa, _, l₁ ++ m₁, m₂, hfind, by simp, fun z hz => ?_⟩
  rcases List.mem_append.mp hz with hz | hz
  · -- a symbol before the run of `ε`: either `ε` itself or one that stands in `pre`
    by_cases hε : z = emptyMark
    · exact Or.inl hε
    · exact hpre z (h₁ ▸ List.mem_filter.mpr ⟨hz, by simpa using hε⟩)
  · exact Or.inl (by simpa using hm₁ z hz)

end Leads

/-! ### Where the analysis stands in its input -/

section Position

variable {t : Table} {input : List String} {c next : Config} {top : String} {below : List String}

/-- The analysis of `input` stands no later than the first end mark, and its current token is the
token where it stands. -/
structure OnInput (input : List String) (c : Config) : Prop where
  position_le : c.position ≤ input.idxOf endMark
  current_eq : input[c.position]? = some c.current

theorem onInput_start (hend : endMark ∈ input) : OnInput input (start input) := by
  cases input with
  | nil => simp at hend
  | cons x xs => exact ⟨Nat.zero_le _, rfl⟩

/-- A top that matches the current token is not the end mark, so the match happens before the
first end mark. -/
theorem OnInput.position_lt (hon : OnInput input c) (hend : endMark ∈ input) (htop : top ≠ endMark)
    (hm : top = c.current) : c.position < input.idxOf endMark := by
  rcases Nat.lt_or_eq_of_le hon.position_le with h | h
  · exact h
  · have hcur := hon.current_eq
    rw [h, List.getElem?_idxOf hend] at hcur
    exact absurd (hm.trans (Option.some.inj hcur).symm) htop

theorem advance_of_match (hm : top = c.current) :
    advance t input c top below = .inr (consume input c top below) := by
  simp [advance, hm]

theorem advance_of_find? {body : List String} (hm : top ≠ c.current)
    (hfind : t.find? top c.current = some body) :
    advance t input c top below = .inr (expand input c top below body) := by
  simp [advance, hm, hfind]

theorem expand_of_advance (h : advance t input c top below = .inr next) (hm : top ≠ c.current) :
    ∃ body, t.find? top c.current = some body ∧ next = expand input c top below body := by
  rcases advance_eq_inr h with ⟨hm', -⟩ | hexp
  · exact absurd hm' hm
  · exact hexp

/-- A step keeps the analysis on its input, and moves it one token on exactly when it matches. -/
theorem OnInput.advance (hon : OnInput input c) (hend : endMark ∈ input)
    (htop : top ≠ endMark) (h : advance t input c top below = .inr next) :
    OnInput input next ∧
      next.position = if top = c.current then c.position + 1 else c.position := by
  by_cases hm : top = c.current
  · rw [advance_of_match hm] at h
    cases h
    -- the next token lies within the input, up to the end mark
    have hlt := hon.position_lt hend htop hm
    have hlen := List.idxOf_lt_length_of_mem hend
    obtain ⟨y, hy⟩ : ∃ y, input[c.position + 1]? = some y :=
      ⟨input[c.position + 1], List.getElem?_eq_getElem (by omega)⟩
    refine ⟨⟨?_, ?_⟩, by simp [consume, hm]⟩
    · simp only [consume]
      omega
    · simp [consume, hy]
  · obtain ⟨body, -, rfl⟩ := expand_of_advance h hm
    exact ⟨⟨hon.position_le, hon.current_eq⟩, by simp [expand, hm]⟩

/-- The configurations an analysis of `input` passes through, with the number of tokens matched
on the way. -/
inductive Reaches (t : Table) (input : List String) : Config → Nat → Prop
  | start : Reaches t input (start input) 0
  | step {c next : Config} {top : String} {below : List String} {m : Nat} :
      Reaches t input c m → c.stack = top :: below → top ≠ endMark →
      advance t input c top below = .inr next →
      Reaches t input next (if top = c.current then m + 1 else m)

/-- Every configuration reached stands on its input, at the position of the tokens it matched. -/
theorem Reaches.onInput (hend : endMark ∈ input) {m : Nat} (h : Reaches t input c m) :
    OnInput input c ∧ c.position = m := by
  induction h with
  | start => exact ⟨onInput_start hend, rfl⟩
  | step _ _ htop hadv ih =>
    obtain ⟨hon, hpos⟩ := ih
    obtain ⟨hon', hpos'⟩ := hon.advance hend htop hadv
    refine ⟨hon', ?_⟩
    rw [hpos', hpos]

end Position

/-! ### Levels and the potential of a stack -/

section Levels

variable {floor : Nat} {height : String → Nat} {blocks : String → Prop}

/-- Levels for the symbols of a stack, from the top, fit `floor`: the top lies above `floor` plus
its height, and so does every symbol down to the first one that blocks, under which the levels
only have to reach `floor`. -/
def Fit (floor : Nat) (height : String → Nat) (blocks : String → Prop) :
    List (String × Nat) → Prop
  | [] => True
  | (z, l) :: rest =>
    floor + height z < l ∧ ((blocks z ∧ ∀ e ∈ rest, floor ≤ e.2) ∨ Fit floor height blocks rest)

theorem Fit.floor_le : ∀ {r : List (String × Nat)}, Fit floor height blocks r → ∀ e ∈ r, floor ≤ e.2
  | [], _ => by simp
  | (z, l) :: rest, ⟨hl, hrest⟩ => by
    have hrest : ∀ e ∈ rest, floor ≤ e.2 := hrest.elim (·.2) Fit.floor_le
    simp only [List.mem_cons, forall_eq_or_imp]
    exact ⟨by omega, hrest⟩

/-- Levels that all lie above `floor + H`, for heights below `H`, fit `floor`. -/
theorem fit_of_le {H : Nat} (hheight : ∀ z, height z < H) :
    ∀ {r : List (String × Nat)}, (∀ e ∈ r, floor + H ≤ e.2) → Fit floor height blocks r
  | [], _ => trivial
  | (z, l) :: rest, hr => by
    have hl := hr (z, l) (by simp)
    have := hheight z
    exact ⟨by simp only at hl; omega, .inr (fit_of_le hheight fun e he => hr e (by simp [he]))⟩

open Classical in
/-- Levels for the symbols an expansion pushes: each above `floor` plus its height, down to the
first one that blocks, and `floor` under it. -/
noncomputable def annotate (floor : Nat) (height : String → Nat) (blocks : String → Prop) :
    List String → List (String × Nat)
  | [] => []
  | y :: ys => (y, floor + height y + 1) ::
      if blocks y then ys.map (·, floor) else annotate floor height blocks ys

@[simp] theorem map_fst_annotate (ys : List String) :
    (annotate floor height blocks ys).map Prod.fst = ys := by
  induction ys with
  | nil => rfl
  | cons y ys ih =>
    classical
    by_cases hy : blocks y <;> simp [annotate, hy, ih, Function.comp_def]

/-- The levels of an expansion fit on top of levels that reach `floor`, when what was under the
expanded symbol fits or a pushed symbol blocks. -/
theorem fit_annotate_append {rest : List (String × Nat)} (hlow : ∀ e ∈ rest, floor ≤ e.2) :
    ∀ {ys : List String}, ((∃ y ∈ ys, blocks y) ∨ Fit floor height blocks rest) →
      Fit floor height blocks (annotate floor height blocks ys ++ rest)
  | [], h => by simpa [annotate] using h
  | y :: ys, h => by
    classical
    by_cases hy : blocks y
    · rw [annotate, if_pos hy, List.cons_append]
      refine ⟨by omega, .inl ⟨hy, fun e he => ?_⟩⟩
      rcases List.mem_append.mp he with he | he
      · obtain ⟨z, -, rfl⟩ := List.mem_map.mp he
        exact le_refl _
      · exact hlow e he
    · rw [annotate, if_neg hy, List.cons_append]
      refine ⟨by omega, .inr (fit_annotate_append hlow ?_)⟩
      simpa [hy] using h

/-- The levels of an expansion lie below `l` when `floor` does and every symbol reached past
symbols that do not block has its level, one above `floor` plus its height, below `l`. -/
theorem annotate_level_lt {l : Nat} (hfloor : floor < l) :
    ∀ {ys : List String}, (∀ pre y post, ys = pre ++ y :: post → (∀ z ∈ pre, ¬ blocks z) →
      floor + height y + 1 < l) → ∀ e ∈ annotate floor height blocks ys, e.2 < l
  | [], _ => by simp [annotate]
  | y :: ys, hreach => by
    classical
    have hy : floor + height y + 1 < l := hreach [] y ys rfl (by simp)
    by_cases hb : blocks y
    · simp only [annotate, hb, if_true, List.mem_cons, List.mem_map]
      rintro e (rfl | ⟨z, -, rfl⟩)
      · exact hy
      · exact hfloor
    · simp only [annotate, hb, if_false, List.mem_cons]
      rintro e (rfl | he)
      · exact hy
      · refine annotate_level_lt hfloor (fun pre z post hsplit hpre => ?_) e he
        refine hreach (y :: pre) z post (by simp [hsplit]) ?_
        simpa [hb] using hpre

theorem length_annotate (ys : List String) : (annotate floor height blocks ys).length = ys.length :=
  calc (annotate floor height blocks ys).length
      = ((annotate floor height blocks ys).map Prod.fst).length := (List.length_map _).symm
    _ = ys.length := by rw [map_fst_annotate]

/-- The potential of levelled symbols in base `b`: the sum of `b ^ level`. -/
def potential (b : Nat) (r : List (String × Nat)) : Nat := (r.map fun e => b ^ e.2).sum

@[simp] theorem potential_nil (b : Nat) : potential b [] = 0 := rfl

@[simp] theorem potential_cons (b : Nat) (e : String × Nat) (r : List (String × Nat)) :
    potential b (e :: r) = b ^ e.2 + potential b r := by
  simp [potential]

@[simp] theorem potential_append (b : Nat) (r r' : List (String × Nat)) :
    potential b (r ++ r') = potential b r + potential b r' := by
  simp [potential]

/-- At most `w` symbols, all below level `l`, weigh less in base `w + 1` than one symbol at `l`. -/
theorem potential_lt_pow {w l : Nat} {r : List (String × Nat)} (hlen : r.length ≤ w)
    (hlevel : ∀ e ∈ r, e.2 < l) : potential (w + 1) r < (w + 1) ^ l := by
  cases l with
  | zero =>
    cases r with
    | nil => simp
    | cons e r => exact absurd (hlevel e (by simp)) (Nat.not_lt_zero _)
  | succ k =>
    have hterm : ∀ x ∈ r.map fun e => (w + 1) ^ e.2, x ≤ (w + 1) ^ k := by
      simp only [List.mem_map]
      rintro x ⟨e, he, rfl⟩
      exact Nat.pow_le_pow_right (Nat.succ_pos w) (Nat.lt_succ_iff.mp (hlevel e he))
    calc potential (w + 1) r ≤ r.length * (w + 1) ^ k := by
          simpa [potential] using List.sum_le_card_nsmul _ _ hterm
      _ ≤ w * (w + 1) ^ k := Nat.mul_le_mul_right _ hlen
      _ < (w + 1) * (w + 1) ^ k := Nat.mul_lt_mul_of_pos_right (Nat.lt_succ_self w)
          (Nat.pow_pos (Nat.succ_pos w))
      _ = (w + 1) ^ (k + 1) := (Nat.pow_succ' ..).symm

end Levels

/-! ### The potential falls at every step -/

section Falls

variable {t : Table} {input : List String} {c next : Config} {top : String} {below : List String}
  {r : List (String × Nat)}

theorem le_foldl_widest (entries : List ((String × String) × List String)) (m : Nat) :
    m ≤ entries.foldl (fun m e => max m e.2.length) m ∧
      ∀ e ∈ entries, e.2.length ≤ entries.foldl (fun m e => max m e.2.length) m := by
  induction entries generalizing m with
  | nil => simp
  | cons e entries ih =>
    obtain ⟨hm, hall⟩ := ih (max m e.2.length)
    refine ⟨le_trans (le_max_left _ _) hm, ?_⟩
    simp only [List.mem_cons, forall_eq_or_imp]
    exact ⟨le_trans (le_max_right _ _) hm, hall⟩

theorem length_le_widest {x a : String} {body : List String} (h : t.find? x a = some body) :
    body.length ≤ t.widest := by
  obtain ⟨e, he, rfl⟩ := mem_entries_of_find? h
  exact (le_foldl_widest t.entries 0).2 e he

/-- Levels for the stack of an analysis of `input`: one per symbol, fitting the floor
`(e - p) · H` for the position `p`, the first end mark `e` and `H` one above the number of table
entries, with heights and the symbols that block taken at the current token. -/
structure Ranked (t : Table) (input : List String) (c : Config) (r : List (String × Nat)) :
    Prop where
  onInput : OnInput input c
  stack_eq : r.map Prod.fst = c.stack
  fit : Fit ((input.idxOf endMark - c.position) * (t.entries.length + 1)) (height t c.current)
    (fun z => ¬ Clears t c.current z) r

/-- A match drops the top and lowers the floor by `H`, below every remaining level, so the levels
under the top fit the next configuration. -/
theorem ranked_consume (hend : endMark ∈ input) {l : Nat} {rest : List (String × Nat)}
    (hr : Ranked t input c ((top, l) :: rest)) (hrest : rest.map Prod.fst = below)
    (htop : top ≠ endMark) (hm : top = c.current) :
    Ranked t input (consume input c top below) rest := by
  have hpos := hr.onInput.position_lt hend htop hm
  have hadv : advance t input c top below = .inr (consume input c top below) := advance_of_match hm
  have hon := (hr.onInput.advance hend htop hadv).1
  have hlow := hr.fit.2.elim (·.2) Fit.floor_le
  refine ⟨hon, hrest, fit_of_le (fun z => Nat.lt_succ_of_le (height_le z)) fun e he => ?_⟩
  have hdrop : input.idxOf endMark - c.position = input.idxOf endMark - (c.position + 1) + 1 := by
    omega
  have := hlow e he
  rw [hdrop, Nat.succ_mul] at this
  simpa [consume] using this

/-- An expansion replaces the top by its body: each pushed symbol gets a level below the top's,
one above the floor plus its height, down to the first that cannot clear. The levels fit, and
at most `w` symbols below the top's level weigh less than the top. -/
theorem ranked_expand (hacyclic : ∀ a x, ¬ Relation.TransGen (Leads t a) x x) {l : Nat}
    {rest : List (String × Nat)} {body : List String}
    (hr : Ranked t input c ((top, l) :: rest)) (hrest : rest.map Prod.fst = below)
    (hm : top ≠ c.current) (hfind : t.find? top c.current = some body) :
    ∃ r', Ranked t input (expand input c top below body) r' ∧
      potential (t.widest + 1) r' < potential (t.widest + 1) ((top, l) :: rest) := by
  obtain ⟨hl, hcases⟩ := hr.fit
  have hlow := hcases.elim (·.2) Fit.floor_le
  -- a symbol reached past symbols that clear is one the top leads to, so its height is lower
  have hreach : ∀ pre y post, body.filter (· != emptyMark) = pre ++ y :: post →
      (∀ z ∈ pre, ¬ ¬ Clears t c.current z) →
      (input.idxOf endMark - c.position) * (t.entries.length + 1) +
        height t c.current y + 1 < l := by
    intro pre y post hsplit hpre
    have hlead := leads_of_filter hm hfind hsplit fun z hz => not_not.mp (hpre z hz)
    have := height_lt (hacyclic c.current) hlead
    omega
  have hlen : (annotate ((input.idxOf endMark - c.position) * (t.entries.length + 1))
      (height t c.current) (fun z => ¬ Clears t c.current z)
      (body.filter (· != emptyMark))).length ≤ t.widest := by
    rw [length_annotate]
    exact (List.length_filter_le _ _).trans (length_le_widest hfind)
  have hpushed := potential_lt_pow hlen (annotate_level_lt (by omega) hreach)
  refine ⟨annotate ((input.idxOf endMark - c.position) * (t.entries.length + 1))
    (height t c.current) (fun z => ¬ Clears t c.current z) (body.filter (· != emptyMark)) ++ rest,
    ⟨⟨hr.onInput.position_le, hr.onInput.current_eq⟩, ?_, ?_⟩, ?_⟩
  · simp [expand, hrest]
  · refine fit_annotate_append hlow ?_
    rcases hcases with ⟨hblock, -⟩ | hfit
    · -- a top that cannot clear has a pushed symbol that cannot either
      obtain ⟨y, hy, hny⟩ := exists_not_clears hfind hblock
      have hne : y ≠ emptyMark := fun hε => hny (Or.inl hε)
      exact .inl ⟨y, List.mem_filter.mpr ⟨hy, by simpa using hne⟩, hny⟩
    · exact .inr hfit
  · simp only [potential_append, potential_cons]
    omega

/-- **The potential falls.** When no symbol leads back to itself, every step of the analysis
keeps levels for its stack and lowers their potential in base one above the longest body. -/
theorem potential_falls (hacyclic : ∀ a x, ¬ Relation.TransGen (Leads t a) x x)
    (hend : endMark ∈ input) (hr : Ranked t input c r) (hs : c.stack = top :: below)
    (htop : top ≠ endMark) (h : advance t input c top below = .inr next) :
    ∃ r', Ranked t input next r' ∧ potential (t.widest + 1) r' < potential (t.widest + 1) r := by
  -- the top of the stack has the first level
  obtain ⟨⟨z, l⟩, rest, rfl, hz, hrest⟩ := List.map_eq_cons_iff.mp (hr.stack_eq.trans hs)
  obtain rfl : top = z := hz.symm
  by_cases hm : top = c.current
  · rw [advance_of_match hm] at h
    cases h
    refine ⟨rest, ranked_consume hend hr hrest htop hm, ?_⟩
    have hpos : 0 < (t.widest + 1) ^ l := Nat.pow_pos (Nat.succ_pos t.widest)
    rw [potential_cons]
    exact Nat.lt_add_of_pos_left hpos
  · obtain ⟨body, hfind, rfl⟩ := expand_of_advance h hm
    exact ranked_expand hacyclic hr hrest hm hfind

/-- With more fuel than the potential of levels for its stack, the analysis ends. -/
theorem loop_isSome_of_ranked (hacyclic : ∀ a x, ¬ Relation.TransGen (Leads t a) x x)
    (hend : endMark ∈ input) (fuel : Nat) (hr : Ranked t input c r)
    (hfuel : potential (t.widest + 1) r < fuel) : ∃ o, loop t input fuel c = some o := by
  -- induction on the fuel; the potential falls by at least one at every step
  induction fuel generalizing c r with
  | zero => omega
  | succ fuel ih =>
    rcases hs : c.stack with _ | ⟨top, below⟩
    · exact ⟨finish input c, by unfold loop; rw [hs]⟩
    · by_cases htop : top = endMark
      · subst htop
        exact ⟨_, loop_end t input fuel c below hs⟩
      · rw [loop_step t input fuel c top below hs htop]
        rcases hadv : advance t input c top below with o | next
        · exact ⟨o, rfl⟩
        · obtain ⟨r', hr', hlt⟩ := potential_falls hacyclic hend hr hs htop hadv
          exact ih hr' (by omega)

/-- The levels the analysis starts from: both symbols of the first stack at `(e + 1) · H`. -/
theorem ranked_start (hend : endMark ∈ input) :
    Ranked t input (start input)
      [(startSymbol, (input.idxOf endMark + 1) * (t.entries.length + 1)),
        (endMark, (input.idxOf endMark + 1) * (t.entries.length + 1))] := by
  refine ⟨onInput_start hend, rfl, fit_of_le (fun z => Nat.lt_succ_of_le (height_le z)) ?_⟩
  simp [start, Nat.succ_mul]

/-- The fuel of the analysis exceeds the potential it starts from. -/
theorem potential_start_lt (hend : endMark ∈ input) :
    potential (t.widest + 1)
      [(startSymbol, (input.idxOf endMark + 1) * (t.entries.length + 1)),
        (endMark, (input.idxOf endMark + 1) * (t.entries.length + 1))] < stepBound t input := by
  have hL : (input.idxOf endMark + 1) * (t.entries.length + 1) ≤
      input.length * (t.entries.length + 1) :=
    Nat.mul_le_mul_right _ (List.idxOf_lt_length_of_mem hend)
  have hlevel : (t.widest + 1) ^ ((input.idxOf endMark + 1) * (t.entries.length + 1)) ≤
      (t.widest + 2) ^ (input.length * (t.entries.length + 1)) :=
    calc _ ≤ (t.widest + 2) ^ ((input.idxOf endMark + 1) * (t.entries.length + 1)) :=
          Nat.pow_le_pow_left (Nat.le_succ _) _
      _ ≤ _ := Nat.pow_le_pow_right (Nat.succ_pos _) hL
  have hpos : 0 < (t.widest + 2) ^ (input.length * (t.entries.length + 1)) :=
    Nat.pow_pos (Nat.succ_pos _)
  have hfour : 4 ≤ (t.widest + 2) ^ 2 := by
    rw [Nat.pow_two]
    exact Nat.mul_le_mul (Nat.le_add_left 2 _) (Nat.le_add_left 2 _)
  calc _ = 2 * (t.widest + 1) ^ ((input.idxOf endMark + 1) * (t.entries.length + 1)) := by
        simp [potential]
        omega
    _ < 4 * (t.widest + 2) ^ (input.length * (t.entries.length + 1)) := by omega
    _ ≤ (t.widest + 2) ^ 2 * (t.widest + 2) ^ (input.length * (t.entries.length + 1)) :=
        Nat.mul_le_mul_right _ hfour
    _ = stepBound t input := by rw [stepBound, Nat.pow_eq, Nat.pow_add, Nat.mul_comm]

end Falls

/-! ### The analysis ends -/

/-- **When a predictive analysis ends.** When at no token a symbol leads back to itself, the
analysis of every token list ends, and along the way it matches no more tokens than stand before
the first end mark of the input, the list followed by `$`. -/
theorem analysis_ends_within_matches (t : Table) (tokens : List String)
    (hacyclic : ∀ a x, ¬ Relation.TransGen (Leads t a) x x) :
    (∃ o, analyze t tokens = some o) ∧
      ∀ c m, Reaches t (tokens ++ [endMark]) c m → m ≤ (tokens ++ [endMark]).idxOf endMark := by
  have hend : endMark ∈ tokens ++ [endMark] := by simp
  refine ⟨loop_isSome_of_ranked hacyclic hend _ (ranked_start hend) (potential_start_lt hend), ?_⟩
  intro c m hreach
  obtain ⟨hon, rfl⟩ := hreach.onInput hend
  exact hon.position_le

/-! ### A criterion that computes -/

section Criterion

variable {t : Table} {a : String}

/-- The symbols of a body the expansions may reach: up to the first one that is neither `ε` nor
heads a row, that one included. -/
def Table.frontier (t : Table) : List String → List String
  | [] => []
  | y :: ys => y :: if y == emptyMark || t.isHead y then t.frontier ys else []

/-- Every symbol a body may reach ranks below the head of its row. -/
def Table.ranksDrop (t : Table) (rank : String → Nat) : Bool :=
  t.entries.all fun e => (t.frontier e.2).all fun y => decide (rank y < rank e.1.1)

theorem clears_imp {z : String} (h : Clears t a z) : z = emptyMark ∨ t.isHead z = true := by
  rcases h with h | ⟨hfind, -⟩
  · exact .inl h
  · exact .inr (isHead_of_find? hfind)

theorem mem_frontier {y : String} {post : List String} :
    ∀ {pre : List String}, (∀ z ∈ pre, z = emptyMark ∨ t.isHead z = true) →
      y ∈ t.frontier (pre ++ y :: post)
  | [], _ => by simp [Table.frontier]
  | z :: pre, hpre => by
    have hz : (z == emptyMark || t.isHead z) = true := by
      rcases hpre z (by simp) with h | h <;> simp [h]
    simp only [List.cons_append, Table.frontier, hz, if_true, List.mem_cons]
    exact .inr (mem_frontier fun z hz => hpre z (by simp [hz]))

theorem rank_lt_of_leads {rank : String → Nat} (hrank : t.ranksDrop rank = true) {x y : String}
    (h : Leads t a x y) : rank y < rank x := by
  obtain ⟨-, body, pre, post, hfind, rfl, hpre⟩ := h
  obtain ⟨e, he, hkey, hbody⟩ := exists_entry_of_find? hfind
  have hrow := List.all_eq_true.mp hrank e he
  rw [hbody] at hrow
  have := List.all_eq_true.mp hrow y (mem_frontier fun z hz => clears_imp (hpre z hz))
  simpa [hkey] using this

/-- Ranks that drop along every body rule out a symbol leading back to itself. -/
theorem acyclic_of_ranksDrop (rank : String → Nat) (hrank : t.ranksDrop rank = true) :
    ∀ a x, ¬ Relation.TransGen (Leads t a) x x := by
  intro a x hx
  have hdrop : ∀ x y, Relation.TransGen (Leads t a) x y → rank y < rank x := by
    intro x y hxy
    induction hxy with
    | single h => exact rank_lt_of_leads hrank h
    | tail _ h ih => exact (rank_lt_of_leads hrank h).trans ih
  exact lt_irrefl _ (hdrop x x hx)

end Criterion

/-- The default table of sums and products ranks `E` over `T`, `X` and `Y`, and those over the
tokens, so every analysis with it ends. -/
theorem analysis_ends_within_matches_sums :
    (∀ a x, ¬ Relation.TransGen (Leads sumsTable a) x x) ∧
      (∃ o, analyze sumsTable ["int", "mas", "int"] = some o) ∧
      ∀ c m, Reaches sumsTable (["int", "mas", "int"] ++ [endMark]) c m →
        m ≤ (["int", "mas", "int"] ++ [endMark]).idxOf endMark := by
  have hacyclic : ∀ a x, ¬ Relation.TransGen (Leads sumsTable a) x x := acyclic_of_ranksDrop
    (fun s => if s = "E" then 2 else if s = "T" ∨ s = "X" ∨ s = "Y" then 1 else 0) (by decide)
  exact ⟨hacyclic, analysis_ends_within_matches sumsTable ["int", "mas", "int"] hacyclic⟩

/-! ### Without `ε` among the symbols that clear -/

/-- A table whose only body puts `ε` before the symbol it expands. -/
def emptyLoopTable : Table := ⟨[(("E", "a"), ["ε", "E"])]⟩

theorem find?_emptyLoopTable {x a : String} {body : List String}
    (h : emptyLoopTable.find? x a = some body) : x = "E" ∧ body = ["ε", "E"] := by
  obtain ⟨e, he, hkey, rfl⟩ := exists_entry_of_find? h
  simp only [emptyLoopTable, List.mem_singleton] at he
  subst he
  simp only [Prod.mk.injEq] at hkey
  exact ⟨hkey.1.symm, rfl⟩

/-- In that table no symbol vanishes: `E` would need itself first. -/
theorem not_vanishes_emptyLoopTable (x : String) : ¬ Vanishes emptyLoopTable a x := by
  intro h
  induction h with
  | intro hfind _ ih =>
    obtain ⟨-, rfl⟩ := find?_emptyLoopTable hfind
    exact ih "E" (by simp) (by decide)

/-- Past symbols that vanish, `E` only leads to the `ε` that opens its body. -/
theorem leadsPast_emptyLoopTable {x y : String}
    (h : LeadsPast emptyLoopTable a (Vanishes emptyLoopTable a) x y) :
    x = "E" ∧ y = emptyMark := by
  obtain ⟨-, body, pre, post, hfind, hsplit, hpre⟩ := h
  obtain ⟨rfl, rfl⟩ := find?_emptyLoopTable hfind
  cases pre with
  | nil => exact ⟨rfl, (List.cons.inj hsplit).1.symm⟩
  | cons z pre => exact absurd (hpre z (by simp)) (not_vanishes_emptyLoopTable z)

/-- Past symbols that vanish, no lead of that table comes back: every lead starts at `E` and
ends at `ε`. -/
theorem not_leadsPast_cycle_emptyLoopTable (a x : String) :
    ¬ Relation.TransGen (LeadsPast emptyLoopTable a (Vanishes emptyLoopTable a)) x x := by
  intro hx
  have hfirst : ∀ x y, Relation.TransGen (LeadsPast emptyLoopTable a
      (Vanishes emptyLoopTable a)) x y → x = "E" := by
    intro x y hxy
    induction hxy with
    | single h => exact (leadsPast_emptyLoopTable h).1
    | tail _ _ ih => exact ih
  have hlast : ∀ x y, Relation.TransGen (LeadsPast emptyLoopTable a
      (Vanishes emptyLoopTable a)) x y → y = emptyMark := by
    intro x y hxy
    cases hxy with
    | single h => exact (leadsPast_emptyLoopTable h).2
    | tail _ h => exact (leadsPast_emptyLoopTable h).2
  have := (hfirst x x hx).symm.trans (hlast x x hx)
  exact absurd this (by decide)

/-- On `a`, that table keeps the stack `E $`: the analysis expands `E` to `E` at every step and
runs out of any fuel. -/
theorem loop_emptyLoopTable (fuel : Nat) (c : Config) (hs : c.stack = ["E", endMark])
    (hc : c.current = "a") : loop emptyLoopTable ["a", endMark] fuel c = none := by
  induction fuel generalizing c with
  | zero => rfl
  | succ fuel ih =>
    rw [loop_step _ _ fuel c "E" [endMark] hs (by decide),
      advance_of_find? (by rw [hc]; decide) (by rw [hc]; rfl)]
    exact ih _ (by simp only [expand]; decide) hc

/-- **Without `ε` among the symbols that clear, the analysis may not end.** Read the leads past
symbols that vanish only, and the table of the single cell `ε E` for `E` at `a` has no cycle: `E`
only leads to `ε`, which heads no row. Yet the analysis of `a` expands `E` to itself for ever, at
every fuel. -/
theorem analysis_loops_past_empty_mark :
    (Table.ofCsv ";a;$\nE;ε E;\n").toOption = some emptyLoopTable ∧
      (∀ a x, ¬ Relation.TransGen (LeadsPast emptyLoopTable a (Vanishes emptyLoopTable a)) x x) ∧
      ∀ fuel, loop emptyLoopTable ["a", endMark] fuel (start ["a", endMark]) = none :=
  ⟨by decide +kernel, not_leadsPast_cycle_emptyLoopTable,
    fun fuel => loop_emptyLoopTable fuel _ rfl rfl⟩

end Frontend.Predictive
