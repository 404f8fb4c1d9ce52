import Frontend.Proofs.Grammar.Exploration

/-! ACTION rows: shifts from the transitions, then reductions and acceptance from complete items.

A state's items are read in the order its reading order gives, and each complete one writes the
cells of its head's FOLLOW terminals, or the end marker's cell for the start symbol. The rows are
read one key at a time: `lookup_stateRows` says that the cell of `t` is what `cellStep` makes of
the transition's cell, item after item. Away from the end marker acceptance never writes, a
reduction never replaces a shift (`foldl_cellStep_shift`), and of the reductions the last one read
wins (`foldl_cellStep_of_not_shift`); at the end marker acceptance wins when nothing reduces there
(`foldl_cellStep_of_no_reduction`).

**`action_cell_policy`**: for every nonempty grammar and every reading order, on a terminal other
than the end marker a state's ACTION cell shifts to the state of its goto when that goto is not
empty; otherwise it reduces by the production of some complete item of another head than the start
symbol whose FOLLOW set holds the terminal, when the state has one; otherwise it is empty. -/
namespace Frontend.Grammar

/-! ### Folds seen through a view -/

/-- A fold seen through a view: when each step keeps an invariant and acts on the view as another
step does, the view of the fold is the other step's fold from the view. -/
theorem foldl_view {α β γ : Type} (f : β → α → β) (f' : γ → α → γ) (view : β → γ)
    (inv : β → Prop) (hstep : ∀ b a, inv b → inv (f b a) ∧ view (f b a) = f' (view b) a)
    (l : List α) (b : β) (hb : inv b) :
    inv (l.foldl f b) ∧ view (l.foldl f b) = l.foldl f' (view b) := by
  induction l generalizing b with
  | nil => exact ⟨hb, rfl⟩
  | cons a l ih =>
    obtain ⟨hinv, hview⟩ := hstep b a hb
    rw [List.foldl_cons, List.foldl_cons, ← hview]
    exact ih _ hinv

/-! ### One cell, item after item -/

/-- A reduction by production `n` written in a cell: a shift stays, anything else is replaced. -/
def reduceUnlessShift (n : Nat) : Option SlrAction → Option SlrAction
  | some (.shift j) => some (.shift j)
  | _ => some (.reduce n)

theorem reduceUnlessShift_idem (n : Nat) (c : Option SlrAction) :
    reduceUnlessShift n (reduceUnlessShift n c) = reduceUnlessShift n c := by
  rcases c with _ | ⟨j | m | _⟩ <;> rfl

theorem reduceUnlessShift_of_not_shift {n : Nat} {c : Option SlrAction}
    (hc : ∀ j, c ≠ some (.shift j)) : reduceUnlessShift n c = some (.reduce n) := by
  rcases c with _ | ⟨j | m | _⟩
  · rfl
  · exact absurd rfl (hc j)
  · rfl
  · rfl

/-- A reduction's turn on the terminal `u`, seen on the cell of `t`: the cell of `u` takes the
reduction unless it shifts. -/
theorem lookup_reduceTurn (n : Nat) (row : List (String × SlrAction))
    (hrow : (row.map Prod.fst).Nodup) (u t : String) :
    ((if SlrTable.shifts row u then row else setEntry row u (.reduce n)).map Prod.fst).Nodup ∧
      (if SlrTable.shifts row u then row else setEntry row u (.reduce n)).lookup t =
        if t = u then reduceUnlessShift n (row.lookup t) else row.lookup t := by
  split
  · rename_i hs
    refine ⟨hrow, ?_⟩
    split
    · rename_i htu
      subst htu
      obtain ⟨j, hj⟩ := (SlrTable.shifts_iff_lookup hrow).mp hs
      rw [hj]
      rfl
    · rfl
  · rename_i hs
    refine ⟨nodup_keys_setEntry hrow, ?_⟩
    rw [lookup_setEntry]
    split
    · rename_i htu
      subst htu
      refine (reduceUnlessShift_of_not_shift fun j hj => hs ?_).symm
      exact (SlrTable.shifts_iff_lookup hrow).mpr ⟨j, hj⟩
    · rfl

/-- The pass of a reduction over its head's FOLLOW terminals, seen on the cell of `t`: the cell
takes the reduction, unless it shifts, when `t` is among the terminals. -/
theorem lookup_foldl_reduce (n : Nat) (ts : List String) (row : List (String × SlrAction))
    (hrow : (row.map Prod.fst).Nodup) (t : String) :
    ((ts.foldl (fun row u => if SlrTable.shifts row u then row else setEntry row u (.reduce n))
        row).map Prod.fst).Nodup ∧
      (ts.foldl (fun row u => if SlrTable.shifts row u then row else setEntry row u (.reduce n))
        row).lookup t = if t ∈ ts then reduceUnlessShift n (row.lookup t) else row.lookup t := by
  induction ts generalizing row with
  | nil => simp [hrow]
  | cons u ts ih =>
    obtain ⟨hnd, hlook⟩ := lookup_reduceTurn n row hrow u t
    obtain ⟨hnd', hlook'⟩ := ih _ hnd
    rw [List.foldl_cons]
    refine ⟨hnd', ?_⟩
    rw [hlook', hlook]
    -- a second turn on the same cell changes nothing more
    by_cases htu : t = u
    · subst htu
      simp [reduceUnlessShift_idem]
    · simp [htu]

variable (g : Grammar) (start : String)

/-- What one item writes in the ACTION cell of `t`: a complete item of the start symbol accepts at
the end marker, over anything; a complete item of another head reduces by its production when `t`
is in its head's FOLLOW set, unless the cell shifts. -/
def cellStep (follow : SetTable) (t : String) (cell : Option SlrAction) (it : Item) :
    Option SlrAction :=
  match g.production? it.rule with
  | some p =>
    if g.isComplete it then
      if p.head == start then (if t = endMarker then some .accept else cell)
      else if t ∈ follow.get p.head then reduceUnlessShift (g.lastCopy it.rule) cell
      else cell
    else cell
  | none => cell

/-- The items' pass consults the FOLLOW table without changing any set. -/
theorem get_stateRows_follow (terms : List String) (state : List Item)
    (edges : List (String × Nat)) (fol : SetTable) (k : String) :
    (g.stateRows start terms state edges fol).2.2.get k = fol.get k := by
  unfold stateRows
  refine List.foldlRecOn (motive := fun acc : List (String × SlrAction) × SetTable =>
    acc.2.get k = fol.get k) state _ rfl ?_
  intro acc hacc it _
  dsimp only
  split
  · split
    · split
      · exact hacc
      · rw [SetTable.get_touch]
        exact hacc
    · exact hacc
  · exact hacc

/-- **A state's ACTION cell of `t`** is what its items, read in order, make of the cell its
transitions left; and the row keeps one cell per key. -/
theorem lookup_stateRows (terms : List String) (state : List Item) (edges : List (String × Nat))
    (fol : SetTable) (h : ((SlrTable.transitionRows terms edges).1.map Prod.fst).Nodup)
    (t : String) :
    (g.stateRows start terms state edges fol).1.lookup t =
      state.foldl (g.cellStep start fol t) ((SlrTable.transitionRows terms edges).1.lookup t) := by
  unfold stateRows
  dsimp only
  refine (foldl_view _ (g.cellStep start fol t)
    (fun acc : List (String × SlrAction) × SetTable => acc.1.lookup t)
    (fun acc : List (String × SlrAction) × SetTable => (acc.1.map Prod.fst).Nodup ∧ ∀ k, acc.2.get k = fol.get k) ?_ state _
    ⟨h, fun _ => rfl⟩).2
  rintro ⟨row, follow⟩ it ⟨hnd, hget⟩
  unfold cellStep
  dsimp only
  cases hp : g.production? it.rule with
  | none => exact ⟨⟨hnd, hget⟩, rfl⟩
  | some p =>
    dsimp only
    by_cases hc : g.isComplete it = true
    · rw [if_pos hc, if_pos hc]
      by_cases hs : (p.head == start) = true
      · -- acceptance writes the end marker's cell, over anything
        rw [if_pos hs, if_pos hs]
        exact ⟨⟨nodup_keys_setEntry hnd, hget⟩, lookup_setEntry⟩
      · rw [if_neg hs, if_neg hs]
        have hred := lookup_foldl_reduce (g.lastCopy it.rule) ((follow.touch p.head).get p.head)
          row hnd t
        refine ⟨⟨hred.1, fun k => by rw [SetTable.get_touch, hget]⟩, ?_⟩
        dsimp only
        rw [hred.2, SetTable.get_touch, hget]
    · rw [if_neg hc, if_neg hc]
      exact ⟨⟨hnd, hget⟩, rfl⟩

/-- Row `i` of a table built in a reading order holds the rows of state `i`, its items read in
that order, with a FOLLOW table whose sets are those the construction was given. -/
theorem slrTableIn_row (o : ReadingOrder) (a : Automaton) (follow : SetTable) {i : Nat}
    (hi : i < a.states.size) :
    ∃ fol, (∀ k, fol.get k = follow.get k) ∧
      (g.slrTableIn start o a follow).1.actions.getD i [] = (g.stateRows start g.terminals
        (o.items i (a.states.getD i [])) (a.edges.getD i []) fol).1 ∧
      (g.slrTableIn start o a follow).1.gotos.getD i [] = (g.stateRows start g.terminals
        (o.items i (a.states.getD i [])) (a.edges.getD i []) fol).2.1 := by
  rw [slrTableIn_eq_foldl]
  obtain ⟨-, -, -, hrows⟩ := g.fold_tableStep_rows start o a follow
    (fun fol => ∀ k, fol.get k = follow.get k) (fun _ => rfl)
    (fun i fol hfol k => by rw [get_stateRows_follow, hfol]) a.states.size
  exact hrows i hi

theorem cellStep_congr {fol fol' : SetTable} (h : ∀ k, fol.get k = fol'.get k) (t : String) :
    g.cellStep start fol t = g.cellStep start fol' t := by
  funext cell it
  simp only [cellStep, h]

/-- **The ACTION cell of `t` in row `i`** of a table built over the explored automaton: the
state's items, read in order, applied to the cell its transitions leave. -/
theorem lookup_actions_slrTableIn (hg : g.productions ≠ []) (o : ReadingOrder)
    (follow : SetTable) {i : Nat} (hi : i < (g.automatonIn o).states.size) (t : String) :
    ((g.slrTableIn start o (g.automatonIn o) follow).1.actions.getD i []).lookup t =
      (o.items i ((g.automatonIn o).states.getD i [])).foldl (g.cellStep start follow t)
        ((g.transitionRowsAt (g.automatonIn o) i).1.lookup t) := by
  have hi' : i < (g.automatonIn o).edges.size := (g.automatonIn_explored hg o) ▸ hi
  obtain ⟨fol, hfol, hrow, -⟩ := g.slrTableIn_row start o (g.automatonIn o) follow hi
  rw [hrow, g.lookup_stateRows start g.terminals _ _ fol
    (((keys_transitionRows_perm _ _).nodup_iff.mpr
      ((g.automatonIn_inv o).nodup_keys hi')).of_append_left) t, g.cellStep_congr start hfol]
  rfl

/-! ### What the items make of a cell -/

/-- An item that reduces on `t`: a complete item of a production of another head than the start
symbol, with `t` in its head's FOLLOW set. -/
def ReducesOn (follow : SetTable) (t : String) (it : Item) : Prop :=
  ∃ p, g.production? it.rule = some p ∧ it.dot = p.body.length ∧ p.head ≠ start ∧
    t ∈ follow.get p.head

/-- An item that accepts on `t`: `t` is the end marker, and the item is a complete item of a
production of the start symbol. -/
def AcceptsOn (t : String) (it : Item) : Prop :=
  t = endMarker ∧ ∃ p, g.production? it.rule = some p ∧ it.dot = p.body.length ∧ p.head = start

variable {g start}

theorem cellStep_of_acceptsOn {fol : SetTable} {t : String} {it : Item}
    (h : g.AcceptsOn start t it) (cell : Option SlrAction) :
    g.cellStep start fol t cell it = some .accept := by
  obtain ⟨rfl, p, hp, hdot, hhead⟩ := h
  have hc : g.isComplete it = true := by
    simp [isComplete, hp, hdot]
  simp [cellStep, hp, hc, hhead]

theorem cellStep_of_reducesOn {fol : SetTable} {t : String} {it : Item}
    (h : g.ReducesOn start fol t it) (cell : Option SlrAction) :
    g.cellStep start fol t cell it = reduceUnlessShift (g.lastCopy it.rule) cell := by
  obtain ⟨p, hp, hdot, hhead, hmem⟩ := h
  have hc : g.isComplete it = true := by
    simp [isComplete, hp, hdot]
  simp [cellStep, hp, hc, hhead, hmem]

/-- An item of the grammar that neither accepts nor reduces on `t` leaves its cell. -/
theorem cellStep_of_not_reducesOn {fol : SetTable} {t : String} {it : Item}
    (hacc : ¬ g.AcceptsOn start t it) (hv : g.ValidItem it) (h : ¬ g.ReducesOn start fol t it)
    (cell : Option SlrAction) :
    g.cellStep start fol t cell it = cell := by
  obtain ⟨p, hp, hle⟩ := hv
  unfold cellStep
  rw [hp]
  dsimp only
  split
  · rename_i hc
    have hdot : it.dot = p.body.length := by
      simp only [isComplete, hp, decide_eq_true_eq] at hc
      omega
    split
    · rename_i hs
      rw [if_neg]
      exact fun ht => hacc ⟨ht, p, hp, hdot, beq_iff_eq.mp hs⟩
    · rename_i hs
      rw [if_neg]
      exact fun hmem => h ⟨p, hp, hdot, fun he => hs (beq_iff_eq.mpr he), hmem⟩
  · rfl

variable (g start)

/-- When no item accepts on `t`, a shift stays, whatever the items write. -/
theorem foldl_cellStep_shift {fol : SetTable} {t : String} (items : List Item)
    (hacc : ∀ it ∈ items, ¬ g.AcceptsOn start t it) (hv : ∀ it ∈ items, g.ValidItem it) (j : Nat) :
    items.foldl (g.cellStep start fol t) (some (.shift j)) = some (.shift j) := by
  induction items with
  | nil => rfl
  | cons it items ih =>
    have hkeep : g.cellStep start fol t (some (.shift j)) it = some (.shift j) := by
      by_cases hred : g.ReducesOn start fol t it
      · rw [cellStep_of_reducesOn hred]
        rfl
      · exact cellStep_of_not_reducesOn (hacc it List.mem_cons_self) (hv it List.mem_cons_self)
          hred _
    rw [List.foldl_cons, hkeep]
    exact ih (fun it' h' => hacc it' (List.mem_cons_of_mem _ h'))
      (fun it' h' => hv it' (List.mem_cons_of_mem _ h'))

/-- When no item accepts on `t`, on a cell that does not shift, the last item that reduces on `t`
writes the cell; when no item does, the cell stays. -/
theorem foldl_cellStep_of_not_shift {fol : SetTable} {t : String} (items : List Item)
    (hacc : ∀ it ∈ items, ¬ g.AcceptsOn start t it) (hv : ∀ it ∈ items, g.ValidItem it)
    (cell : Option SlrAction)
    (hcell : ∀ j, cell ≠ some (.shift j)) :
    ((∃ it ∈ items, g.ReducesOn start fol t it) → ∃ it ∈ items, g.ReducesOn start fol t it ∧
        items.foldl (g.cellStep start fol t) cell = some (.reduce (g.lastCopy it.rule))) ∧
      ((¬ ∃ it ∈ items, g.ReducesOn start fol t it) →
        items.foldl (g.cellStep start fol t) cell = cell) := by
  induction items generalizing cell with
  | nil => simp
  | cons it items ih =>
    have hv' : ∀ it ∈ items, g.ValidItem it := fun it' h' => hv it' (List.mem_cons_of_mem _ h')
    have hacc' : ∀ it ∈ items, ¬ g.AcceptsOn start t it :=
      fun it' h' => hacc it' (List.mem_cons_of_mem _ h')
    rw [List.foldl_cons]
    by_cases hred : g.ReducesOn start fol t it
    · -- this item writes its reduction; a later one may overwrite it
      rw [cellStep_of_reducesOn hred, reduceUnlessShift_of_not_shift hcell]
      obtain ⟨hsome, hnone⟩ := ih hacc' hv' (some (.reduce (g.lastCopy it.rule))) (by simp)
      refine ⟨fun _ => ?_, fun hno => absurd ⟨it, List.mem_cons_self, hred⟩ hno⟩
      by_cases hlater : ∃ it' ∈ items, g.ReducesOn start fol t it'
      · obtain ⟨it', hmem, hred', heq⟩ := hsome hlater
        exact ⟨it', List.mem_cons_of_mem _ hmem, hred', heq⟩
      · exact ⟨it, List.mem_cons_self, hred, hnone hlater⟩
    · rw [cellStep_of_not_reducesOn (hacc it List.mem_cons_self) (hv it List.mem_cons_self) hred]
      obtain ⟨hsome, hnone⟩ := ih hacc' hv' cell hcell
      refine ⟨fun hex => ?_, fun hno => hnone fun hex => hno ?_⟩
      · obtain ⟨it', hmem, hred'⟩ := hex
        rcases List.mem_cons.mp hmem with rfl | hmem
        · exact absurd hred' hred
        · obtain ⟨it'', hmem'', hred'', heq⟩ := hsome ⟨it', hmem, hred'⟩
          exact ⟨it'', List.mem_cons_of_mem _ hmem'', hred'', heq⟩
      · obtain ⟨it', hmem, hred'⟩ := hex
        exact ⟨it', List.mem_cons_of_mem _ hmem, hred'⟩

/-- When no item reduces on `t`, the cell holds acceptance if some item accepts on `t`, and stays
otherwise. -/
theorem foldl_cellStep_of_no_reduction {fol : SetTable} {t : String} (items : List Item)
    (hred : ∀ it ∈ items, ¬ g.ReducesOn start fol t it) (hv : ∀ it ∈ items, g.ValidItem it)
    (cell : Option SlrAction) :
    ((∃ it ∈ items, g.AcceptsOn start t it) →
        items.foldl (g.cellStep start fol t) cell = some .accept) ∧
      ((¬ ∃ it ∈ items, g.AcceptsOn start t it) →
        items.foldl (g.cellStep start fol t) cell = cell) := by
  induction items generalizing cell with
  | nil => simp
  | cons it items ih =>
    have hred' : ∀ it ∈ items, ¬ g.ReducesOn start fol t it :=
      fun it' h' => hred it' (List.mem_cons_of_mem _ h')
    have hv' : ∀ it ∈ items, g.ValidItem it := fun it' h' => hv it' (List.mem_cons_of_mem _ h')
    rw [List.foldl_cons]
    by_cases hacc : g.AcceptsOn start t it
    · -- acceptance is written, and every later item accepts again or leaves it
      rw [cellStep_of_acceptsOn hacc]
      obtain ⟨hsome, hnone⟩ := ih hred' hv' (some .accept)
      refine ⟨fun _ => ?_, fun hno => absurd ⟨it, List.mem_cons_self, hacc⟩ hno⟩
      by_cases hlater : ∃ it' ∈ items, g.AcceptsOn start t it'
      · exact hsome hlater
      · exact hnone hlater
    · rw [cellStep_of_not_reducesOn hacc (hv it List.mem_cons_self) (hred it List.mem_cons_self)]
      obtain ⟨hsome, hnone⟩ := ih hred' hv' cell
      refine ⟨fun hex => hsome ?_, fun hno => hnone fun hex => hno ?_⟩
      · obtain ⟨it', hmem, hacc'⟩ := hex
        rcases List.mem_cons.mp hmem with rfl | hmem
        · exact absurd hacc' hacc
        · exact ⟨it', hmem, hacc'⟩
      · obtain ⟨it', hmem, hacc'⟩ := hex
        exact ⟨it', List.mem_cons_of_mem _ hmem, hacc'⟩

/-! ### The policy -/

/-- The ACTION policy of an SLR(1) table over an automaton: on each terminal other than the end
marker, a state's cell shifts to the state of its goto when that goto is not empty; otherwise it
reduces by the production of some complete item of another head than the start symbol with the
terminal in that head's FOLLOW set, when the state has one; otherwise it is empty. -/
def FollowsActionPolicy (follow : SetTable) (a : Automaton) (table : SlrTable) : Prop :=
  ∀ i < a.states.size, ∀ t ∈ g.terminals, t ≠ endMarker →
    (g.goto (a.states.getD i []) t ≠ [] → ∃ j, a.states[j]? = some (g.goto (a.states.getD i []) t) ∧
      (table.actions.getD i []).lookup t = some (.shift j)) ∧
    (g.goto (a.states.getD i []) t = [] →
      (∃ it ∈ a.states.getD i [], g.ReducesOn start follow t it) →
      ∃ it ∈ a.states.getD i [], ∃ p k, g.ReducesOn start follow t it ∧
        g.production? it.rule = some p ∧ g.production? k = some p ∧
        (table.actions.getD i []).lookup t = some (.reduce k)) ∧
    (g.goto (a.states.getD i []) t = [] →
      (¬ ∃ it ∈ a.states.getD i [], g.ReducesOn start follow t it) →
      (table.actions.getD i []).lookup t = none)

/-- The cell a state's transitions leave for a terminal: a shift to the state of its goto, or
nothing when the goto is empty. -/
theorem lookup_transitionRowsAt {o : ReadingOrder} {a : Automaton} (h : g.ExploreInv o a)
    {i : Nat} (hi : i < a.edges.size) {t : String} (ht : t ∈ g.terminals) :
    (g.goto (a.states.getD i []) t ≠ [] → ∃ j, a.states[j]? = some (g.goto (a.states.getD i []) t) ∧
      (g.transitionRowsAt a i).1.lookup t = some (.shift j)) ∧
    (g.goto (a.states.getD i []) t = [] → (g.transitionRowsAt a i).1.lookup t = none) := by
  have hsym : g.isSymbol t = true := by simp [isSymbol, ht]
  refine ⟨fun hne => ?_, fun hnil => ?_⟩
  · obtain ⟨j, he, hj⟩ := h.transition hi hsym hne
    refine ⟨j, hj, ?_⟩
    rw [transitionRowsAt, lookup_transitionRows_fst, if_pos ht,
      (mem_iff_lookup (h.nodup_keys hi)).mp he]
    rfl
  · have hnone : (a.edges.getD i []).lookup t = none := by
      cases hl : (a.edges.getD i []).lookup t with
      | none => rfl
      | some j =>
        obtain ⟨-, hne, -⟩ := h.of_mem_edges hi ((mem_iff_lookup (h.nodup_keys hi)).mpr hl)
        exact absurd hnil hne
    rw [transitionRowsAt, lookup_transitionRows_fst, if_pos ht, hnone]
    rfl

/-- **The ACTION cell policy.** For every nonempty grammar and every order of reading symbols
and items, the table built over the LR(0) automaton with the grammar's FOLLOW sets follows the
ACTION policy: away from the end marker a reduction never replaces a shift, and a cell without a
shift holds a reduction exactly when some complete item calls for one. -/
theorem action_cell_policy (hs : g.start? = some start) (o : ReadingOrder) :
    g.FollowsActionPolicy start (g.followSets start g.firstSets).2 (g.automatonIn o)
      (g.slrTableIn start o (g.automatonIn o) (g.followSets start g.firstSets).2).1 := by
  have hg : g.productions ≠ [] := by
    intro h
    simp [start?, h] at hs
  have h := g.automatonIn_inv o
  have hexp := g.automatonIn_explored hg o
  intro i hi t ht hend
  have hi' : i < (g.automatonIn o).edges.size := hexp ▸ hi
  -- the cell is the transitions' cell, then the state's items one after the other
  have hcell := g.lookup_actions_slrTableIn start hg o (g.followSets start g.firstSets).2 hi t
  have hreach : g.Reachable ((g.automatonIn o).states.getD i []) :=
    h.reachable _ (Array.mem_of_getElem? (by rw [Array.getD_eq_getD_getElem?,
      Array.getElem?_eq_getElem hi, Option.getD_some]))
  have hperm := o.items_perm i ((g.automatonIn o).states.getD i [])
  have hvalid : ∀ it ∈ o.items i ((g.automatonIn o).states.getD i []), g.ValidItem it :=
    fun it hit => hreach.valid hg it (hperm.mem_iff.mp hit)
  -- away from the end marker no item accepts
  have hnoacc : ∀ it ∈ o.items i ((g.automatonIn o).states.getD i []), ¬ g.AcceptsOn start t it :=
    fun _ _ hacc => hend hacc.1
  obtain ⟨hshift, hempty⟩ := g.lookup_transitionRowsAt h hi' ht
  refine ⟨fun hne => ?_, fun hnil hex => ?_, fun hnil hno => ?_⟩
  · obtain ⟨j, hj, hlook⟩ := hshift hne
    refine ⟨j, hj, ?_⟩
    rw [hcell, hlook, g.foldl_cellStep_shift start _ hnoacc hvalid]
  · obtain ⟨hsome, -⟩ := g.foldl_cellStep_of_not_shift start _ hnoacc hvalid
      ((g.transitionRowsAt (g.automatonIn o) i).1.lookup t) (by rw [hempty hnil]; simp)
    obtain ⟨it, hmem, hred, hlook⟩ := hsome (by
      obtain ⟨it, hmem, hred⟩ := hex
      exact ⟨it, hperm.mem_iff.mpr hmem, hred⟩)
    obtain ⟨p, hp, -⟩ := id hred
    exact ⟨it, hperm.mem_iff.mp hmem, p, g.lastCopy it.rule, hred, hp,
      by rw [production?_lastCopy, hp], by rw [hcell, hlook]⟩
  · obtain ⟨-, hnone⟩ := g.foldl_cellStep_of_not_shift start _ hnoacc hvalid
      ((g.transitionRowsAt (g.automatonIn o) i).1.lookup t) (by rw [hempty hnil]; simp)
    have hnot : ¬ ∃ it ∈ o.items i ((g.automatonIn o).states.getD i []),
        g.ReducesOn start (g.followSets start g.firstSets).2 t it := by
      rintro ⟨it, hmem, hred⟩
      exact hno ⟨it, hperm.mem_iff.mp hmem, hred⟩
    rw [hcell, hnone hnot, hempty hnil]

/-- The policy on the augmented grammar `S' → S`, `S → a`, read in sorted order. -/
theorem action_cell_policy_augmented :
    augmentedExample.start? = some "S'" ∧
      augmentedExample.FollowsActionPolicy "S'"
        (augmentedExample.followSets "S'" augmentedExample.firstSets).2
        (augmentedExample.automatonIn .sorted)
        (augmentedExample.slrTableIn "S'" .sorted (augmentedExample.automatonIn .sorted)
          (augmentedExample.followSets "S'" augmentedExample.firstSets).2).1 :=
  ⟨rfl, action_cell_policy _ _ rfl _⟩

end Frontend.Grammar
