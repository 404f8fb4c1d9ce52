import Frontend.Proofs.Grammar.Reductions
import Frontend.Grammar.SlrText

/-! Reading orders: two runs of the SLR(1) construction that read symbols and items in different
orders build the same tables, up to the numbering of the states.

Whatever the order, the exploration lists exactly the reachable states, each once
(`mem_automatonIn_iff`), so two runs list the same states in two orders (`states_perm`), and
`stateOrder` says where each state of the second run stands in the first. A state's transitions
go to the states of its gotos in either run, so they agree once the targets are renumbered
(`lookup_edges_renumbered`). A state's ACTION cells do not depend on the order its items are read
in when the state reads alike (`ReadsAlike`): two complete items that both reduce on a symbol the
state does not shift on reduce by the same production, and no complete item of the start symbol
stands beside one that reduces on the end marker (`foldl_cellStep_retarget`).

**`reading_orders_agree_up_to_renumbering`**: when every reachable state reads alike, any two
reading orders give the same states, ACTION and GOTO tables up to a renumbering of the states that
keeps state 0, and comma-separated files that differ by that renumbering only. -/
namespace Frontend

theorem lookup_map_snd {α β : Type} (row : List (String × α)) (f : α → β) (t : String) :
    (row.map fun e => (e.1, f e.2)).lookup t = (row.lookup t).map f := by
  induction row with
  | nil => rfl
  | cons e row ih =>
    obtain ⟨k, v⟩ := e
    simp only [List.map_cons]
    by_cases htk : t = k
    · subst htk
      simp
    · rw [lookup_cons_of_ne htk, lookup_cons_of_ne htk, ih]

theorem lookup_getD_of_size_le {α : Type} {rows : Array (List (String × α))} {j : Nat}
    (h : rows.size ≤ j) (x : String) : (rows.getD j []).lookup x = none := by
  rw [Array.getD_eq_getD_getElem?, Array.getElem?_eq_none h]
  rfl

theorem eq_of_getElem?_eq {α : Type} {l : List α} (hnd : l.Nodup) {i j : Nat} {x : α}
    (hi : l[i]? = some x) (hj : l[j]? = some x) : i = j := by
  obtain ⟨hi', rfl⟩ := List.getElem?_eq_some_iff.mp hi
  obtain ⟨hj', hx⟩ := List.getElem?_eq_some_iff.mp hj
  exact (hnd.getElem_inj_iff).mp hx.symm

namespace SlrTable

@[simp] theorem retarget_shift (f : Nat → Nat) (j : Nat) :
    retarget f (.shift j) = .shift (f j) := rfl

@[simp] theorem retarget_reduce (f : Nat → Nat) (n : Nat) :
    retarget f (.reduce n) = .reduce n := rfl

@[simp] theorem retarget_accept (f : Nat → Nat) : retarget f .accept = .accept := rfl

theorem size_renumberBy (t : SlrTable) (order : Array Nat) :
    (t.renumberBy order).actions.size = order.size ∧ (t.renumberBy order).gotos.size = order.size :=
  ⟨Array.size_map .., Array.size_map ..⟩

/-- Row `j` of a renumbered table is the row of the state at position `j`, targets renumbered. -/
theorem lookup_actions_renumberBy (t : SlrTable) {order : Array Nat} {j s : Nat}
    (h : order[j]? = some s) (x : String) :
    ((t.renumberBy order).actions.getD j []).lookup x =
      ((t.actions.getD s []).lookup x).map (retarget (numberIn order)) := by
  rw [renumberBy, Array.getD_eq_getD_getElem?, Array.getElem?_map, h, Option.map_some,
    Option.getD_some, lookup_map_snd]

theorem lookup_gotos_renumberBy (t : SlrTable) {order : Array Nat} {j s : Nat}
    (h : order[j]? = some s) (x : String) :
    ((t.renumberBy order).gotos.getD j []).lookup x =
      ((t.gotos.getD s []).lookup x).map (numberIn order) := by
  rw [renumberBy, Array.getD_eq_getD_getElem?, Array.getElem?_map, h, Option.map_some,
    Option.getD_some, lookup_map_snd]

/-- In an order that lists each state once, the state at position `j` gets number `j`. -/
theorem numberIn_of_getElem? {order : Array Nat} (hnd : order.toList.Nodup) {j s : Nat}
    (h : order[j]? = some s) : numberIn order s = j := by
  obtain ⟨hj, hs⟩ := Array.getElem?_eq_some_iff.mp h
  have hfind : order.findIdx? (· == s) = some j := by
    refine Array.findIdx?_eq_some_iff_getElem.mpr ⟨hj, by simp [hs], fun k hk hks => ?_⟩
    -- an earlier position holding `s` would list it twice
    have hk' : order.toList[k]? = some s := by
      rw [Array.getElem?_toList, Array.getElem?_eq_getElem (by omega), beq_iff_eq.mp hks]
    have hj' : order.toList[j]? = some s := by
      rw [Array.getElem?_toList]
      exact h
    have := eq_of_getElem?_eq hnd hk' hj'
    omega
  rw [numberIn, hfind, Option.getD_some]

end SlrTable

/-- The reading order that takes symbols and items backwards. -/
def ReadingOrder.reversed : ReadingOrder :=
  ⟨fun _ xs => xs.reverse, fun _ xs => xs.reverse, fun _ xs => List.reverse_perm xs,
    fun _ xs => List.reverse_perm xs⟩

namespace Grammar

variable {g : Grammar}

/-! ### The same states, in two orders -/

theorem mem_automatonIn_iff (hg : g.productions ≠ []) (o : ReadingOrder) {s : List Item} :
    s ∈ (g.automatonIn o).states ↔ g.Reachable s :=
  ⟨(g.automatonIn_inv o).reachable s, mem_automatonIn hg o⟩

/-- Two orders of reading list the same states. -/
theorem states_perm (hg : g.productions ≠ []) (o₁ o₂ : ReadingOrder) :
    (g.automatonIn o₁).states.toList.Perm (g.automatonIn o₂).states.toList := by
  refine (List.perm_ext_iff_of_nodup (g.automatonIn_inv o₁).nodup
    (g.automatonIn_inv o₂).nodup).mpr fun s => ?_
  rw [← Array.mem_def, ← Array.mem_def, mem_automatonIn_iff hg, mem_automatonIn_iff hg]

/-- Where each state of the second automaton stands in the first. -/
def stateOrder (a₁ a₂ : Automaton) : Array Nat := a₂.states.map fun s => a₁.states.toList.idxOf s

section StateOrder

variable {a₁ a₂ : Automaton} (hperm : a₁.states.toList.Perm a₂.states.toList)
  (hnd₁ : a₁.states.toList.Nodup)

include hperm in
theorem getElem?_stateOrder {j : Nat} {s : List Item} (hj : a₂.states[j]? = some s) :
    ∃ i, (stateOrder a₁ a₂)[j]? = some i ∧ a₁.states[i]? = some s := by
  have hmem : s ∈ a₁.states.toList :=
    hperm.mem_iff.mpr (Array.mem_def.mp (Array.mem_of_getElem? hj))
  refine ⟨a₁.states.toList.idxOf s, by simp [stateOrder, hj], ?_⟩
  rw [← Array.getElem?_toList]
  exact List.getElem?_idxOf hmem

include hperm hnd₁ in
/-- The positions of the second automaton's states in the first are those of the first, each once. -/
theorem stateOrder_perm : (stateOrder a₁ a₂).toList.Perm (List.range a₁.states.size) := by
  have hrange : a₁.states.toList.map (fun s => a₁.states.toList.idxOf s) =
      List.range a₁.states.size := by
    apply List.ext_getElem
    · simp
    · intro n h₁ h₂
      rw [List.getElem_map, List.getElem_range]
      exact hnd₁.idxOf_getElem n (by simpa using h₂)
  rw [stateOrder, Array.toList_map, ← hrange]
  exact (hperm.map _).symm

include hperm hnd₁ in
theorem nodup_stateOrder : (stateOrder a₁ a₂).toList.Nodup :=
  (stateOrder_perm hperm hnd₁).nodup_iff.mpr List.nodup_range

include hperm hnd₁ in
/-- A state at position `i` of the first automaton and `k` of the second gets number `k`. -/
theorem numberIn_stateOrder {i k : Nat} {s : List Item} (hi : a₁.states[i]? = some s)
    (hk : a₂.states[k]? = some s) : SlrTable.numberIn (stateOrder a₁ a₂) i = k := by
  obtain ⟨i', hi', hs⟩ := getElem?_stateOrder hperm hk
  have : i' = i := by
    rw [← Array.getElem?_toList] at hi hs
    exact eq_of_getElem?_eq hnd₁ hs hi
  subst this
  exact SlrTable.numberIn_of_getElem? (nodup_stateOrder hperm hnd₁) hi'

end StateOrder

/-! ### Transitions, renumbered -/

/-- In an explored automaton a state's transition on `x` goes to the state of its goto when `x` is
a symbol and that goto is not empty; otherwise there is none. -/
theorem ExploreInv.lookup_edges {o : ReadingOrder} {a : Automaton} (h : g.ExploreInv o a) {i : Nat}
    (hi : i < a.edges.size) (x : String) :
    (g.isSymbol x = true ∧ g.goto (a.states.getD i []) x ≠ [] →
      ∃ j, (a.edges.getD i []).lookup x = some j ∧
        a.states[j]? = some (g.goto (a.states.getD i []) x)) ∧
    (¬ (g.isSymbol x = true ∧ g.goto (a.states.getD i []) x ≠ []) →
      (a.edges.getD i []).lookup x = none) := by
  refine ⟨fun hsym => ?_, fun hno => ?_⟩
  · obtain ⟨j, he, hj⟩ := h.transition hi hsym.1 hsym.2
    exact ⟨j, (mem_iff_lookup (h.nodup_keys hi)).mp he, hj⟩
  · cases hl : (a.edges.getD i []).lookup x with
    | none => rfl
    | some j =>
      obtain ⟨hx, hne, -⟩ := h.of_mem_edges hi ((mem_iff_lookup (h.nodup_keys hi)).mpr hl)
      exact absurd ⟨hx, hne⟩ hno

section Runs

variable (hg : g.productions ≠ []) (o₁ o₂ : ReadingOrder)

include hg in
theorem getD_states_of_getElem? {o : ReadingOrder} {i : Nat} {s : List Item}
    (h : (g.automatonIn o).states[i]? = some s) :
    i < (g.automatonIn o).edges.size ∧ (g.automatonIn o).states.getD i [] = s := by
  obtain ⟨hi, -⟩ := Array.getElem?_eq_some_iff.mp h
  exact ⟨(g.automatonIn_explored hg o) ▸ hi, getD_of_getElem? h⟩

include hg in
/-- The same state's transitions in two runs go to the same states, renumbered. -/
theorem lookup_edges_renumbered {i j : Nat} {s : List Item}
    (hi : (g.automatonIn o₁).states[i]? = some s) (hj : (g.automatonIn o₂).states[j]? = some s)
    (x : String) :
    ((g.automatonIn o₂).edges.getD j []).lookup x = (((g.automatonIn o₁).edges.getD i []).lookup x).map
      (SlrTable.numberIn (stateOrder (g.automatonIn o₁) (g.automatonIn o₂))) := by
  obtain ⟨hi', hsi⟩ := getD_states_of_getElem? hg hi
  obtain ⟨hj', hsj⟩ := getD_states_of_getElem? hg hj
  have e₁ := (g.automatonIn_inv o₁).lookup_edges hi' x
  have e₂ := (g.automatonIn_inv o₂).lookup_edges hj' x
  rw [hsi] at e₁
  rw [hsj] at e₂
  by_cases hx : g.isSymbol x = true ∧ g.goto s x ≠ []
  · -- both runs go to the state of the goto
    obtain ⟨k₁, hl₁, hk₁⟩ := e₁.1 hx
    obtain ⟨k₂, hl₂, hk₂⟩ := e₂.1 hx
    rw [hl₁, hl₂, Option.map_some,
      numberIn_stateOrder (states_perm hg o₁ o₂) (g.automatonIn_inv o₁).nodup hk₁ hk₂]
  · rw [e₁.2 hx, e₂.2 hx, Option.map_none]

/-! ### Cells of a table built in an order -/

variable (start : String)

theorem size_slrTableIn (o : ReadingOrder) (a : Automaton) (follow : SetTable) :
    (g.slrTableIn start o a follow).1.actions.size = a.states.size ∧
      (g.slrTableIn start o a follow).1.gotos.size = a.states.size := by
  rw [slrTableIn_eq_foldl]
  obtain ⟨-, hsa, hsg, -⟩ := g.fold_tableStep_rows start o a follow (fun _ => True) trivial
    (fun _ _ _ => trivial) a.states.size
  exact ⟨hsa, hsg⟩

/-- The GOTO cell of `x` in row `i`: the state's transition on `x`, unless `x` is a terminal. -/
theorem lookup_gotos_slrTableIn (o : ReadingOrder) (follow : SetTable) {i : Nat}
    (hi : i < (g.automatonIn o).states.size) (x : String) :
    ((g.slrTableIn start o (g.automatonIn o) follow).1.gotos.getD i []).lookup x =
      if x ∈ g.terminals then none else ((g.automatonIn o).edges.getD i []).lookup x := by
  obtain ⟨fol, -, -, hrow⟩ := g.slrTableIn_row start o (g.automatonIn o) follow hi
  rw [hrow, ← lookup_transitionRows_snd]
  rfl

/-! ### Cells that do not depend on the order -/

variable (g) in
/-- A state reads alike in every order: two complete items of other heads than the start symbol
that both reduce on a symbol the state does not shift on reduce by the same production, and no
complete item of the start symbol stands beside one that reduces on the end marker. -/
structure ReadsAlike (follow : SetTable) (s : List Item) : Prop where
  reductions : ∀ t, ¬ (t ∈ g.terminals ∧ g.goto s t ≠ []) → ∀ it₁ ∈ s, ∀ it₂ ∈ s,
    g.ReducesOn start follow t it₁ → g.ReducesOn start follow t it₂ →
      g.production? it₁.rule = g.production? it₂.rule
  acceptance : ∀ it₁ ∈ s, ∀ it₂ ∈ s,
    g.AcceptsOn start endMarker it₁ → ¬ g.ReducesOn start follow endMarker it₂

omit hg in
theorem isComplete_of_dot {it : Item} {p : Production} (hp : g.production? it.rule = some p)
    (hdot : it.dot = p.body.length) : g.isComplete it = true := by
  simp [isComplete, hp, hdot]

omit hg in
/-- A state with at most one complete item reads alike. -/
theorem readsAlike_of_unique_complete {follow : SetTable} {s : List Item}
    (h : ∀ it₁ ∈ s, ∀ it₂ ∈ s, g.isComplete it₁ = true → g.isComplete it₂ = true → it₁ = it₂) :
    g.ReadsAlike start follow s where
  reductions := by
    intro t _ it₁ h₁ it₂ h₂ hr₁ hr₂
    obtain ⟨p₁, hp₁, hdot₁, -⟩ := hr₁
    obtain ⟨p₂, hp₂, hdot₂, -⟩ := hr₂
    rw [h it₁ h₁ it₂ h₂ (isComplete_of_dot hp₁ hdot₁) (isComplete_of_dot hp₂ hdot₂)]
  acceptance := by
    intro it₁ h₁ it₂ h₂ ha hr
    obtain ⟨-, p, hp, hdot, hhead⟩ := ha
    obtain ⟨q, hq, hdotq, hne, -⟩ := hr
    -- the accepting item's head is the start symbol, the reducing one's is not
    have heq := h it₁ h₁ it₂ h₂ (isComplete_of_dot hp hdot) (isComplete_of_dot hq hdotq)
    subst heq
    rw [hp, Option.some.injEq] at hq
    subst hq
    exact hne hhead

omit hg in
/-- Two productions at indices of one production report the same number. -/
theorem lastCopy_eq {i i' : Nat} {p : Production} (hi : g.production? i = some p)
    (hi' : g.production? i' = some p) : g.lastCopy i = g.lastCopy i' := by
  -- the fold keeps the last index of `p`, and `p` is listed, so its start does not matter
  have key : ∀ (F : Nat → Production × Nat → Nat),
      (∀ acc e, F acc e = if e.1 == p then e.2 else acc) →
      ∀ (l : List (Production × Nat)) (a b : Nat), (∃ e ∈ l, e.1 = p) →
        l.foldl F a = l.foldl F b := by
    intro F hF l
    induction l with
    | nil => simp
    | cons e l ih =>
      intro a b hex
      rw [List.foldl_cons, List.foldl_cons, hF, hF]
      by_cases he : e.1 = p
      · rw [if_pos (beq_iff_eq.mpr he), if_pos (beq_iff_eq.mpr he)]
      · rw [if_neg (fun h => he (beq_iff_eq.mp h)), if_neg (fun h => he (beq_iff_eq.mp h))]
        obtain ⟨e', he', hp'⟩ := hex
        rcases List.mem_cons.mp he' with rfl | he'
        · exact absurd hp' he
        · exact ih a b ⟨e', he', hp'⟩
  unfold lastCopy
  rw [hi, hi']
  refine key _ (fun _ _ => rfl) _ _ _ ⟨(p, i), ?_, rfl⟩
  rw [List.mem_zipIdx_iff_getElem?]
  exact hi

omit hg in
/-- From an empty cell, with no item accepting on `t`, two orders of the same items write the same
cell when all the items that reduce on `t` reduce by one production. -/
theorem foldl_cellStep_perm_of_none {follow : SetTable} {t : String} {s items₁ items₂ : List Item}
    (hv : ∀ it ∈ s, g.ValidItem it) (h₁ : items₁.Perm s) (h₂ : items₂.Perm s)
    (hnoacc : ∀ it ∈ s, ¬ g.AcceptsOn start t it)
    (hred : ∀ it₁ ∈ s, ∀ it₂ ∈ s, g.ReducesOn start follow t it₁ →
      g.ReducesOn start follow t it₂ → g.production? it₁.rule = g.production? it₂.rule) :
    items₂.foldl (g.cellStep start follow t) none = items₁.foldl (g.cellStep start follow t) none := by
  obtain ⟨hsome₁, hnone₁⟩ := g.foldl_cellStep_of_not_shift start items₁
    (fun it h => hnoacc it (h₁.mem_iff.mp h)) (fun it h => hv it (h₁.mem_iff.mp h)) none (by simp)
  obtain ⟨hsome₂, hnone₂⟩ := g.foldl_cellStep_of_not_shift start items₂
    (fun it h => hnoacc it (h₂.mem_iff.mp h)) (fun it h => hv it (h₂.mem_iff.mp h)) none (by simp)
  by_cases hR : ∃ it ∈ s, g.ReducesOn start follow t it
  · -- each order ends with some reducing item, and they all reduce by one production
    obtain ⟨itR, hmemR, hR'⟩ := hR
    obtain ⟨it₁, hmem₁, hred₁, heq₁⟩ := hsome₁ ⟨itR, h₁.mem_iff.mpr hmemR, hR'⟩
    obtain ⟨it₂, hmem₂, hred₂, heq₂⟩ := hsome₂ ⟨itR, h₂.mem_iff.mpr hmemR, hR'⟩
    have hprod := hred it₂ (h₂.mem_iff.mp hmem₂) it₁ (h₁.mem_iff.mp hmem₁) hred₂ hred₁
    obtain ⟨p, hp, -⟩ := hred₁
    rw [heq₂, heq₁, lastCopy_eq (hprod.trans hp) hp]
  · have hno₁ : ¬ ∃ it ∈ items₁, g.ReducesOn start follow t it := by
      rintro ⟨it, hmem, hr⟩
      exact hR ⟨it, h₁.mem_iff.mp hmem, hr⟩
    have hno₂ : ¬ ∃ it ∈ items₂, g.ReducesOn start follow t it := by
      rintro ⟨it, hmem, hr⟩
      exact hR ⟨it, h₂.mem_iff.mp hmem, hr⟩
    rw [hnone₂ hno₂, hnone₁ hno₁]

omit hg in
/-- When a state reads alike, its cell of `t` is the same whatever order its items are read in,
shift targets renumbered alike. -/
theorem foldl_cellStep_retarget {follow : SetTable} {t : String} {s items₁ items₂ : List Item}
    (hv : ∀ it ∈ s, g.ValidItem it) (h₁ : items₁.Perm s) (h₂ : items₂.Perm s)
    (hacc : ∀ it₁ ∈ s, ∀ it₂ ∈ s, g.AcceptsOn start t it₁ → ¬ g.ReducesOn start follow t it₂)
    (c : Option SlrAction) (hc : c = none ∨ ∃ j, c = some (.shift j))
    (hred : c = none → ∀ it₁ ∈ s, ∀ it₂ ∈ s, g.ReducesOn start follow t it₁ →
      g.ReducesOn start follow t it₂ → g.production? it₁.rule = g.production? it₂.rule)
    (f : Nat → Nat) :
    items₂.foldl (g.cellStep start follow t) (c.map (SlrTable.retarget f)) =
      (items₁.foldl (g.cellStep start follow t) c).map (SlrTable.retarget f) := by
  have hv₁ : ∀ it ∈ items₁, g.ValidItem it := fun it h => hv it (h₁.mem_iff.mp h)
  have hv₂ : ∀ it ∈ items₂, g.ValidItem it := fun it h => hv it (h₂.mem_iff.mp h)
  by_cases hA : ∃ it ∈ s, g.AcceptsOn start t it
  · -- acceptance, with nothing reducing beside it, in either order
    obtain ⟨itA, hmemA, hA'⟩ := hA
    have hnored : ∀ it ∈ s, ¬ g.ReducesOn start follow t it :=
      fun it h => hacc itA hmemA it h hA'
    rw [(g.foldl_cellStep_of_no_reduction start items₁ (fun it h => hnored it (h₁.mem_iff.mp h))
        hv₁ c).1 ⟨itA, h₁.mem_iff.mpr hmemA, hA'⟩,
      (g.foldl_cellStep_of_no_reduction start items₂ (fun it h => hnored it (h₂.mem_iff.mp h))
        hv₂ _).1 ⟨itA, h₂.mem_iff.mpr hmemA, hA'⟩]
    rfl
  · have hnoacc : ∀ it ∈ s, ¬ g.AcceptsOn start t it := fun it h ha => hA ⟨it, h, ha⟩
    rcases hc with rfl | ⟨j, rfl⟩
    · -- an empty cell stays empty or takes the one reduction, never a shift
      rw [Option.map_none, foldl_cellStep_perm_of_none start hv h₁ h₂ hnoacc (hred rfl)]
      obtain ⟨hsome₁, hnone₁⟩ := g.foldl_cellStep_of_not_shift start items₁
        (fun it h => hnoacc it (h₁.mem_iff.mp h)) hv₁ none (by simp)
      by_cases hR : ∃ it ∈ items₁, g.ReducesOn start follow t it
      · obtain ⟨_, -, -, heq⟩ := hsome₁ hR
        rw [heq]
        rfl
      · rw [hnone₁ hR]
        rfl
    · -- a shift stays, in either order
      rw [Option.map_some, SlrTable.retarget_shift,
        g.foldl_cellStep_shift start items₂ (fun it h => hnoacc it (h₂.mem_iff.mp h)) hv₂,
        g.foldl_cellStep_shift start items₁ (fun it h => hnoacc it (h₁.mem_iff.mp h)) hv₁]
      rfl

variable {o₁ o₂ start}

include hg in
/-- A state's rows in two runs: the state at position `j` of the second run stands at position
`order[j]` of the first. -/
theorem exists_row_stateOrder {j : Nat} (hj : j < (g.automatonIn o₂).states.size) :
    ∃ i s, (stateOrder (g.automatonIn o₁) (g.automatonIn o₂))[j]? = some i ∧
      (g.automatonIn o₁).states[i]? = some s ∧ (g.automatonIn o₂).states[j]? = some s := by
  obtain ⟨i, hi, hsi⟩ := getElem?_stateOrder (states_perm hg o₁ o₂)
    (Array.getElem?_eq_getElem hj)
  exact ⟨i, _, hi, hsi, Array.getElem?_eq_getElem hj⟩

include hg in
/-- The cell a state's transitions leave, in two runs, with targets renumbered. -/
theorem lookup_transitionRowsAt_renumbered {i j : Nat} {s : List Item}
    (hi : (g.automatonIn o₁).states[i]? = some s) (hj : (g.automatonIn o₂).states[j]? = some s)
    (x : String) :
    (g.transitionRowsAt (g.automatonIn o₂) j).1.lookup x =
      ((g.transitionRowsAt (g.automatonIn o₁) i).1.lookup x).map
        (SlrTable.retarget (SlrTable.numberIn (stateOrder (g.automatonIn o₁) (g.automatonIn o₂)))) := by
  rw [transitionRowsAt, transitionRowsAt, lookup_transitionRows_fst, lookup_transitionRows_fst]
  by_cases hx : x ∈ g.terminals
  · rw [if_pos hx, if_pos hx, lookup_edges_renumbered hg o₁ o₂ hi hj, Option.map_map,
      Option.map_map]
    rfl
  · rw [if_neg hx, if_neg hx]
    rfl

include hg in
/-- **A state's ACTION cells in two runs** agree, targets renumbered, when the state reads alike. -/
theorem lookup_actions_renumbered {follow : SetTable}
    (hfree : ∀ s, g.Reachable s → g.ReadsAlike start follow s) {i j : Nat} {s : List Item}
    (hi : (g.automatonIn o₁).states[i]? = some s) (hj : (g.automatonIn o₂).states[j]? = some s)
    (x : String) :
    ((g.slrTableIn start o₂ (g.automatonIn o₂) follow).1.actions.getD j []).lookup x =
      (((g.slrTableIn start o₁ (g.automatonIn o₁) follow).1.actions.getD i []).lookup x).map
        (SlrTable.retarget (SlrTable.numberIn (stateOrder (g.automatonIn o₁) (g.automatonIn o₂)))) := by
  obtain ⟨hi', hsi⟩ := getD_states_of_getElem? hg hi
  obtain ⟨hj', hsj⟩ := getD_states_of_getElem? hg hj
  have hreach : g.Reachable s := (g.automatonIn_inv o₁).reachable s (Array.mem_of_getElem? hi)
  have hsize₁ := (Array.getElem?_eq_some_iff.mp hi).1
  have hsize₂ := (Array.getElem?_eq_some_iff.mp hj).1
  rw [g.lookup_actions_slrTableIn start hg o₂ follow hsize₂,
    g.lookup_actions_slrTableIn start hg o₁ follow hsize₁, lookup_transitionRowsAt_renumbered hg hi hj,
    hsi, hsj]
  -- the cell the transitions leave is empty or a shift, and empty only without a shift on `x`
  have hcell : ∀ c, (g.transitionRowsAt (g.automatonIn o₁) i).1.lookup x = c →
      c = none ∨ ∃ k, c = some (.shift k) := by
    rintro c rfl
    rw [transitionRowsAt, lookup_transitionRows_fst]
    by_cases hx : x ∈ g.terminals
    · rw [if_pos hx]
      cases ((g.automatonIn o₁).edges.getD i []).lookup x with
      | none => exact Or.inl rfl
      | some k => exact Or.inr ⟨k, rfl⟩
    · rw [if_neg hx]
      exact Or.inl rfl
  have hnone : (g.transitionRowsAt (g.automatonIn o₁) i).1.lookup x = none →
      ¬ (x ∈ g.terminals ∧ g.goto s x ≠ []) := by
    rintro hl ⟨hx, hne⟩
    obtain ⟨hshift, -⟩ := g.lookup_transitionRowsAt (g.automatonIn_inv o₁) hi' hx
    rw [hsi] at hshift
    obtain ⟨k, -, hk⟩ := hshift hne
    rw [hl] at hk
    cases hk
  refine foldl_cellStep_retarget start (hreach.valid hg) (o₁.items_perm i s) (o₂.items_perm j s)
    ?_ _ (hcell _ rfl) (fun hl => (hfree s hreach).reductions x (hnone hl)) _
  intro it₁ h₁ it₂ h₂ hacc
  have hend : x = endMarker := hacc.1
  subst hend
  exact (hfree s hreach).acceptance it₁ h₁ it₂ h₂ hacc

include hg in
/-- A state's GOTO cells in two runs agree, targets renumbered. -/
theorem lookup_gotos_renumbered {follow : SetTable} {i j : Nat} {s : List Item}
    (hi : (g.automatonIn o₁).states[i]? = some s) (hj : (g.automatonIn o₂).states[j]? = some s)
    (x : String) :
    ((g.slrTableIn start o₂ (g.automatonIn o₂) follow).1.gotos.getD j []).lookup x =
      (((g.slrTableIn start o₁ (g.automatonIn o₁) follow).1.gotos.getD i []).lookup x).map
        (SlrTable.numberIn (stateOrder (g.automatonIn o₁) (g.automatonIn o₂))) := by
  rw [lookup_gotos_slrTableIn start o₂ follow (Array.getElem?_eq_some_iff.mp hj).1,
    lookup_gotos_slrTableIn start o₁ follow (Array.getElem?_eq_some_iff.mp hi).1]
  by_cases hx : x ∈ g.terminals
  · rw [if_pos hx, if_pos hx]
    rfl
  · rw [if_neg hx, if_neg hx]
    exact lookup_edges_renumbered hg o₁ o₂ hi hj x

end Runs

/-! ### Two runs -/

/-- Two tables over two automata agree up to renumbering by `order`: `order` lists the first
automaton's state numbers, each once, with 0 first; the second automaton's state `j` is the first's
state `order[j]`; and the second table's ACTION and GOTO cells are those of the first table
renumbered by `order`. -/
structure Renumbered (order : Array Nat) (a₁ a₂ : Automaton) (t₁ t₂ : SlrTable) : Prop where
  perm : order.toList.Perm (List.range a₁.states.size)
  first : order[0]? = some 0
  states : ∀ j : Nat, a₂.states[j]? = order[j]?.bind fun i => a₁.states[i]?
  actions_size : t₂.actions.size = (t₁.renumberBy order).actions.size
  gotos_size : t₂.gotos.size = (t₁.renumberBy order).gotos.size
  actions : ∀ (j : Nat) (x : String), (t₂.actions.getD j []).lookup x = ((t₁.renumberBy order).actions.getD j []).lookup x
  gotos : ∀ (j : Nat) (x : String), (t₂.gotos.getD j []).lookup x = ((t₁.renumberBy order).gotos.getD j []).lookup x

theorem analyzeIn_eq {start : String} (hs : g.start? = some start) (o : ReadingOrder) :
    g.analyzeIn o = .ok ⟨g, start, g.terminals, g.nonterminals,
      (g.followSets start g.firstSets).1,
      (g.slrTableIn start o (g.automatonIn o) (g.followSets start g.firstSets).2).2,
      (g.slrTableIn start o (g.automatonIn o) (g.followSets start g.firstSets).2).1⟩ := by
  rw [analyzeIn, hs]

end Grammar

namespace SlrAnalysis

theorem cells_congr {a b : SlrAnalysis} (hterm : a.terminals = b.terminals)
    (hcols : a.gotoColumns = b.gotoColumns) {i : Nat}
    (hact : ∀ t, (a.table.actions.getD i []).lookup t = (b.table.actions.getD i []).lookup t)
    (hgoto : ∀ x, (a.table.gotos.getD i []).lookup x = (b.table.gotos.getD i []).lookup x) :
    a.cells i = b.cells i := by
  simp only [cells, hterm, hcols, hact, hgoto]

/-- Two analyses of one grammar with the same columns and rows of the same cells write the same
file. -/
theorem csv_congr {a b : SlrAnalysis} (hgr : a.grammar = b.grammar)
    (hterm : a.terminals = b.terminals) (hcols : a.gotoColumns = b.gotoColumns)
    (hsize : a.table.actions.size = b.table.actions.size)
    (hcells : ∀ i < a.table.actions.size, a.cells i = b.cells i) : a.csv = b.csv := by
  have hrows : (List.range a.table.actions.size).map (fun i => Csv.record ',' (toString i :: a.cells i)) =
      (List.range b.table.actions.size).map (fun i => Csv.record ',' (toString i :: b.cells i)) := by
    rw [← hsize]
    exact List.map_congr_left fun i hi => by rw [hcells i (List.mem_range.mp hi)]
  simp only [csv, hgr, hterm, hcols, hrows]

/-- The file of an analysis reads its table through its cells only, and not its FOLLOW table. -/
theorem csv_mk_congr {gr : Grammar} {start : String} {terms nonterms : List String}
    {first follow follow' : SetTable} {t t' : SlrTable} (hsize : t.actions.size = t'.actions.size)
    (hact : ∀ (i : Nat) (x : String), (t.actions.getD i []).lookup x = (t'.actions.getD i []).lookup x)
    (hgoto : ∀ (i : Nat) (x : String), (t.gotos.getD i []).lookup x = (t'.gotos.getD i []).lookup x) :
    (SlrAnalysis.mk gr start terms nonterms first follow t).csv =
      (SlrAnalysis.mk gr start terms nonterms first follow' t').csv :=
  csv_congr rfl rfl rfl hsize fun i _ => cells_congr (by rfl) (by rfl) (hact i) (hgoto i)

end SlrAnalysis

namespace Grammar

variable {g : Grammar} {start : String}

/-- Two runs' tables agree up to the renumbering `stateOrder` when every reachable state reads
alike. -/
theorem renumbered_stateOrder (hg : g.productions ≠ []) {follow : SetTable}
    (hfree : ∀ s, g.Reachable s → g.ReadsAlike start follow s) (o₁ o₂ : ReadingOrder) :
    Renumbered (stateOrder (g.automatonIn o₁) (g.automatonIn o₂)) (g.automatonIn o₁)
      (g.automatonIn o₂) (g.slrTableIn start o₁ (g.automatonIn o₁) follow).1
      (g.slrTableIn start o₂ (g.automatonIn o₂) follow).1 := by
  have hperm := states_perm hg o₁ o₂
  have hnd₁ := (g.automatonIn_inv o₁).nodup
  have hlen : (g.automatonIn o₁).states.size = (g.automatonIn o₂).states.size := by
    simpa using hperm.length_eq
  have horder : (stateOrder (g.automatonIn o₁) (g.automatonIn o₂)).size =
      (g.automatonIn o₂).states.size := Array.size_map ..
  have hsize₂ := @size_slrTableIn g start o₂ (g.automatonIn o₂) follow
  refine ⟨stateOrder_perm hperm hnd₁, ?_, fun j => ?_, ?_, ?_, fun j x => ?_, fun j x => ?_⟩
  · -- state 0 is the initial state in both runs
    obtain ⟨i, hi, hsi⟩ := getElem?_stateOrder hperm (g.automatonIn_inv o₂).first
    have h0 := (g.automatonIn_inv o₁).first
    rw [← Array.getElem?_toList] at hsi h0
    rw [hi, eq_of_getElem?_eq hnd₁ hsi h0]
  · by_cases hj : j < (g.automatonIn o₂).states.size
    · obtain ⟨i, s, hi, hsi, hsj⟩ := exists_row_stateOrder hg hj
      rw [hsj, hi, Option.bind_some, hsi]
    · rw [Array.getElem?_eq_none (by omega), Array.getElem?_eq_none (by omega),
        Option.bind_none]
  · rw [hsize₂.1, (SlrTable.size_renumberBy _ _).1, horder]
  · rw [hsize₂.2, (SlrTable.size_renumberBy _ _).2, horder]
  · by_cases hj : j < (g.automatonIn o₂).states.size
    · obtain ⟨i, s, hi, hsi, hsj⟩ := exists_row_stateOrder hg hj
      rw [SlrTable.lookup_actions_renumberBy _ hi, lookup_actions_renumbered hg hfree hsi hsj]
    · -- past the last state both tables have no row
      rw [lookup_getD_of_size_le (by omega), lookup_getD_of_size_le
        (by rw [(SlrTable.size_renumberBy _ _).1]; omega)]
  · by_cases hj : j < (g.automatonIn o₂).states.size
    · obtain ⟨i, s, hi, hsi, hsj⟩ := exists_row_stateOrder hg hj
      rw [SlrTable.lookup_gotos_renumberBy _ hi, lookup_gotos_renumbered hg hsi hsj]
    · rw [lookup_getD_of_size_le (by omega), lookup_getD_of_size_le
        (by rw [(SlrTable.size_renumberBy _ _).2]; omega)]

/-- **Reading orders do not matter, up to renumbering.** For a nonempty grammar whose reachable
states all read alike, any two orders of reading symbols and items build the same states, ACTION
and GOTO tables, up to a renumbering of the states that keeps state 0; and the comma-separated
files of the two analyses differ by that renumbering only. -/
theorem reading_orders_agree_up_to_renumbering (hs : g.start? = some start)
    (hfree : ∀ s, g.Reachable s → g.ReadsAlike start (g.followSets start g.firstSets).2 s)
    (o₁ o₂ : ReadingOrder) :
    ∃ order, Renumbered order (g.automatonIn o₁) (g.automatonIn o₂)
        (g.slrTableIn start o₁ (g.automatonIn o₁) (g.followSets start g.firstSets).2).1
        (g.slrTableIn start o₂ (g.automatonIn o₂) (g.followSets start g.firstSets).2).1 ∧
      (g.analyzeIn o₂).map SlrAnalysis.csv =
        (g.analyzeIn o₁).map fun a => SlrAnalysis.csv { a with table := a.table.renumberBy order } := by
  have hg : g.productions ≠ [] := by
    intro h
    simp [start?, h] at hs
  have hren := renumbered_stateOrder hg hfree o₁ o₂
  refine ⟨_, hren, ?_⟩
  -- the two files differ only in the table, whose rows have the same cells
  rw [analyzeIn_eq hs, analyzeIn_eq hs]
  simp only [Except.map]
  exact congrArg Except.ok (SlrAnalysis.csv_mk_congr hren.actions_size hren.actions hren.gotos)

/-- The augmented grammar `S' → S`, `S → a` read in sorted order and backwards: each of its three
states has one complete item at most, so the two runs agree up to renumbering. -/
theorem reading_orders_agree_up_to_renumbering_augmented :
    augmentedExample.start? = some "S'" ∧
      (∀ s, augmentedExample.Reachable s → augmentedExample.ReadsAlike "S'"
        (augmentedExample.followSets "S'" augmentedExample.firstSets).2 s) ∧
      ∃ order, Renumbered order (augmentedExample.automatonIn .sorted)
          (augmentedExample.automatonIn .reversed)
          (augmentedExample.slrTableIn "S'" .sorted (augmentedExample.automatonIn .sorted)
            (augmentedExample.followSets "S'" augmentedExample.firstSets).2).1
          (augmentedExample.slrTableIn "S'" .reversed (augmentedExample.automatonIn .reversed)
            (augmentedExample.followSets "S'" augmentedExample.firstSets).2).1 ∧
        (augmentedExample.analyzeIn .reversed).map SlrAnalysis.csv =
          (augmentedExample.analyzeIn .sorted).map fun a =>
            SlrAnalysis.csv { a with table := a.table.renumberBy order } := by
  have hfree : ∀ s, augmentedExample.Reachable s → augmentedExample.ReadsAlike "S'"
      (augmentedExample.followSets "S'" augmentedExample.firstSets).2 s := by
    intro s hs
    have hmem : s ∈ (augmentedExample.automatonIn .sorted).states :=
      mem_automatonIn (List.cons_ne_nil _ _) .sorted hs
    have hstates : (augmentedExample.automatonIn .sorted).states =
        #[[⟨0, 0⟩, ⟨1, 0⟩], [⟨0, 1⟩], [⟨1, 1⟩]] := by
      cbv
    rw [hstates] at hmem
    apply readsAlike_of_unique_complete
    simp only [List.mem_toArray, List.mem_cons, List.not_mem_nil, or_false] at hmem
    rcases hmem with rfl | rfl | rfl <;> decide
  exact ⟨rfl, hfree, reading_orders_agree_up_to_renumbering rfl hfree .sorted .reversed⟩

end Grammar
end Frontend
