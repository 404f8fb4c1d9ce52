import Mathlib.Data.Finset.Powerset
import Frontend.Proofs.Grammar.ItemSets

/-! The LR(0) exploration: what `automatonIn` finds, whatever its reading order.

The exploration is a worklist over states numbered as they are found: the state with the next
number gets its transitions, one per symbol in the order the reading order gives, and a target met
for the first time is added at the end. `ExploreInv` is what each step keeps: the states are
distinct and reachable from the first one through gotos, and each explored state's transitions are
exactly its symbols, each to the state its goto is. Reachable states are closed sets of the
grammar's items, so there are no more of them than sets of items, and the fuel of `automatonIn`
lets the worklist empty (`automatonIn_explored`).

**`exploration_records_each_transition_once`**: for every nonempty grammar and every reading
order, the exploration ends with distinct, nonempty, closed states, the first the closure of the
first item and each reachable from it, and each state's rows record every transition of the state
once, as a shift on a terminal and as a goto on any other symbol, and nothing else. -/
namespace Frontend.Grammar

variable (g : Grammar)

/-! ### Reachable states -/

/-- The states reached from the first one through gotos on terminals and nonterminals. -/
inductive Reachable : List Item → Prop
  | initial : Reachable g.initialState
  | goto {s : List Item} {x : String} :
      Reachable s → g.isSymbol x = true → g.goto s x ≠ [] → Reachable (g.goto s x)

variable {g}

theorem Reachable.exists_closure {s : List Item} (h : g.Reachable s) :
    ∃ kernel, s = g.closure kernel := by
  cases h with
  | initial => exact ⟨_, rfl⟩
  | goto _ _ hne =>
    obtain ⟨kernel, hk, -⟩ := g.goto_eq_closure hne
    exact ⟨kernel, hk⟩

theorem Reachable.closure_eq {s : List Item} (h : g.Reachable s) : g.closure s = s := by
  obtain ⟨kernel, rfl⟩ := h.exists_closure
  exact g.closure_closure kernel

theorem Reachable.canonical {s : List Item} (h : g.Reachable s) : Canonical s := by
  obtain ⟨kernel, rfl⟩ := h.exists_closure
  exact g.canonical_closure kernel

theorem Reachable.ne_nil {s : List Item} (h : g.Reachable s) : s ≠ [] := by
  cases h with
  | initial => exact List.ne_nil_of_mem (g.subset_closure (List.mem_singleton_self (⟨0, 0⟩ : Item)))
  | goto _ _ hne => exact hne

theorem Reachable.valid (hg : g.productions ≠ []) {s : List Item} (h : g.Reachable s) :
    ∀ it ∈ s, g.ValidItem it := by
  induction h with
  | initial =>
    refine g.validItem_closure fun it hit => ?_
    rw [List.mem_singleton] at hit
    subst hit
    obtain ⟨p, ps, hps⟩ := List.exists_cons_of_ne_nil hg
    exact ⟨p, by simp [production?, hps], Nat.zero_le _⟩
  | goto _ _ _ ih => exact g.validItem_goto ih _

/-! ### Adding one state's transitions -/

theorem getElem?_of_extends {α : Type} {xs ys : Array α} (h : xs.toList <+: ys.toList) {i : Nat}
    {v : α} (hv : xs[i]? = some v) : ys[i]? = some v := by
  obtain ⟨t, ht⟩ := h
  rw [← Array.getElem?_toList] at hv ⊢
  rw [← ht, List.getElem?_append_left (List.getElem?_eq_some_iff.mp hv).1, hv]

theorem getD_of_getElem? {α : Type} {xs : Array α} {i : Nat} {v d : α} (h : xs[i]? = some v) :
    xs.getD i d = v := by
  rw [Array.getD_eq_getD_getElem?, h, Option.getD_some]

variable (g)

/-- One transition: its target is found among the states, or added after them. -/
theorem addTransition_cases (state : List Item) (acc : Array (List Item) × List (String × Nat))
    (x : String) :
    ∃ j, (g.addTransition state acc x).2 = acc.2 ++ [(x, j)] ∧
      (g.addTransition state acc x).1[j]? = some (g.goto state x) ∧
      ((g.addTransition state acc x).1 = acc.1 ∨
        g.goto state x ∉ acc.1 ∧ (g.addTransition state acc x).1 = acc.1.push (g.goto state x)) := by
  unfold addTransition
  dsimp only
  split
  · rename_i j hj
    obtain ⟨hjlt, hjeq, -⟩ := Array.findIdx?_eq_some_iff_getElem.mp hj
    refine ⟨j, rfl, ?_, Or.inl rfl⟩
    rw [Array.getElem?_eq_getElem hjlt, beq_iff_eq.mp hjeq]
  · rename_i hnone
    refine ⟨acc.1.size, rfl, by simp, Or.inr ⟨fun hmem => ?_, rfl⟩⟩
    have := Array.findIdx?_eq_none_iff.mp hnone _ hmem
    simp at this

/-- What adding a state's transitions keeps, from the states it started with: they stay first, no
state is added twice, each transition leads to its symbol's goto, and each state added is the goto
of a transition. -/
structure AddInv (state : List Item) (states₀ : Array (List Item))
    (acc : Array (List Item) × List (String × Nat)) : Prop where
  grows : states₀.toList <+: acc.1.toList
  nodup : acc.1.toList.Nodup
  targets : ∀ e ∈ acc.2, acc.1[e.2]? = some (g.goto state e.1)
  added : ∀ s ∈ acc.1, s ∈ states₀ ∨ ∃ e ∈ acc.2, s = g.goto state e.1

variable {g}

theorem AddInv.step {state : List Item} {states₀ : Array (List Item)}
    {acc : Array (List Item) × List (String × Nat)} (h : g.AddInv state states₀ acc) (x : String) :
    g.AddInv state states₀ (g.addTransition state acc x) := by
  obtain ⟨j, hedges, htarget, hstates⟩ := g.addTransition_cases state acc x
  have hedge : ∀ e ∈ (g.addTransition state acc x).2, e ∈ acc.2 ∨ e = (x, j) := by
    intro e he
    rw [hedges, List.mem_append, List.mem_singleton] at he
    exact he
  -- a state listed before is still accounted for: its transition is kept
  have hold : ∀ s ∈ acc.1, s ∈ states₀ ∨
      ∃ e ∈ (g.addTransition state acc x).2, s = g.goto state e.1 := by
    intro s hs
    rcases h.added s hs with h0 | ⟨e, he, rfl⟩
    · exact Or.inl h0
    · exact Or.inr ⟨e, by rw [hedges]; exact List.mem_append_left _ he, rfl⟩
  rcases hstates with hsame | ⟨hnew, hpush⟩
  · -- the target was there: only the transition is new
    refine ⟨hsame ▸ h.grows, hsame ▸ h.nodup, fun e he => ?_, fun s hs => ?_⟩
    · rcases hedge e he with he | rfl
      · rw [hsame]
        exact h.targets e he
      · exact htarget
    · rw [hsame] at hs
      exact hold s hs
  · -- the target is added after the states
    have hpre : acc.1.toList <+: (g.addTransition state acc x).1.toList := by
      rw [hpush, Array.toList_push]
      exact List.prefix_append _ _
    refine ⟨h.grows.trans hpre, ?_, fun e he => ?_, fun s hs => ?_⟩
    · rw [hpush, Array.toList_push, List.nodup_append]
      refine ⟨h.nodup, List.nodup_singleton _, ?_⟩
      rintro a ha b hb rfl
      rw [List.mem_singleton] at hb
      exact hnew (Array.mem_def.mpr (hb ▸ ha))
    · rcases hedge e he with he | rfl
      · exact getElem?_of_extends hpre (h.targets e he)
      · exact htarget
    · rw [hpush, Array.mem_push] at hs
      rcases hs with hs | rfl
      · exact hold s hs
      · exact Or.inr ⟨(x, j), by rw [hedges]; exact List.mem_append_right _ (List.mem_singleton_self _),
          rfl⟩

theorem AddInv.foldl {state : List Item} {states₀ : Array (List Item)} (syms : List String)
    {acc : Array (List Item) × List (String × Nat)} (h : g.AddInv state states₀ acc) :
    g.AddInv state states₀ (syms.foldl (g.addTransition state) acc) := by
  induction syms generalizing acc with
  | nil => exact h
  | cons x syms ih => exact ih (h.step x)

variable (g)

theorem keys_foldl_addTransition (state : List Item) (syms : List String)
    (acc : Array (List Item) × List (String × Nat)) :
    (syms.foldl (g.addTransition state) acc).2.map Prod.fst = acc.2.map Prod.fst ++ syms := by
  induction syms generalizing acc with
  | nil => simp
  | cons x syms ih =>
    rw [List.foldl_cons, ih]
    obtain ⟨j, hedges, -⟩ := g.addTransition_cases state acc x
    simp [hedges]

theorem addInv_addTransitions (state : List Item) (syms : List String)
    (states : Array (List Item)) (h : states.toList.Nodup) :
    g.AddInv state states (g.addTransitions state syms states) :=
  AddInv.foldl syms ⟨List.prefix_refl _, h, by simp, fun s hs => Or.inl hs⟩

/-- A state's transitions are on its symbols, in the order given. -/
theorem keys_addTransitions (state : List Item) (syms : List String) (states : Array (List Item)) :
    (g.addTransitions state syms states).2.map Prod.fst = syms := by
  have := g.keys_foldl_addTransition state syms (states, [])
  rw [List.map_nil, List.nil_append] at this
  exact this

/-! ### Exploring state after state -/

/-- The state just reached gets its transitions, on its symbols in the reading order. -/
def exploreStep (o : ReadingOrder) (a : Automaton) (state : List Item) : Automaton :=
  let r := g.addTransitions state (o.symbols a.edges.size (g.transitionSymbols state)) a.states
  ⟨r.1, a.edges.push r.2⟩

variable {g}

theorem explore_succ_of_none {o : ReadingOrder} {n : Nat} {a : Automaton}
    (h : a.states[a.edges.size]? = none) : g.explore o (n + 1) a = a := by
  simp [explore, h]

theorem explore_succ_of_some {o : ReadingOrder} {n : Nat} {a : Automaton} {state : List Item}
    (h : a.states[a.edges.size]? = some state) :
    g.explore o (n + 1) a = g.explore o n (g.exploreStep o a state) := by
  simp only [explore, h]
  rfl

variable (g)

/-- What the exploration keeps: the explored states are a prefix of the states, the first state is
the initial one, no state is listed twice, every state is reachable, and an explored state's
transitions are its symbols in the reading order, each to the state its goto is. -/
structure ExploreInv (o : ReadingOrder) (a : Automaton) : Prop where
  edges_le : a.edges.size ≤ a.states.size
  first : a.states[0]? = some g.initialState
  nodup : a.states.toList.Nodup
  reachable : ∀ s ∈ a.states, g.Reachable s
  symbols : ∀ k < a.edges.size,
    (a.edges.getD k []).map Prod.fst = o.symbols k (g.transitionSymbols (a.states.getD k []))
  targets : ∀ k < a.edges.size, ∀ e ∈ a.edges.getD k [],
    a.states[e.2]? = some (g.goto (a.states.getD k []) e.1)

theorem exploreInv_initial (o : ReadingOrder) : g.ExploreInv o ⟨#[g.initialState], #[]⟩ where
  edges_le := by simp
  first := rfl
  nodup := by simp
  reachable := by
    intro s hs
    rw [Array.mem_def] at hs
    simp only [List.mem_singleton] at hs
    exact hs ▸ .initial
  symbols := by simp
  targets := by simp

variable {g}

theorem getD_of_extends {α : Type} {xs ys : Array α} (h : xs.toList <+: ys.toList) {i : Nat}
    (hi : i < xs.size) (d : α) : ys.getD i d = xs.getD i d := by
  have hv : xs[i]? = some xs[i] := Array.getElem?_eq_getElem hi
  rw [getD_of_getElem? (getElem?_of_extends h hv), getD_of_getElem? hv]

/-- **One step keeps the invariant.** -/
theorem ExploreInv.step {o : ReadingOrder} {a : Automaton} {state : List Item}
    (h : g.ExploreInv o a) (hs : a.states[a.edges.size]? = some state) :
    g.ExploreInv o (g.exploreStep o a state) := by
  have hadd := g.addInv_addTransitions state (o.symbols a.edges.size (g.transitionSymbols state))
    a.states h.nodup
  have hkeys := g.keys_addTransitions state (o.symbols a.edges.size (g.transitionSymbols state))
    a.states
  have hlt : a.edges.size < a.states.size := (Array.getElem?_eq_some_iff.mp hs).1
  have hsize := hadd.grows.length_le
  simp only [Array.length_toList] at hsize
  have hstate : (g.addTransitions state (o.symbols a.edges.size (g.transitionSymbols state))
      a.states).1.getD a.edges.size [] = state :=
    getD_of_getElem? (getElem?_of_extends hadd.grows hs)
  refine ⟨?_, getElem?_of_extends hadd.grows h.first, hadd.nodup, fun s hmem => ?_,
    fun k hk => ?_, fun k hk e he => ?_⟩
  · simp only [exploreStep, Array.size_push]
    omega
  · -- a new state is the goto of the state explored on one of its symbols
    rcases hadd.added s hmem with hold | ⟨e, he, rfl⟩
    · exact h.reachable s hold
    · have hx : e.1 ∈ g.transitionSymbols state := by
        rw [← (o.symbols_perm a.edges.size _).mem_iff, ← hkeys]
        exact List.mem_map_of_mem he
      obtain ⟨hsym, hne⟩ := (g.mem_transitionSymbols).mp hx
      exact .goto (h.reachable state (Array.mem_of_getElem? hs)) hsym hne
  · simp only [exploreStep, Array.size_push] at hk
    simp only [exploreStep]
    rcases Nat.lt_succ_iff_lt_or_eq.mp hk with hk | rfl
    · rw [getD_push_of_lt hk, getD_of_extends hadd.grows (Nat.lt_of_lt_of_le hk h.edges_le)]
      exact h.symbols k hk
    · rw [getD_push_size, hstate, hkeys]
  · simp only [exploreStep, Array.size_push] at hk he ⊢
    rcases Nat.lt_succ_iff_lt_or_eq.mp hk with hk | rfl
    · rw [getD_push_of_lt hk] at he
      rw [getD_of_extends hadd.grows (Nat.lt_of_lt_of_le hk h.edges_le)]
      exact getElem?_of_extends hadd.grows (h.targets k hk e he)
    · rw [getD_push_size] at he
      rw [hstate]
      exact hadd.targets e he

/-- **Every run keeps the invariant.** -/
theorem ExploreInv.explore {o : ReadingOrder} {a : Automaton} (h : g.ExploreInv o a) (n : Nat) :
    g.ExploreInv o (g.explore o n a) := by
  induction n generalizing a with
  | zero => exact h
  | succ n ih =>
    cases hs : a.states[a.edges.size]? with
    | none => rw [explore_succ_of_none hs]; exact h
    | some state => rw [explore_succ_of_some hs]; exact ih (h.step hs)

/-! ### The exploration ends -/

/-- The items of the productions numbered from `r` on, given in order. -/
def itemsFrom : Nat → List Production → List Item
  | _, [] => []
  | r, p :: ps => (List.range (p.body.length + 1)).map (Item.mk r) ++ itemsFrom (r + 1) ps

theorem length_itemsFrom (r k : Nat) (ps : List Production) :
    k + (itemsFrom r ps).length = ps.foldl (fun n p => n + p.body.length + 1) k := by
  induction ps generalizing r k with
  | nil => simp [itemsFrom]
  | cons p ps ih =>
    simp only [itemsFrom, List.length_append, List.length_map, List.length_range, List.foldl_cons]
    rw [← ih (r + 1)]
    omega

theorem mem_itemsFrom_of_getElem? (r : Nat) {ps : List Production} {i d : Nat} {p : Production}
    (hp : ps[i]? = some p) (hd : d ≤ p.body.length) : (⟨r + i, d⟩ : Item) ∈ itemsFrom r ps := by
  induction ps generalizing r i with
  | nil => simp at hp
  | cons q ps ih =>
    cases i with
    | zero =>
      simp only [List.getElem?_cons_zero, Option.some.injEq] at hp
      subst hp
      simp only [itemsFrom, List.mem_append, List.mem_map, List.mem_range]
      exact Or.inl ⟨d, by omega, rfl⟩
    | succ i =>
      simp only [List.getElem?_cons_succ] at hp
      have := ih (r + 1) hp
      rw [show r + (i + 1) = r + 1 + i by omega]
      exact List.mem_append_right _ this

theorem ValidItem.mem_itemsFrom {it : Item} (h : g.ValidItem it) :
    it ∈ itemsFrom 0 g.productions := by
  obtain ⟨p, hp, hd⟩ := h
  have := mem_itemsFrom_of_getElem? 0 hp hd
  rwa [Nat.zero_add] at this

/-- There are no more states than sets of the grammar's items. -/
theorem ExploreInv.states_size_le (hg : g.productions ≠ []) {o : ReadingOrder} {a : Automaton}
    (h : g.ExploreInv o a) : a.states.size ≤ Nat.pow 2 g.itemCount := by
  let U := (itemsFrom 0 g.productions).toFinset
  -- distinct canonical states have distinct sets of items
  have hinj : (a.states.toList.map List.toFinset).Nodup := by
    refine h.nodup.map_on fun s hs t ht hst => ?_
    refine (h.reachable s (Array.mem_def.mpr hs)).canonical.eq_of_mem_iff
      (h.reachable t (Array.mem_def.mpr ht)).canonical fun it => ?_
    rw [← List.mem_toFinset, hst, List.mem_toFinset]
  have hsub : (a.states.toList.map List.toFinset).toFinset ⊆ U.powerset := by
    intro F hF
    simp only [List.mem_toFinset, List.mem_map] at hF
    obtain ⟨s, hs, rfl⟩ := hF
    rw [Finset.mem_powerset]
    intro it hit
    rw [List.mem_toFinset] at hit ⊢
    exact ((h.reachable s (Array.mem_def.mpr hs)).valid hg it hit).mem_itemsFrom
  have hcount : (itemsFrom 0 g.productions).length = g.itemCount := by
    have := length_itemsFrom 0 0 g.productions
    rw [Nat.zero_add] at this
    exact this
  calc a.states.size = (a.states.toList.map List.toFinset).toFinset.card := by
        rw [List.toFinset_card_of_nodup hinj, List.length_map, Array.length_toList]
    _ ≤ U.powerset.card := Finset.card_le_card hsub
    _ = 2 ^ U.card := Finset.card_powerset U
    _ ≤ 2 ^ (itemsFrom 0 g.productions).length :=
        Nat.pow_le_pow_right Nat.zero_lt_two (List.toFinset_card_le _)
    _ = Nat.pow 2 g.itemCount := by rw [hcount, Nat.pow_eq]

/-- With more fuel than states are left to explore, the worklist empties. -/
theorem ExploreInv.explore_explored (hg : g.productions ≠ []) {o : ReadingOrder} {a : Automaton}
    (h : g.ExploreInv o a) {n : Nat} (hn : Nat.pow 2 g.itemCount < a.edges.size + n) :
    (g.explore o n a).edges.size = (g.explore o n a).states.size := by
  induction n generalizing a with
  | zero =>
    have := h.states_size_le hg
    have := h.edges_le
    omega
  | succ n ih =>
    cases hs : a.states[a.edges.size]? with
    | none =>
      rw [explore_succ_of_none hs]
      have := Array.getElem?_eq_none_iff.mp hs
      have := h.edges_le
      omega
    | some state =>
      rw [explore_succ_of_some hs]
      refine ih (h.step hs) ?_
      simp only [exploreStep, Array.size_push]
      omega

variable (g)

theorem automatonIn_inv (o : ReadingOrder) : g.ExploreInv o (g.automatonIn o) :=
  (g.exploreInv_initial o).explore _

/-- **The exploration ends**: every state found has its transitions. -/
theorem automatonIn_explored (hg : g.productions ≠ []) (o : ReadingOrder) :
    (g.automatonIn o).edges.size = (g.automatonIn o).states.size :=
  (g.exploreInv_initial o).explore_explored hg (by simp)

variable {g}

/-- An explored state has a transition on each of its symbols, to the state its goto is. -/
theorem ExploreInv.transition {o : ReadingOrder} {a : Automaton} (h : g.ExploreInv o a) {i : Nat}
    (hi : i < a.edges.size) {x : String} (hx : g.isSymbol x = true)
    (hne : g.goto (a.states.getD i []) x ≠ []) :
    ∃ j, (x, j) ∈ a.edges.getD i [] ∧ a.states[j]? = some (g.goto (a.states.getD i []) x) := by
  have hmem : x ∈ (a.edges.getD i []).map Prod.fst := by
    rw [h.symbols i hi, (o.symbols_perm _ _).mem_iff]
    exact (g.mem_transitionSymbols).mpr ⟨hx, hne⟩
  obtain ⟨⟨y, j⟩, he, rfl⟩ := List.mem_map.mp hmem
  exact ⟨j, he, h.targets i hi _ he⟩

/-- Every transition of an explored state is on one of its symbols, to the state its goto is. -/
theorem ExploreInv.of_mem_edges {o : ReadingOrder} {a : Automaton} (h : g.ExploreInv o a)
    {i : Nat} (hi : i < a.edges.size) {x : String} {j : Nat} (he : (x, j) ∈ a.edges.getD i []) :
    g.isSymbol x = true ∧ g.goto (a.states.getD i []) x ≠ [] ∧
      a.states[j]? = some (g.goto (a.states.getD i []) x) := by
  have hmem : x ∈ g.transitionSymbols (a.states.getD i []) := by
    rw [← (o.symbols_perm _ _).mem_iff, ← h.symbols i hi]
    exact List.mem_map_of_mem (f := Prod.fst) he
  exact ⟨((g.mem_transitionSymbols).mp hmem).1, ((g.mem_transitionSymbols).mp hmem).2,
    h.targets i hi _ he⟩

theorem ExploreInv.nodup_keys {o : ReadingOrder} {a : Automaton} (h : g.ExploreInv o a) {i : Nat}
    (hi : i < a.edges.size) : ((a.edges.getD i []).map Prod.fst).Nodup := by
  rw [h.symbols i hi, (o.symbols_perm _ _).nodup_iff]
  exact g.nodup_transitionSymbols _

/-- Every reachable state is found. -/
theorem mem_automatonIn (hg : g.productions ≠ []) (o : ReadingOrder) {s : List Item}
    (hs : g.Reachable s) : s ∈ (g.automatonIn o).states := by
  have h := g.automatonIn_inv o
  have hexp := g.automatonIn_explored hg o
  induction hs with
  | initial => exact Array.mem_of_getElem? h.first
  | goto _ hx hne ih =>
    obtain ⟨i, hi, rfl⟩ := List.getElem_of_mem (Array.mem_def.mp ih)
    rw [Array.length_toList] at hi
    have hget : (g.automatonIn o).states.getD i [] = (g.automatonIn o).states.toList[i] := by
      rw [Array.getD_eq_getD_getElem?, ← Array.getElem?_toList, List.getElem?_eq_getElem hi,
        Option.getD_some]
    rw [← hget] at hne ⊢
    obtain ⟨j, -, hj⟩ := h.transition (hexp ▸ hi) hx hne
    exact Array.mem_of_getElem? hj

/-! ### Rows of the recorded transitions -/

theorem lookup_transitionRows_fst (terms : List String) (edges : List (String × Nat)) (x : String) :
    (SlrTable.transitionRows terms edges).1.lookup x =
      if x ∈ terms then (edges.lookup x).map .shift else none := by
  induction edges with
  | nil => simp
  | cons e edges ih =>
    obtain ⟨y, j⟩ := e
    simp only [SlrTable.transitionRows_fst] at ih ⊢
    by_cases hy : y ∈ terms
    · -- a terminal's transition is kept, as a shift
      simp only [List.filterMap_cons]
      rw [if_pos (List.contains_iff_mem.mpr hy)]
      by_cases hxy : x = y
      · subst hxy
        simp [hy]
      · rw [lookup_cons_of_ne hxy, lookup_cons_of_ne hxy, ih]
    · simp only [List.filterMap_cons]
      rw [if_neg (fun h => hy (List.contains_iff_mem.mp h)), ih]
      by_cases hxy : x = y
      · subst hxy
        simp [hy]
      · rw [lookup_cons_of_ne hxy]

theorem lookup_transitionRows_snd (terms : List String) (edges : List (String × Nat)) (x : String) :
    (SlrTable.transitionRows terms edges).2.lookup x = if x ∈ terms then none else edges.lookup x := by
  induction edges with
  | nil => simp
  | cons e edges ih =>
    obtain ⟨y, j⟩ := e
    simp only [SlrTable.transitionRows_snd] at ih ⊢
    by_cases hy : y ∈ terms
    · rw [List.filter_cons_of_neg (by simp [hy]), ih]
      by_cases hxy : x = y
      · subst hxy
        simp [hy]
      · rw [lookup_cons_of_ne hxy]
    · -- another symbol's transition is kept, as a goto
      rw [List.filter_cons_of_pos (by simp [hy])]
      by_cases hxy : x = y
      · subst hxy
        simp [hy]
      · rw [lookup_cons_of_ne hxy, lookup_cons_of_ne hxy, ih]

/-- Filing splits the transitions between the two rows. -/
theorem keys_transitionRows_perm (terms : List String) (edges : List (String × Nat)) :
    ((SlrTable.transitionRows terms edges).1.map Prod.fst ++
      (SlrTable.transitionRows terms edges).2.map Prod.fst).Perm (edges.map Prod.fst) := by
  have hfst : (SlrTable.transitionRows terms edges).1.map Prod.fst =
      (edges.filter fun e => terms.contains e.1).map Prod.fst := by
    simp only [SlrTable.transitionRows_fst]
    induction edges with
    | nil => rfl
    | cons e edges ih =>
      obtain ⟨y, j⟩ := e
      simp only [List.filterMap_cons]
      by_cases hy : terms.contains y = true
      · simp only [List.filter_cons, hy, ite_true, List.map_cons, ih]
      · simp only [List.filter_cons, hy, Bool.false_eq_true, ite_false, ih]
  rw [hfst, SlrTable.transitionRows_snd, ← List.map_append]
  exact (List.filter_append_perm _ edges).map _

/-- A state's rows record a transition on `x` to `j`: as a shift when `x` is a terminal, as a goto
otherwise, and in no other cell of `x`. -/
def Records (terms : List String) (rows : List (String × SlrAction) × List (String × Nat))
    (x : String) (j : Nat) : Prop :=
  (x ∈ terms → rows.1.lookup x = some (.shift j) ∧ rows.2.lookup x = none) ∧
    (x ∉ terms → rows.1.lookup x = none ∧ rows.2.lookup x = some j)

variable (g)

/-- The rows a state's transitions are filed into. -/
def transitionRowsAt (a : Automaton) (i : Nat) : List (String × SlrAction) × List (String × Nat) :=
  SlrTable.transitionRows g.terminals (a.edges.getD i [])

/-- An automaton is the LR(0) automaton of the grammar: every state is explored; the states are
distinct, nonempty and closed, the first is the closure of the first item, and each is reachable
from it; each state's rows record each of its transitions once, as a shift on a terminal and as a
goto on any other symbol, and nothing else. -/
structure IsLr0Automaton (a : Automaton) : Prop where
  explored : a.edges.size = a.states.size
  distinct : a.states.toList.Nodup
  first : a.states[0]? = some (g.closure [⟨0, 0⟩])
  closed : ∀ s ∈ a.states, s ≠ [] ∧ g.closure s = s ∧ g.Reachable s
  once : ∀ i < a.states.size,
    ((g.transitionRowsAt a i).1.map Prod.fst ++ (g.transitionRowsAt a i).2.map Prod.fst).Nodup
  records : ∀ i < a.states.size, ∀ x, g.isSymbol x = true → g.goto (a.states.getD i []) x ≠ [] →
    ∃ j, a.states[j]? = some (g.goto (a.states.getD i []) x) ∧
      Records g.terminals (g.transitionRowsAt a i) x j
  nothing_else : ∀ i < a.states.size, ∀ x,
    ¬ (g.isSymbol x = true ∧ g.goto (a.states.getD i []) x ≠ []) →
      (g.transitionRowsAt a i).1.lookup x = none ∧ (g.transitionRowsAt a i).2.lookup x = none

/-- **The exploration records each transition once.** For every nonempty grammar and every order
of reading symbols, the exploration ends with every state explored, and what it found is the
LR(0) automaton of the grammar. -/
theorem exploration_records_each_transition_once (hg : g.productions ≠ []) (o : ReadingOrder) :
    g.IsLr0Automaton (g.automatonIn o) := by
  have h := g.automatonIn_inv o
  have hexp := g.automatonIn_explored hg o
  refine ⟨hexp, h.nodup, h.first, fun s hs => ⟨(h.reachable s hs).ne_nil,
    (h.reachable s hs).closure_eq, h.reachable s hs⟩, fun i hi => ?_, fun i hi x hx hne => ?_,
    fun i hi x hnot => ?_⟩
  · exact ((keys_transitionRows_perm _ _).nodup_iff).mpr (h.nodup_keys (hexp ▸ hi))
  · obtain ⟨j, he, hj⟩ := h.transition (hexp ▸ hi) hx hne
    have hlookup : ((g.automatonIn o).edges.getD i []).lookup x = some j :=
      (mem_iff_lookup (h.nodup_keys (hexp ▸ hi))).mp he
    refine ⟨j, hj, fun hterm => ?_, fun hterm => ?_⟩
    · rw [transitionRowsAt, lookup_transitionRows_fst, lookup_transitionRows_snd, if_pos hterm,
        if_pos hterm, hlookup]
      exact ⟨rfl, rfl⟩
    · rw [transitionRowsAt, lookup_transitionRows_fst, lookup_transitionRows_snd, if_neg hterm,
        if_neg hterm, hlookup]
      exact ⟨rfl, rfl⟩
  · -- a symbol without a transition has no edge, so no cell
    have hnone : ((g.automatonIn o).edges.getD i []).lookup x = none := by
      cases hl : ((g.automatonIn o).edges.getD i []).lookup x with
      | none => rfl
      | some j =>
        have he := (mem_iff_lookup (h.nodup_keys (hexp ▸ hi))).mpr hl
        obtain ⟨hx, hne, -⟩ := h.of_mem_edges (hexp ▸ hi) he
        exact absurd ⟨hx, hne⟩ hnot
    rw [transitionRowsAt, lookup_transitionRows_fst, lookup_transitionRows_snd, hnone]
    refine ⟨?_, ?_⟩ <;> split <;> rfl

/-- The augmented grammar `S' → S`, `S → a`, read in sorted order. -/
theorem exploration_records_each_transition_once_augmented :
    augmentedExample.productions ≠ [] ∧
      augmentedExample.IsLr0Automaton (augmentedExample.automatonIn .sorted) :=
  ⟨List.cons_ne_nil _ _, exploration_records_each_transition_once _ (List.cons_ne_nil _ _) _⟩

end Frontend.Grammar
