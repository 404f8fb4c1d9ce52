import Mathlib.Data.List.Permutation
import Frontend.Grammar.Slr

/-! Which symbols the SLR(1) construction takes for terminals, and where it files their
transitions.

The construction reads the productions in order and takes a body symbol for a terminal when no
production read so far, the symbol's own included, is headed by it (`mem_terminals_iff`). So a
nonterminal that a body uses before its first production is a terminal too: in an augmented
grammar, every nonterminal of the first body is one. `terminals_by_reading_order` says it against
the heads: the terminals are the end marker, the body symbols that head nothing, and the
nonterminals used that early, and they miss the nonterminals exactly when no nonterminal is.

The table files each transition of a state once: on a terminal as a shift in the ACTION row, on
any other symbol in the GOTO row. Reductions and acceptance fill the ACTION row afterwards, but
a reduction never replaces a shift and acceptance only writes at the end marker, so away from
the end marker the shifts of a row are exactly its transitions on terminals.

`transition_filed_by_reading_order` puts the two together: a transition is filed as a shift
exactly when its symbol is read as a terminal, whatever the symbol heads. -/
namespace Frontend

theorem mem_sortSymbols {x : String} {xs : List String} : x ∈ sortSymbols xs ↔ x ∈ xs := by
  simp [sortSymbols, List.mem_eraseDups]

/-- Setting a key replaces every entry under it by the new one, and leaves the others. -/
theorem mem_setEntry {α : Type} {row : List (String × α)} {k y : String} {v w : α} :
    (y, w) ∈ setEntry row k v ↔ (y ≠ k ∧ (y, w) ∈ row) ∨ (y = k ∧ w = v) := by
  unfold setEntry
  split
  · rename_i hk
    obtain ⟨e, he, hek⟩ := List.any_eq_true.mp hk
    have hek : e.1 = k := by simpa using hek
    simp only [List.mem_map]
    constructor
    · rintro ⟨e', he', hmap⟩
      by_cases h : e'.1 = k
      · simp only [h, beq_self_eq_true, if_true, Prod.mk.injEq] at hmap
        exact Or.inr ⟨hmap.1.symm, hmap.2.symm⟩
      · have hb : (e'.1 == k) = false := by simpa using h
        simp only [hb, Bool.false_eq_true, if_false] at hmap
        subst hmap
        exact Or.inl ⟨h, he'⟩
    · rintro (⟨hy, hmem⟩ | ⟨rfl, rfl⟩)
      · refine ⟨(y, w), hmem, ?_⟩
        have hb : (y == k) = false := by simpa using hy
        simp [hb]
      · exact ⟨e, he, by simp [hek]⟩
  · rename_i hk
    have hnone : ∀ e ∈ row, e.1 ≠ k := by
      intro e he hek
      exact absurd (List.any_eq_true.mpr ⟨e, he, by simp [hek]⟩) hk
    simp only [List.mem_append, List.mem_singleton, Prod.mk.injEq]
    constructor
    · rintro (hmem | ⟨rfl, rfl⟩)
      · exact Or.inl ⟨hnone _ hmem, hmem⟩
      · exact Or.inr ⟨rfl, rfl⟩
    · rintro (⟨_, hmem⟩ | hkv)
      · exact Or.inl hmem
      · exact Or.inr hkv

namespace SlrTable

theorem shifts_iff {row : List (String × SlrAction)} {t : String} :
    shifts row t = true ↔ ∃ j, (t, .shift j) ∈ row := by
  unfold shifts
  constructor
  · intro h
    obtain ⟨⟨k, a⟩, hmem, hka⟩ := List.any_eq_true.mp h
    cases a with
    | shift j =>
      have hk : k = t := by simpa using hka
      exact ⟨j, hk ▸ hmem⟩
    | reduce _ => simp at hka
    | accept => simp at hka
  · rintro ⟨j, hj⟩
    exact List.any_eq_true.mpr ⟨(t, .shift j), hj, by simp⟩

end SlrTable

/-! ### Reading the productions -/

namespace Grammar

/-- A symbol is read as a terminal when it stands, nonempty, in the body of a production such
that no production up to and with that one is headed by it. -/
def ReadAsTerminal (g : Grammar) (x : String) : Prop :=
  ∃ i p, g.productions[i]? = some p ∧ x ∈ p.body ∧ x ≠ "" ∧
    ∀ q ∈ g.productions.take (i + 1), q.head ≠ x

theorem mem_terminalsFrom {seen : List String} {ps : List Production} {x : String} :
    x ∈ terminalsFrom seen ps ↔ x ∉ seen ∧ ∃ i p, ps[i]? = some p ∧ x ∈ p.body ∧ x ≠ "" ∧
      ∀ q ∈ ps.take (i + 1), q.head ≠ x := by
  induction ps generalizing seen with
  | nil => simp [terminalsFrom]
  | cons p ps ih =>
    have hfilter : x ∈ p.body.filter (fun y => y != "" && !(p.head :: seen).contains y) ↔
        x ∈ p.body ∧ x ≠ "" ∧ x ≠ p.head ∧ x ∉ seen := by
      simp [List.mem_filter]
    simp only [terminalsFrom, List.mem_append, hfilter, ih, List.mem_cons, not_or]
    constructor
    · rintro (⟨hb, hne, hp, hs⟩ | ⟨⟨hp, hs⟩, i, q, hq, hb, hne, hh⟩)
      · -- in the first body: the first production is the only one read
        refine ⟨hs, 0, p, rfl, hb, hne, ?_⟩
        intro q hq
        simp only [List.take_succ_cons, List.take_zero, List.mem_singleton] at hq
        exact hq ▸ Ne.symm hp
      · -- in a later body: the first production is read before it
        refine ⟨hs, i + 1, q, hq, hb, hne, ?_⟩
        intro r hr
        rw [List.take_succ_cons, List.mem_cons] at hr
        rcases hr with rfl | hr
        · exact Ne.symm hp
        · exact hh r hr
    · rintro ⟨hs, i, q, hq, hb, hne, hh⟩
      have hp : x ≠ p.head := Ne.symm (hh p (by simp))
      cases i with
      | zero =>
        simp only [List.getElem?_cons_zero, Option.some.injEq] at hq
        subst hq
        exact Or.inl ⟨hb, hne, hp, hs⟩
      | succ i =>
        refine Or.inr ⟨⟨hp, hs⟩, i, q, hq, hb, hne, ?_⟩
        intro r hr
        exact hh r (by rw [List.take_succ_cons]; exact List.mem_cons_of_mem _ hr)

/-- **The terminals are the end marker and the symbols read as terminals.** -/
theorem mem_terminals_iff (g : Grammar) (x : String) :
    x ∈ g.terminals ↔ x = endMarker ∨ g.ReadAsTerminal x := by
  simp [terminals, mem_sortSymbols, mem_terminalsFrom, ReadAsTerminal]

theorem mem_nonterminals_iff (g : Grammar) (x : String) :
    x ∈ g.nonterminals ↔ ∃ p ∈ g.productions, p.head = x := by
  simp [nonterminals, mem_sortSymbols]

/-- A symbol that heads no production is read as a terminal wherever it stands, nonempty, in a
body: no production read before it can be headed by it. -/
theorem readAsTerminal_iff_of_not_mem (g : Grammar) {x : String} (hx : x ∉ g.nonterminals) :
    g.ReadAsTerminal x ↔ x ≠ "" ∧ ∃ p ∈ g.productions, x ∈ p.body := by
  rw [mem_nonterminals_iff] at hx
  constructor
  · rintro ⟨i, p, hp, hb, hne, -⟩
    exact ⟨hne, p, List.mem_of_getElem? hp, hb⟩
  · rintro ⟨hne, p, hp, hb⟩
    obtain ⟨i, hi⟩ := List.mem_iff_getElem?.mp hp
    refine ⟨i, p, hi, hb, hne, fun q hq hqx => hx ⟨q, ?_, hqx⟩⟩
    exact List.mem_of_mem_take hq

/-- **Terminals and nonterminals by reading order.** The nonterminals are the heads. The terminals
are the end marker, the nonempty body symbols that head no production, and the nonterminals that
some body uses no later than their first production. So the two lists are disjoint exactly when
the end marker heads nothing and no nonterminal is used that early; which nonterminals are also
terminals depends on the order of the productions. -/
theorem terminals_by_reading_order (g : Grammar) :
    (∀ x, x ∈ g.nonterminals ↔ ∃ p ∈ g.productions, p.head = x) ∧
    (∀ x, x ∈ g.terminals ↔ x = endMarker ∨
      (x ≠ "" ∧ (∃ p ∈ g.productions, x ∈ p.body) ∧ x ∉ g.nonterminals) ∨
      (x ∈ g.nonterminals ∧ g.ReadAsTerminal x)) ∧
    ((∀ x ∈ g.terminals, x ∉ g.nonterminals) ↔
      endMarker ∉ g.nonterminals ∧ ∀ x ∈ g.nonterminals, ¬ g.ReadAsTerminal x) := by
  have hterm : ∀ x, x ∈ g.terminals ↔ x = endMarker ∨
      (x ≠ "" ∧ (∃ p ∈ g.productions, x ∈ p.body) ∧ x ∉ g.nonterminals) ∨
      (x ∈ g.nonterminals ∧ g.ReadAsTerminal x) := by
    intro x
    rw [mem_terminals_iff]
    -- a head is a terminal only when read early; any other symbol whenever it is in a body
    by_cases hx : x ∈ g.nonterminals
    · simp [hx]
    · rw [readAsTerminal_iff_of_not_mem g hx]
      simp [hx]
  refine ⟨mem_nonterminals_iff g, hterm, ⟨fun h => ⟨?_, ?_⟩, ?_⟩⟩
  · exact h endMarker ((mem_terminals_iff g _).mpr (Or.inl rfl))
  · intro x hx hr
    exact h x ((mem_terminals_iff g x).mpr (Or.inr hr)) hx
  · rintro ⟨hend, hearly⟩ x hx hn
    rcases (mem_terminals_iff g x).mp hx with rfl | hr
    · exact hend hn
    · exact hearly x hn hr

/-! ### Filing transitions -/

variable (g : Grammar) (start : String)

/-- A reduction's pass over the FOLLOW set of its head leaves the row's shifts as they are. -/
theorem mem_shift_reductions (n : Nat) (ts : List String) (row : List (String × SlrAction))
    (x : String) (j : Nat) :
    (x, .shift j) ∈ ts.foldl (fun row t =>
        if SlrTable.shifts row t then row else setEntry row t (.reduce n)) row ↔
      (x, .shift j) ∈ row := by
  induction ts generalizing row with
  | nil => rfl
  | cons t ts ih =>
    rw [List.foldl_cons, ih]
    split
    · rfl
    · rename_i hs
      rw [mem_setEntry]
      constructor
      · rintro (⟨_, h⟩ | ⟨_, h⟩)
        · exact h
        · cases h
      · intro h
        refine Or.inl ⟨?_, h⟩
        rintro rfl
        exact hs (SlrTable.shifts_iff.mpr ⟨j, h⟩)

/-- Away from the end marker, a state's shifts are its transitions on the given terminals. -/
theorem mem_stateRows_shift (terms : List String) (state : List Item)
    (edges : List (String × Nat)) (follow : SetTable) {x : String} {j : Nat}
    (hx : x ≠ endMarker) :
    (x, .shift j) ∈ (g.stateRows start terms state edges follow).1 ↔
      (x, j) ∈ edges ∧ terms.contains x = true := by
  unfold stateRows
  dsimp only
  -- the items' pass keeps every shift but at the end marker, where acceptance may write
  refine (List.foldlRecOn (motive := fun acc : List (String × SlrAction) × SetTable =>
      ((x, SlrAction.shift j) ∈ acc.1 ↔ (x, SlrAction.shift j) ∈ (edges.filterMap fun e =>
        if terms.contains e.1 then some (e.1, SlrAction.shift e.2) else none))) state _ Iff.rfl
      ?_).trans ?_
  · intro acc hacc it _
    refine Iff.trans ?_ hacc
    split
    · split
      · split
        · simp only [mem_setEntry, hx, false_and, or_false, true_and, ne_eq, not_false_eq_true]
        · exact mem_shift_reductions _ _ _ x j
      · rfl
    · rfl
  · simp only [List.mem_filterMap, Option.ite_none_right_eq_some, Option.some.injEq,
      Prod.mk.injEq]
    constructor
    · rintro ⟨⟨y, k⟩, he, hc, rfl, h⟩
      cases h
      exact ⟨he, hc⟩
    · rintro ⟨he, hc⟩
      exact ⟨(x, j), he, hc, rfl, rfl⟩

/-- A state's gotos are its transitions on the other symbols. -/
theorem mem_stateRows_goto (terms : List String) (state : List Item)
    (edges : List (String × Nat)) (follow : SetTable) {x : String} {j : Nat} :
    (x, j) ∈ (g.stateRows start terms state edges follow).2.1 ↔
      (x, j) ∈ edges ∧ terms.contains x = false := by
  simp [stateRows]

/-- One state's turn in building the table: its rows are pushed, and the FOLLOW table it
consulted goes on to the next state. -/
def tableStep (o : ReadingOrder) (a : Automaton) (acc : SlrTable × SetTable) (i : Nat) :
    SlrTable × SetTable :=
  let rows := g.stateRows start g.terminals (o.items i (a.states.getD i [])) (a.edges.getD i [])
    acc.2
  (⟨acc.1.actions.push rows.1, acc.1.gotos.push rows.2.1⟩, rows.2.2)

theorem slrTableIn_eq_foldl (o : ReadingOrder) (a : Automaton) (follow : SetTable) :
    g.slrTableIn start o a follow =
      (List.range a.states.size).foldl (g.tableStep start o a) (⟨#[], #[]⟩, follow) := rfl

theorem getD_push_of_lt {α : Type} {xs : Array α} {x d : α} {i : Nat} (h : i < xs.size) :
    (xs.push x).getD i d = xs.getD i d := by
  simp [Array.getElem?_push, Nat.ne_of_lt h]

theorem getD_push_size {α : Type} {xs : Array α} {x d : α} : (xs.push x).getD xs.size d = x := by
  simp

/-- After the first `n` states, the table has a row of each kind per state, each the state's own
rows with the FOLLOW table the states before it left. A property of FOLLOW tables that holds at
the start and that each state's rows keep holds of every table a state is given. -/
theorem fold_tableStep_rows (o : ReadingOrder) (a : Automaton) (init : SetTable)
    (P : SetTable → Prop) (hinit : P init)
    (hstep : ∀ i fol, P fol → P (g.stateRows start g.terminals (o.items i (a.states.getD i []))
      (a.edges.getD i []) fol).2.2) (n : Nat) :
    let r := (List.range n).foldl (g.tableStep start o a) (⟨#[], #[]⟩, init)
    P r.2 ∧ r.1.actions.size = n ∧ r.1.gotos.size = n ∧ ∀ i < n, ∃ fol, P fol ∧
      r.1.actions.getD i [] = (g.stateRows start g.terminals (o.items i (a.states.getD i []))
        (a.edges.getD i []) fol).1 ∧
      r.1.gotos.getD i [] = (g.stateRows start g.terminals (o.items i (a.states.getD i []))
        (a.edges.getD i []) fol).2.1 := by
  induction n with
  | zero => simpa using hinit
  | succ n ih =>
    rw [List.range_succ, List.foldl_append, List.foldl_cons, List.foldl_nil]
    generalize (List.range n).foldl (g.tableStep start o a) (⟨#[], #[]⟩, init) = r at ih ⊢
    obtain ⟨hP, hsa, hsg, hrows⟩ := ih
    simp only [tableStep, Array.size_push, hsa, hsg, true_and]
    refine ⟨hstep n r.2 hP, fun i hi => ?_⟩
    by_cases hin : i < n
    · obtain ⟨fol, hfol, ha, hg⟩ := hrows i hin
      exact ⟨fol, hfol, by rw [getD_push_of_lt (hsa ▸ hin), ha],
        by rw [getD_push_of_lt (hsg ▸ hin), hg]⟩
    · -- the rows just pushed
      have hi : i = n := by omega
      subst hi
      refine ⟨r.2, hP, ?_, ?_⟩
      · rw [← hsa, getD_push_size, hsa]
      · rw [← hsg, getD_push_size, hsg]

/-- Row `i` of the table holds the rows of state `i`. -/
theorem slrTable_row (a : Automaton) (follow : SetTable) {i : Nat} (hi : i < a.states.size) :
    ∃ fol, (g.slrTable start a follow).1.actions.getD i [] =
        (g.stateRows start g.terminals (a.states.getD i []) (a.edges.getD i []) fol).1 ∧
      (g.slrTable start a follow).1.gotos.getD i [] =
        (g.stateRows start g.terminals (a.states.getD i []) (a.edges.getD i []) fol).2.1 := by
  obtain ⟨-, -, -, hrows⟩ := g.fold_tableStep_rows start .sorted a follow (fun _ => True) trivial
    (fun _ _ _ => trivial) a.states.size
  obtain ⟨fol, -, ha, hg⟩ := hrows i hi
  exact ⟨fol, ha, hg⟩

/-- **A transition is filed as a shift exactly when its symbol is read as a terminal.** Away
from the end marker, the ACTION row of a state shifts on `x` to `j` exactly when the state has
that transition and `x` is read as a terminal, and the GOTO row goes on `x` to `j` exactly when
the state has that transition and `x` is not read so. Whether `x` heads a production plays no
part: a nonterminal that a body uses before its first production has its transitions among the
shifts, and none among the gotos. -/
theorem transition_filed_by_reading_order (a : Automaton) (follow : SetTable) {i j : Nat}
    {x : String} (hi : i < a.states.size) (hx : x ≠ endMarker) :
    ((x, .shift j) ∈ (g.slrTable start a follow).1.actions.getD i [] ↔
        (x, j) ∈ a.edges.getD i [] ∧ g.ReadAsTerminal x) ∧
    ((x, j) ∈ (g.slrTable start a follow).1.gotos.getD i [] ↔
        (x, j) ∈ a.edges.getD i [] ∧ ¬ g.ReadAsTerminal x) := by
  obtain ⟨fol, ha, hg⟩ := g.slrTable_row start a follow hi
  have hterm : g.terminals.contains x = true ↔ g.ReadAsTerminal x := by
    rw [List.contains_iff_mem, mem_terminals_iff]
    simp [hx]
  refine ⟨?_, ?_⟩
  · rw [ha, mem_stateRows_shift g start _ _ _ _ hx, hterm]
  · rw [hg, mem_stateRows_goto, ← Bool.not_eq_true, hterm]

/-- The augmented grammar `S' → S`, `S → a`. -/
def augmentedExample : Grammar := ⟨[⟨"S'", ["S"]⟩, ⟨"S", ["a"]⟩]⟩

/-- In `augmentedExample` the start body's `S` is read before its production, so the first
state goes to the state of `S' → S ·` by a shift on `S`. -/
theorem transition_filed_by_reading_order_augmented :
    0 < augmentedExample.automaton.states.size ∧ "S" ≠ endMarker ∧
    ((("S", .shift 1) ∈ (augmentedExample.slrTable "S'" augmentedExample.automaton
          .empty).1.actions.getD 0 [] ↔
        ("S", 1) ∈ augmentedExample.automaton.edges.getD 0 [] ∧
          augmentedExample.ReadAsTerminal "S") ∧
      (("S", 1) ∈ (augmentedExample.slrTable "S'" augmentedExample.automaton
          .empty).1.gotos.getD 0 [] ↔
        ("S", 1) ∈ augmentedExample.automaton.edges.getD 0 [] ∧
          ¬ augmentedExample.ReadAsTerminal "S")) := by
  have hi : 0 < augmentedExample.automaton.states.size := by cbv
  have hx : "S" ≠ endMarker := by simp [endMarker]
  exact ⟨hi, hx, transition_filed_by_reading_order _ "S'" _ .empty hi hx⟩

example : ("S", SlrAction.shift 1) ∈ (augmentedExample.slrTable "S'" augmentedExample.automaton
      .empty).1.actions.getD 0 [] ∧
    (augmentedExample.slrTable "S'" augmentedExample.automaton .empty).1.gotos.getD 0 [] = [] := by
  refine ⟨?_, ?_⟩
  · cbv
    exact .head _
  · cbv

end Grammar
end Frontend
