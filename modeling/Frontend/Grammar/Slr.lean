import Frontend.Grammar.Follow
import Frontend.Grammar.Automaton

/-! SLR(1) parsing tables.

Each state of the LR(0) automaton has a row of actions on terminals and a row of gotos on
nonterminals. A transition on a terminal is a shift; on a symbol that is only a nonterminal, a
goto. An item whose dot is at the end reduces by its production on every terminal of its head's
FOLLOW set where the row has no shift; the reduction is numbered by the last copy of the
production. An item of the start symbol with the dot at the end accepts at the end marker instead,
even over a shift.

States are then numbered canonically: state 0 stays, and the states reached from it through
shifts and gotos, taken in sorted symbol order, are numbered breadth first; states not reached
that way keep their relative order after them. -/
namespace Frontend

/-- What a parser does on a terminal. -/
inductive SlrAction where
  | shift (state : Nat)
  | reduce (rule : Nat)
  | accept
  deriving DecidableEq, Repr

/-- Sets a key in a row: in place if it is there, at the end otherwise. -/
def setEntry {α : Type} (row : List (String × α)) (k : String) (v : α) : List (String × α) :=
  if row.any (·.1 == k) then row.map fun e => if e.1 == k then (k, v) else e
  else row ++ [(k, v)]

/-- ACTION and GOTO rows, one of each per state. -/
structure SlrTable where
  actions : Array (List (String × SlrAction))
  gotos : Array (List (String × Nat))

namespace SlrTable

/-- Whether a row shifts on a terminal. -/
def shifts (row : List (String × SlrAction)) (t : String) : Bool :=
  row.any fun e => e.1 == t && match e.2 with
    | .shift _ => true
    | _ => false

/-- A state's transitions filed into its rows: on a terminal a shift, on any other symbol a
goto. -/
def transitionRows (terms : List String) (edges : List (String × Nat)) :
    List (String × SlrAction) × List (String × Nat) :=
  (edges.filterMap fun e => if terms.contains e.1 then some (e.1, .shift e.2) else none,
    edges.filter fun e => !terms.contains e.1)

@[simp] theorem transitionRows_fst (terms : List String) (edges : List (String × Nat)) :
    (transitionRows terms edges).1 =
      edges.filterMap fun e => if terms.contains e.1 then some (e.1, .shift e.2) else none := rfl

@[simp] theorem transitionRows_snd (terms : List String) (edges : List (String × Nat)) :
    (transitionRows terms edges).2 = edges.filter fun e => !terms.contains e.1 := rfl

/-- A state's shift and goto targets, by symbol, sorted. -/
def targets (t : SlrTable) (s : Nat) : List Nat :=
  let fromActions := (t.actions.getD s []).filterMap fun e => match e.2 with
    | .shift j => some (e.1, j)
    | _ => none
  let all := fromActions ++ t.gotos.getD s []
  (all.mergeSort fun a b => decide (a.1 ≤ b.1)).map Prod.snd

/-- Visits states breadth first from those at positions `k` and on in `order`, at most `fuel`
steps. -/
def visit (t : SlrTable) : Nat → Nat → Array Nat → Array Nat
  | 0, _, order => order
  | fuel + 1, k, order =>
    match order[k]? with
    | none => order
    | some s =>
      let order := (t.targets s).foldl (fun o j => if o.contains j then o else o.push j) order
      t.visit fuel (k + 1) order

/-- The canonical order of the states: breadth first from 0, then the unreached. -/
def order (t : SlrTable) : Array Nat :=
  let reached := t.visit (t.actions.size + 1) 0 #[0]
  (List.range t.actions.size).foldl (fun o j => if o.contains j then o else o.push j) reached

/-- The number a state gets when the states are listed in `order`: its position there, or
itself when it is not listed. -/
def numberIn (order : Array Nat) (j : Nat) : Nat := (order.findIdx? (· == j)).getD j

/-- An action with its target state renumbered. -/
def retarget (number : Nat → Nat) : SlrAction → SlrAction
  | .shift j => .shift (number j)
  | a => a

/-- The table with its states listed in `order`: the state at position `j` becomes state `j`,
and shift and goto targets follow. -/
def renumberBy (t : SlrTable) (order : Array Nat) : SlrTable :=
  { actions := order.map fun s =>
      (t.actions.getD s []).map fun e => (e.1, retarget (numberIn order) e.2)
    gotos := order.map fun s => (t.gotos.getD s []).map fun e => (e.1, numberIn order e.2) }

/-- The table with its states numbered canonically. -/
def renumber (t : SlrTable) : SlrTable := t.renumberBy t.order

end SlrTable

namespace Grammar

/-- A state's rows: shifts and gotos from its transitions, then reductions and acceptance from
its complete items; the FOLLOW table records the heads consulted. -/
def stateRows (g : Grammar) (start : String) (terms : List String) (state : List Item)
    (edges : List (String × Nat)) (follow : SetTable) :
    List (String × SlrAction) × List (String × Nat) × SetTable :=
  let rows := SlrTable.transitionRows terms edges
  let (actions, follow) := state.foldl (fun (acc : List (String × SlrAction) × SetTable) it =>
    match g.production? it.rule with
    | some p =>
      if g.isComplete it then
        if p.head == start then (setEntry acc.1 endMarker .accept, acc.2)
        else
          let follow := acc.2.touch p.head
          let n := g.lastCopy it.rule
          let row := (follow.get p.head).foldl (fun row t =>
            if SlrTable.shifts row t then row else setEntry row t (.reduce n)) acc.1
          (row, follow)
      else acc
    | none => acc) (rows.1, follow)
  (actions, rows.2, follow)

/-- The SLR(1) table of an automaton, in the automaton's numbering, each state's items read in a
given order; and the FOLLOW table. -/
def slrTableIn (g : Grammar) (start : String) (o : ReadingOrder) (a : Automaton)
    (follow : SetTable) : SlrTable × SetTable :=
  let terms := g.terminals
  (List.range a.states.size).foldl (fun (acc : SlrTable × SetTable) i =>
    let (actions, gotos, follow) :=
      g.stateRows start terms (o.items i (a.states.getD i [])) (a.edges.getD i []) acc.2
    (⟨acc.1.actions.push actions, acc.1.gotos.push gotos⟩, follow))
    (⟨#[], #[]⟩, follow)

/-- The SLR(1) table of an automaton, items read in sorted order. -/
def slrTable (g : Grammar) (start : String) (a : Automaton) (follow : SetTable) :
    SlrTable × SetTable :=
  g.slrTableIn start .sorted a follow

end Grammar

/-- Everything the SLR(1) construction finds for a grammar. -/
structure SlrAnalysis where
  grammar : Grammar
  start : String
  terminals : List String
  nonterminals : List String
  /-- FIRST sets, with every symbol consulted. -/
  first : SetTable
  /-- FOLLOW sets, with every symbol consulted. -/
  follow : SetTable
  table : SlrTable

/-- Why there is no analysis. -/
inductive SlrError where
  /-- The grammar has no production, hence no start symbol. -/
  | noProductions

namespace Grammar

/-- The SLR(1) analysis of a grammar read in a given order, states numbered as they were found. -/
def analyzeIn (g : Grammar) (o : ReadingOrder) : Except SlrError SlrAnalysis :=
  match g.start? with
  | none => .error .noProductions
  | some start =>
    let first := g.firstSets
    let (first, follow) := g.followSets start first
    let (table, follow) := g.slrTableIn start o (g.automatonIn o) follow
    .ok ⟨g, start, g.terminals, g.nonterminals, first, follow, table⟩

/-- The SLR(1) analysis of a grammar read in sorted order, states numbered canonically. -/
def analyze (g : Grammar) : Except SlrError SlrAnalysis :=
  (g.analyzeIn .sorted).map fun a => { a with table := a.table.renumber }

end Grammar
end Frontend
