import Frontend.Grammar.Item

/-! The LR(0) automaton of a grammar.

States are item sets, found breadth first from the initial state: each state's transitions are
taken in the order a `ReadingOrder` gives their symbols, sorted unless said otherwise, and a state
met for the first time gets the next number. A transition exists on every symbol of the grammar that follows a dot in the state; the
empty symbol, which is neither a terminal nor a nonterminal unless it heads a production, is
never crossed. -/
namespace Frontend

/-- States, numbered from 0, and each state's transitions in the order they were taken. -/
structure Automaton where
  states : Array (List Item)
  edges : Array (List (String × Nat))

/-- The order in which a run reads what the construction iterates over: at state `k`, the symbols
it has transitions on, and the items of the state. The construction's sets carry no order of
their own, so a run may read them in any arrangement. -/
structure ReadingOrder where
  /-- The symbols with a transition from state `k`, rearranged. -/
  symbols : Nat → List String → List String
  /-- The items of state `k`, rearranged. -/
  items : Nat → List Item → List Item
  symbols_perm : ∀ k xs, (symbols k xs).Perm xs
  items_perm : ∀ k xs, (items k xs).Perm xs

/-- Reading symbols and items in the order given, which is sorted. -/
def ReadingOrder.sorted : ReadingOrder :=
  ⟨fun _ xs => xs, fun _ xs => xs, fun _ xs => .refl xs, fun _ xs => .refl xs⟩

namespace Grammar

/-- Whether a symbol is a terminal or a nonterminal of the grammar. -/
def isSymbol (g : Grammar) (x : String) : Bool := g.terminals.contains x || g.isNonterminal x

/-- The symbols a state has transitions on, sorted. -/
def transitionSymbols (g : Grammar) (state : List Item) : List String :=
  (sortSymbols (state.filterMap g.next?)).filter g.isSymbol

/-- Adds a state's transition on a symbol, to the state its goto leads to, that state added if it
is new. -/
def addTransition (g : Grammar) (state : List Item) (acc : Array (List Item) × List (String × Nat))
    (x : String) : Array (List Item) × List (String × Nat) :=
  let target := g.goto state x
  match acc.1.findIdx? (· == target) with
  | some j => (acc.1, acc.2 ++ [(x, j)])
  | none => (acc.1.push target, acc.2 ++ [(x, acc.1.size)])

/-- Adds a state's transitions on the given symbols, adding the states they lead to. -/
def addTransitions (g : Grammar) (state : List Item) (syms : List String)
    (states : Array (List Item)) : Array (List Item) × List (String × Nat) :=
  syms.foldl (g.addTransition state) (states, [])

/-- Explores the states from number `next` on, breadth first, at most `fuel` of them. -/
def explore (g : Grammar) (o : ReadingOrder) : Nat → Automaton → Automaton
  | 0, a => a
  | fuel + 1, a =>
    let next := a.edges.size
    match a.states[next]? with
    | none => a
    | some state =>
      let (states, edges) :=
        g.addTransitions state (o.symbols next (g.transitionSymbols state)) a.states
      g.explore o fuel ⟨states, a.edges.push edges⟩

/-- The number of items of a grammar: a bound on the size of any item set. -/
def itemCount (g : Grammar) : Nat := g.productions.foldl (fun n p => n + p.body.length + 1) 0

/-- The LR(0) automaton found reading in a given order. There are no more states than sets of
items. -/
def automatonIn (g : Grammar) (o : ReadingOrder) : Automaton :=
  g.explore o (Nat.pow 2 g.itemCount + 1) ⟨#[g.initialState], #[]⟩

/-- The LR(0) automaton, transitions taken in sorted symbol order. -/
def automaton (g : Grammar) : Automaton := g.automatonIn .sorted

end Grammar
end Frontend
