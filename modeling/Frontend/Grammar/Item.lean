import Frontend.Grammar.Basic

/-! LR(0) items: closure and goto.

An item is a production with a dot in its body; equal productions give equal items, so an item
names its production by the first index where it is written. An item set is kept sorted and free
of duplicates, so that equal sets are equal lists.

The closure of a set adds, for each nonterminal just after a dot, that nonterminal's productions
with the dot in front, and again for the items so added. Since an added item's dot stands at the
front, the nonterminals it brings in are those that begin a body: the closure is the set with the
items of the nonterminals reachable from those after its dots along the first symbols of bodies
(`frontReach`). `goto` moves the dot over one symbol in every item where that symbol follows it,
and closes the result. -/
namespace Frontend

/-- A production, by index, with a dot before the body symbol at position `dot`. -/
structure Item where
  rule : Nat
  dot : Nat
  deriving DecidableEq, Repr

namespace Item

/-- Items ordered by production, then by dot. -/
def le (a b : Item) : Bool := a.rule < b.rule || (a.rule == b.rule && a.dot ≤ b.dot)

end Item

/-- An item set in canonical form: sorted, without duplicates. -/
def normalizeItems (xs : List Item) : List Item := (xs.mergeSort Item.le).eraseDups

namespace Grammar

/-- The symbol after an item's dot, if any. -/
def next? (g : Grammar) (it : Item) : Option String :=
  (g.production? it.rule).bind fun p => p.body[it.dot]?

/-- Whether an item's dot stands at the end of its body. -/
def isComplete (g : Grammar) (it : Item) : Bool :=
  match g.production? it.rule with
  | some p => p.body.length ≤ it.dot
  | none => false

/-- The nonterminals that begin a body of one of the given ones. -/
def frontStep (g : Grammar) (xs : List String) : List String :=
  addSymbols xs (g.productions.filterMap fun p =>
    if xs.contains p.head then p.body.head?.filter g.isNonterminal else none)

/-- Repeats `frontStep` until it adds nothing, at most `fuel` times. -/
def frontLoop (g : Grammar) : Nat → List String → List String
  | 0, xs => xs
  | n + 1, xs =>
    let ys := g.frontStep xs
    if ys.length == xs.length then xs else g.frontLoop n ys

/-- The nonterminals reachable from the given nonterminals along first symbols of bodies, those
included. Each round adds a nonterminal, so there are fewer rounds than productions. -/
def frontReach (g : Grammar) (xs : List String) : List String :=
  g.frontLoop (g.productions.length + 1) xs

/-- The closure of an item set. -/
def closure (g : Grammar) (kernel : List Item) : List Item :=
  let starts := (kernel.filterMap g.next?).filter g.isNonterminal
  let reach := g.frontReach (addSymbols [] starts)
  normalizeItems (kernel ++ (g.productions.zipIdx.filterMap fun (p, i) =>
    if reach.contains p.head then some ⟨g.firstCopy i, 0⟩ else none))

/-- The items of a set with the dot moved over a symbol, closed; empty when no item has the
symbol after its dot. -/
def goto (g : Grammar) (state : List Item) (x : String) : List Item :=
  let kernel := state.filterMap fun it =>
    if g.next? it == some x then some ⟨it.rule, it.dot + 1⟩ else none
  if kernel.isEmpty then [] else g.closure (normalizeItems kernel)

/-- The first state: the closure of the first production with the dot in front. -/
def initialState (g : Grammar) : List Item := g.closure [⟨0, 0⟩]

end Grammar
end Frontend
