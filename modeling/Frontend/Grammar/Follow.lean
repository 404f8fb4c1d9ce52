import Frontend.Grammar.First

/-! FOLLOW sets.

The FOLLOW set of a nonterminal holds the terminals that can come right after it; the start
symbol's holds the end marker. They are computed, like FIRST sets, by whole scans: at each
occurrence of a nonterminal in a body, the FIRST set of what follows it, less `""`, joins its
FOLLOW set, and so does the head's FOLLOW set when what follows is empty or can derive nothing.
Scans repeat while some occurrence grew its set. The FIRST sets consulted are read from, and
their keys recorded in, the FIRST table. -/
namespace Frontend.Grammar

/-- The turns of one body's occurrences: `x` is the symbol at the current position and `beta`
what follows it. Returns both tables and whether some occurrence grew its set. -/
def followOfBody (isNonterminal : String → Bool) (head : String) :
    List String → SetTable × SetTable → (SetTable × SetTable) × Bool
  | [], st => (st, false)
  | x :: beta, (first, follow) =>
    if isNonterminal x then
      let follow := follow.touch x
      let before := follow.size x
      let withHead (follow : SetTable) : SetTable :=
        let follow := follow.touch head
        follow.addAll x (follow.get head)
      let (first, follow) :=
        if beta.isEmpty then (first, withHead follow)
        else
          let (first, fb) := firstOfSequence beta first
          let follow := follow.addAll x (fb.filter (· != ""))
          if fb.contains "" then (first, withHead follow) else (first, follow)
      let grew := before < follow.size x
      let (st, more) := followOfBody isNonterminal head beta (first, follow)
      (st, grew || more)
    else followOfBody isNonterminal head beta (first, follow)

/-- One scan over the productions, and whether some occurrence grew its set. -/
def followScan (g : Grammar) (st : SetTable × SetTable) : (SetTable × SetTable) × Bool :=
  g.productions.foldl (fun (acc : (SetTable × SetTable) × Bool) p =>
    let r := followOfBody g.isNonterminal p.head p.body acc.1
    (r.1, acc.2 || r.2)) (st, false)

/-- Scans until one does not grow, at most `fuel` of them. -/
def followLoop (g : Grammar) : Nat → SetTable × SetTable → SetTable × SetTable
  | 0, st => st
  | n + 1, st =>
    let (st', changed) := followScan g st
    if changed then followLoop g n st' else st'

/-- The FOLLOW sets of a grammar with the given start symbol, from its FIRST sets; returns the
FIRST table with the keys consulted, and the FOLLOW table. -/
def followSets (g : Grammar) (start : String) (first : SetTable) : SetTable × SetTable :=
  followLoop g g.fuel (first, SetTable.empty.add start endMarker)

end Frontend.Grammar
