/-! Context-free grammars over named symbols.

A grammar is a list of productions; the head of the first one is the start symbol. A symbol is a
*nonterminal* when it heads some production. A body symbol is a *terminal* when it is nonempty and
heads none of the productions read so far, the production it stands in included; so a
nonterminal used in a body before its first production is a terminal as well. The end marker `$`
is always a terminal. Symbol lists given out by this module are sorted by code point and hold no
duplicates. -/
namespace Frontend

/-- A production: a head and the symbols of its body. -/
structure Production where
  head : String
  body : List String
  deriving DecidableEq, Repr

/-- A grammar: its productions, in order. -/
structure Grammar where
  productions : List Production

/-- Sorted by code point, without duplicates. -/
def sortSymbols (xs : List String) : List String :=
  (xs.mergeSort fun a b => decide (a ≤ b)).eraseDups

/-- Adds the symbols that are not yet in a list, at its end, in order. -/
def addSymbols (xs ys : List String) : List String :=
  ys.foldl (fun acc y => if acc.contains y then acc else acc ++ [y]) xs

/-- The end marker. -/
def endMarker : String := "$"

namespace Grammar

/-- The start symbol, if there is a production. -/
def start? (g : Grammar) : Option String := g.productions.head?.map (·.head)

/-- Whether a symbol heads some production. -/
def isNonterminal (g : Grammar) (x : String) : Bool := g.productions.any (·.head == x)

/-- The nonterminals, sorted. -/
def nonterminals (g : Grammar) : List String := sortSymbols (g.productions.map (·.head))

/-- The terminals found reading the productions in order, given the heads read so far. -/
def terminalsFrom : List String → List Production → List String
  | _, [] => []
  | seen, p :: ps =>
    let seen := p.head :: seen
    p.body.filter (fun x => x != "" && !seen.contains x) ++ terminalsFrom seen ps

/-- The terminals, sorted, the end marker among them. -/
def terminals (g : Grammar) : List String :=
  sortSymbols (endMarker :: terminalsFrom [] g.productions)

/-- Every symbol written in the grammar, the end marker and the empty symbol included. -/
def symbols (g : Grammar) : List String :=
  sortSymbols (endMarker :: "" :: g.productions.flatMap fun p => p.head :: p.body)

/-- The production at an index. -/
def production? (g : Grammar) (i : Nat) : Option Production := g.productions[i]?

/-- The first index of a production equal to the one at `i`. -/
def firstCopy (g : Grammar) (i : Nat) : Nat :=
  match g.production? i with
  | some p => (g.productions.findIdx? (· == p)).getD i
  | none => i

/-- The last index of a production equal to the one at `i`: the number a reduction by it
reports. -/
def lastCopy (g : Grammar) (i : Nat) : Nat :=
  match g.production? i with
  | some p =>
    (g.productions.zipIdx.foldl (fun acc (q, j) => if q == p then j else acc) i)
  | none => i

example : (Grammar.mk [⟨"S", ["a", "T"]⟩, ⟨"T", ["S", "b"]⟩]).terminals = ["$", "T", "a", "b"] := by
  cbv

end Grammar
end Frontend
