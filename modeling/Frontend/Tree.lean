import Frontend.Token

/-! Syntax tree nodes.

A node records the rule that built it, the tokens it took, and its child nodes. `walk` prints a
node and, below it, every node under it, depth first; on its way it reverses the children of each
node it visits, and lists and descends into them in that reversed order, so that two walks in a
row show the children in opposite orders. A node's text is a header with its rule, its tokens'
values each followed by a tab, and its children's rules, each after `R` and followed by a tab. -/
namespace Frontend

/-- A syntax tree node: its rule, its tokens, and its children. -/
inductive Node where
  | mk (rule : Value) (terminals : List Token) (children : List Node)

namespace Node

/-- The rule that built the node. -/
def rule : Node → Value
  | mk r _ _ => r

/-- The tokens the node took. -/
def terminals : Node → List Token
  | mk _ ts _ => ts

/-- The node's children. -/
def children : Node → List Node
  | mk _ _ cs => cs

/-- A node with no tokens and no children. -/
def leaf (r : Value) : Node := mk r [] []

/-- The node with its tokens in reverse order. -/
def reverseTerminals : Node → Node
  | mk r ts cs => mk r ts.reverse cs

/-- The node with its children in reverse order. -/
def reverseChildren : Node → Node
  | mk r ts cs => mk r ts cs.reverse

/-- The header of a node's text, up to its children's rules. -/
def header (r : Value) (ts : List Token) (cs : List Node) : String :=
  "\n\nInicio R" ++ r.render ++ "\n↓\nTerminales:\n" ++
    String.join (ts.map fun t => t.value.render ++ "\t") ++ "\nNo Terminales:\n" ++
    String.join (cs.map fun c => "R" ++ c.rule.render ++ "\t")

mutual

/-- The text of a walk from a node, and the node afterwards. -/
def walk : Node → String × Node
  | mk r ts cs =>
    let (text, cs') := walkReversed cs
    (header r ts cs.reverse ++ text, mk r ts cs')

/-- Walks a list of nodes from the last to the first, giving the text of those walks and the
walked nodes in that reversed order. -/
def walkReversed : List Node → String × List Node
  | [] => ("", [])
  | n :: ns =>
    let (b, ns') := walkReversed ns
    let (a, n') := walk n
    (b ++ a, ns' ++ [n'])

end

end Node
end Frontend
