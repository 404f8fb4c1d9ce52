import Frontend.Language.Grammar
import Frontend.Tree

/-! The rules a parse table names, and the children a reduction takes.

Rules are the language's productions, numbered from 0 in the grammar's order; a parse table
names a rule by its text `head -> body`, an empty body written `ε`. A reduction by a rule builds a
node and gives it, as children, some of the nodes already built, taken from the end of their list:
none, one, two (kept in their order), or up to three, four or seven, as many as there are. Each
rule says how many; a number that is no rule has no such count, and building a node for it fails. -/
namespace Frontend.Parse

/-- A production as a parse table writes it. -/
def ruleText (p : Production) : String :=
  p.head ++ " -> " ++ (if p.body.isEmpty then "ε" else " ".intercalate p.body)

/-- The rule with a number. -/
def rule? (n : Nat) : Option Production := Language.grammar.productions[n]?

/-- The number of the rule with a text. -/
def ruleNumber? (text : String) : Option Nat :=
  Language.grammar.productions.findIdx? fun p => ruleText p == text

/-- How many built nodes a reduction takes as children. -/
inductive Children where
  | none
  | one
  | two
  | upTo (n : Nat)

/-- The children a reduction by each rule takes. -/
def childrenOf (n : Nat) : Option Children :=
  if [2, 14, 16, 19, 26, 28, 32, 35, 38, 39, 40, 43, 44, 45, 46, 47, 50, 51, 52, 55, 56, 57, 60,
      61, 62, 63, 64, 65, 66, 67, 71].contains n then some .none
  else if [0, 7, 8, 9, 10, 11, 18, 30, 33, 36, 41, 48, 53, 58, 68].contains n then some .one
  else if [1, 13, 25, 29, 31, 34, 37, 42, 49, 54, 59, 69, 70].contains n then some .two
  else if [3, 6, 17, 20, 24].contains n then some (.upTo 4)
  else if [4, 5, 12, 15, 22, 23, 27].contains n then some (.upTo 3)
  else if n == 21 then some (.upTo 7)
  else none

/-- Why a node could not take its children. -/
inductive ChildError where
  /-- A rule that takes one child found no node. -/
  | noNode (rule : Value)
  /-- A rule that takes two children found fewer nodes. -/
  | tooFewNodes (rule : Value)
  /-- The number is no rule. -/
  | unknownRule (rule : Value)

/-- What a child error says. -/
def ChildError.message : ChildError → String
  | .noNode r => "Error: No hay nodos no terminales para la regla " ++ r.render
  | .tooFewNodes r => "Error: No hay suficientes nodos no terminales para la regla " ++ r.render
  | .unknownRule r =>
    "Error: Regla " ++ r.render ++ " no implementada para agregar nodos no terminales"

/-- Gives a node the children its rule takes from the end of the built nodes; returns the node and
the nodes left. A rule is named by a value, which counts as a rule number when it equals a whole
number. -/
def attachChildren (rule : Value) (node : Node) (built : List Node) :
    Except ChildError (Node × List Node) :=
  let count := rule.wholeValue?.bind fun n => if 0 ≤ n then childrenOf n.toNat else Option.none
  match node, count with
  | _, some .none => .ok (node, built)
  | .mk r ts cs, some .one =>
    match built.getLast? with
    | some last => .ok (.mk r ts (cs ++ [last]), built.dropLast)
    | Option.none => .error (.noNode rule)
  | .mk r ts cs, some .two =>
    match built.reverse with
    | b :: a :: rest => .ok (.mk r ts (cs ++ [b, a]).reverse, rest.reverse)
    | _ => .error (.tooFewNodes rule)
  | .mk r ts cs, some (.upTo k) =>
    let m := min k built.length
    .ok (.mk r ts (cs ++ built.drop (built.length - m)), built.take (built.length - m))
  | _, Option.none => .error (.unknownRule rule)

end Frontend.Parse
