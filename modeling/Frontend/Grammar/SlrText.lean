import Frontend.Grammar.Slr
import Frontend.Csv.Write
import Frontend.Text.Layout

/-! An SLR(1) table as text: a printed listing and a comma-separated file.

Both show one column per terminal, then one per nonterminal other than the start symbol, each in
sorted order, and one row per state. An action is written `acc`, `s` and the target state, or `r`
and the production's number; an absent entry is empty. The productions follow, numbered from 0,
an empty body written `epsilon` in the listing and `ε` in the file. In the listing the state
column is eight characters wide and every other column twelve. -/
namespace Frontend.SlrAnalysis

/-- How an action is written. -/
def actionText : SlrAction → String
  | .accept => "acc"
  | .shift j => "s" ++ toString j
  | .reduce n => "r" ++ toString n

/-- The nonterminals that have a column: all but the start symbol. -/
def gotoColumns (a : SlrAnalysis) : List String := a.nonterminals.filter (· != a.start)

/-- A row's cells, one per column. -/
def cells (a : SlrAnalysis) (i : Nat) : List String :=
  let actions := a.table.actions.getD i []
  let gotos := a.table.gotos.getD i []
  a.terminals.map (fun t => ((actions.lookup t).map actionText).getD "") ++
    a.gotoColumns.map fun n => ((gotos.lookup n).map toString).getD ""

/-- A production as `head arrow body`, with a word for the empty body. -/
def productionText (arrow empty : String) (p : Production) : String :=
  p.head ++ " " ++ arrow ++ " " ++ (if p.body.isEmpty then empty else " ".intercalate p.body)

/-- The printed listing. -/
def listing (a : SlrAnalysis) : String :=
  let header := Text.padRight 8 "State" ++
    String.join ((a.terminals ++ a.gotoColumns).map (Text.padRight 12)) ++ "\n"
  let rows := (List.range a.table.actions.size).map fun i =>
    Text.padRight 8 (toString i) ++ String.join ((a.cells i).map (Text.padRight 12)) ++ "\n"
  let productions := a.grammar.productions.zipIdx.map fun (p, i) =>
    toString i ++ ": " ++ productionText "->" "epsilon" p ++ "\n"
  "SLR(1) Parsing Table\n" ++ String.ofList (List.replicate 80 '=') ++ "\n" ++ header ++
    String.join rows ++ "\nProductions:\n" ++ String.join productions

/-- The comma-separated file. -/
def csv (a : SlrAnalysis) : String :=
  let header := Csv.record ',' ("State" :: a.terminals ++ a.gotoColumns)
  let rows := (List.range a.table.actions.size).map fun i =>
    Csv.record ',' (toString i :: a.cells i)
  let productions := a.grammar.productions.zipIdx.map fun (p, i) =>
    Csv.record ',' [toString i, productionText "→" "ε" p]
  header ++ String.join rows ++ Csv.record ',' [] ++ Csv.record ',' ["Productions:"] ++
    String.join productions

end Frontend.SlrAnalysis
