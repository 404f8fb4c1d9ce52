import Frontend.Grammar.SetTable

/-! FIRST sets.

The FIRST set of a symbol holds the terminals that can begin what it derives, and the empty
symbol `""` when it can derive nothing at all. They are computed by whole scans over the
productions in order, each production's turn reading what the turns before it wrote; scans repeat
while some turn grew its head's set. A turn for a production with an empty body adds `""` to its
head but does not count as growth, so a scan that only did that is the last one, even when a
turn before it would have used the new `""`.

A terminal's set starts as the terminal itself. Every set only grows, and only by terminals and
`""`, so a scan that grows something can happen at most once per pair of a symbol and a member:
`fuel` bounds the number of scans. -/
namespace Frontend.Grammar

/-- A body's part in its head's FIRST set: each symbol's set less `""` joins the head's, up to
the first symbol whose set lacks `""`; says whether every symbol had it. -/
def firstOfBody (head : String) : List String → SetTable → SetTable × Bool
  | [], t => (t, true)
  | x :: rest, t =>
    let t := t.touch x
    let fx := t.get x
    let t := t.addAll head (fx.filter (· != ""))
    if fx.contains "" then firstOfBody head rest t else (t, false)

/-- One production's turn in a scan, and whether it counts as growth. -/
def firstStep (t : SetTable) (p : Production) : SetTable × Bool :=
  let t := t.touch p.head
  let before := t.size p.head
  if p.body.isEmpty then (t.add p.head "", false)
  else
    let (t, nullable) := firstOfBody p.head p.body t
    let t := if nullable then t.add p.head "" else t
    (t, before < t.size p.head)

/-- One scan over the productions, and whether some turn counted as growth. -/
def firstScan (ps : List Production) (t : SetTable) : SetTable × Bool :=
  ps.foldl (fun (acc : SetTable × Bool) p =>
    let r := firstStep acc.1 p
    (r.1, acc.2 || r.2)) (t, false)

/-- Scans until one does not grow, at most `fuel` of them. -/
def firstLoop (ps : List Production) : Nat → SetTable → SetTable
  | 0, t => t
  | n + 1, t =>
    let (t', changed) := firstScan ps t
    if changed then firstLoop ps n t' else t'

/-- More scans than can grow anything: one per pair of symbols, and one more. -/
def fuel (g : Grammar) : Nat := Nat.pow (g.symbols.length + 1) 2 + 1

/-- The FIRST sets of a grammar. -/
def firstSets (g : Grammar) : SetTable :=
  firstLoop g.productions g.fuel (g.terminals.foldl (fun t x => t.add x x) SetTable.empty)

/-- The FIRST set of a sequence of symbols, `""` included when every symbol has it, with the
symbols consulted held in the table. -/
def firstOfSequence : List String → SetTable → SetTable × List String
  | [], t => (t, [""])
  | x :: rest, t =>
    let t := t.touch x
    let fx := t.get x
    let here := fx.filter (· != "")
    if fx.contains "" then
      let (t, more) := firstOfSequence rest t
      (t, addSymbols here more)
    else (t, here)

end Frontend.Grammar
