import Frontend.Text.Layout

/-! Tables drawn in boxes.

A box is a rule, a line of titles, a rule, one line per row, and a closing rule. A rule is a run
of dashes two wider than each column, the runs joined and closed by `+`. A line holds each cell
between a space on the left and ` |` on the right, after a leading `|`; a cell and a column are
paired in order, and whichever of the two lists is longer has its tail dropped.

A cell that fits its column is padded with spaces to the width. A wider cell is cut three
characters short of the width and closed with three dots, the cut counted from the back when the
width is under three, so a cell wider than its column may still come out wider; `fit_length`
says a cell that fits fills its column exactly. In data cells, though not in titles, `→` is spelled
`->` and `ε` is spelled `epsilon` first. -/
namespace Frontend.Text

/-- A cell's text fitted to a width. -/
def fit (width : Int) (s : String) : String :=
  if width < s.length then cut s (width - 3) ++ "..." else padRight width.toNat s

/-- The rule drawn above, between and below the parts of a box. -/
def rule (widths : List Int) : String :=
  "+" ++ "+".intercalate (widths.map fun w => String.ofList (List.replicate (w + 2).toNat '-')) ++
    "+"

/-- A line of cells, each fitted to its column. -/
def boxLine (cells : List String) (widths : List Int) : String :=
  "|" ++ String.join ((cells.zip widths).map fun (c, w) => " " ++ fit w c ++ " |")

/-- A character of a data cell, spelled out. -/
def spellChar (c : Char) : List Char :=
  if c = '→' then "->".toList else if c = 'ε' then "epsilon".toList else [c]

/-- A data cell's text with the arrow and epsilon spelled out. -/
def spellOut (s : String) : String := String.ofList (s.toList.flatMap spellChar)

/-- The box of rows under titles, with the given column widths; every line ends in a break. -/
def box (rows : List (List String)) (titles : List String) (widths : List Int) : String :=
  let r := rule widths ++ "\n"
  r ++ boxLine titles widths ++ "\n" ++ r ++
    String.join (rows.map fun row => boxLine (row.map spellOut) widths ++ "\n") ++ r

/-- **A cell that fits its column fills it exactly.** -/
theorem fit_length (width : Int) (s : String) (h : (s.length : Int) ≤ width) :
    (fit width s).length = width.toNat := by
  unfold fit
  rw [if_neg (Int.not_lt.mpr h), padRight_length]
  omega

example : fit 3 "ab" = "ab " := by decide
example : fit 0 "abcdef" = "abc..." := by decide
example : spellOut "ε→" = "epsilon->" := by decide

end Frontend.Text
