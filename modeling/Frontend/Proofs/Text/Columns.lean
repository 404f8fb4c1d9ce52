import Mathlib
import Frontend.Text.Box

/-! When the columns of a box line up.

A box is printed line by line: a rule, the titles, a rule, one line per row and a closing rule
(`boxLines`). With every width non-negative, a rule is `1 + Σ (w + 3)` characters long. A line of
cells is as long as a rule plus what its cells *overflow* (`overflow`): a cell that fits its
column is padded to the width, and a wider one is cut three short of the width and closed with
three dots, which fills the column exactly when it is at least three wide. In a narrower column
the cut counts from the back and keeps all but `3 - w` characters, so the cell runs past its
column.

`columns_line_up_iff_cells_fit`: every line of a box is as long as its rule exactly when each
cell, the titles and the spelled-out data cells alike, fits its column or stands in a column at
least three wide. -/
namespace Frontend.Text

/-! ### Cells -/

theorem length_cut (s : String) (n : Int) :
    (cut s n).length = if 0 ≤ n then min n.toNat s.length else s.length - n.natAbs := by
  unfold cut
  split <;> simp [String.length_toList]

/-- How many characters a cell's fitted text takes beyond its column: none when the text fits or
the column is at least three wide; else the dots and what the cut keeps, less the width. -/
def overflow (width : Int) (s : String) : Nat :=
  if (s.length : Int) ≤ width ∨ 3 ≤ width then 0
  else s.length - (3 - width).toNat + 3 - width.toNat

theorem length_fit (width : Int) (s : String) :
    (fit width s).length = width.toNat + overflow width s := by
  have hdots : "...".length = 3 := by decide
  unfold fit overflow
  rw [apply_ite String.length, String.length_append, length_cut, padRight_length, hdots]
  split_ifs <;> omega

theorem overflow_eq_zero_iff {width : Int} {s : String} :
    overflow width s = 0 ↔ (s.length : Int) ≤ width ∨ 3 ≤ width := by
  unfold overflow
  split_ifs with h
  · exact iff_of_true rfl h
  · exact iff_of_false (by omega) h

/-! ### Lines -/

/-- The lines of a box, in the order they are printed. -/
def boxLines (rows : List (List String)) (titles : List String) (widths : List Int) :
    List String :=
  rule widths :: boxLine titles widths :: rule widths ::
    (rows.map fun row => boxLine (row.map spellOut) widths) ++ [rule widths]

theorem box_eq_join_boxLines (rows : List (List String)) (titles : List String)
    (widths : List Int) :
    box rows titles widths = String.join ((boxLines rows titles widths).map (· ++ "\n")) := by
  simp [box, boxLines, String.join_cons, String.join_append, String.append_assoc,
    Function.comp_def]

theorem mem_boxLines {rows : List (List String)} {titles : List String} {widths : List Int}
    {line : String} :
    line ∈ boxLines rows titles widths ↔ line = rule widths ∨
      ∃ cells ∈ titles :: rows.map (·.map spellOut), line = boxLine cells widths := by
  simp only [boxLines, List.mem_cons, List.mem_append, List.mem_map, List.not_mem_nil, or_false,
    exists_eq_or_imp, exists_exists_and_eq_and, eq_comm (a := line)]
  grind

/-- Texts joined by a separator, with one more separator, take a separator's length per text. -/
theorem length_intercalate_add (sep : String) {l : List String} (h : l ≠ []) :
    (sep.intercalate l).length + sep.length = (l.map fun s => s.length + sep.length).sum := by
  induction l with
  | nil => exact absurd rfl h
  | cons t rest ih =>
    cases rest with
    | nil => simp [String.intercalate_singleton]
    | cons u l =>
      rw [String.intercalate_cons_cons, String.length_append, String.length_append,
        List.map_cons, List.sum_cons, ← ih (List.cons_ne_nil u l)]
      omega

theorem length_rule {widths : List Int} (hw : ∀ w ∈ widths, 0 ≤ w) (hne : widths ≠ []) :
    (rule widths).length = 1 + (widths.map fun w => w.toNat + 3).sum := by
  have hplus : "+".length = 1 := by decide
  have hsep := length_intercalate_add "+" (l := widths.map fun w =>
    String.ofList (List.replicate (w + 2).toNat '-')) (by simpa using hne)
  -- each run of dashes is two wider than its column, and a `+` closes it
  have hsum : ((widths.map fun w => String.ofList (List.replicate (w + 2).toNat '-')).map
      fun s => s.length + "+".length).sum = (widths.map fun w => w.toNat + 3).sum := by
    simp only [List.map_map]
    congr 1
    refine List.map_congr_left fun w hmem => ?_
    have := hw w hmem
    simp only [Function.comp_apply, String.length_ofList, List.length_replicate, hplus]
    omega
  simp only [rule, String.length_append, hplus] at hsep hsum ⊢
  omega

theorem length_boxLine (cells : List String) (widths : List Int) :
    (boxLine cells widths).length =
      1 + ((cells.zip widths).map fun p => p.2.toNat + 3 + overflow p.2 p.1).sum := by
  have hbar : "|".length = 1 := by decide
  have hcell : ∀ p : String × Int, (" " ++ fit p.2 p.1 ++ " |").length =
      p.2.toNat + 3 + overflow p.2 p.1 := by
    intro p
    have hsp : " ".length = 1 := by decide
    have hend : " |".length = 2 := by decide
    rw [String.length_append, String.length_append, length_fit, hsp, hend]
    omega
  simp only [boxLine, String.length_append, String.length_join, List.map_map, hbar]
  exact congrArg (1 + List.sum ·) (List.map_congr_left fun p _ => hcell p)

/-- A line with a cell for each column is as long as a rule, and longer by what its cells
overflow. -/
theorem length_boxLine_of_le {cells : List String} {widths : List Int}
    (hlen : widths.length ≤ cells.length) :
    (boxLine cells widths).length = 1 + (widths.map fun w => w.toNat + 3).sum +
      ((cells.zip widths).map fun p => overflow p.2 p.1).sum := by
  have hcols : ((cells.zip widths).map fun p => p.2.toNat + 3) =
      widths.map fun w => w.toNat + 3 := by
    conv_rhs => rw [← List.map_snd_zip hlen, List.map_map]
    rfl
  rw [length_boxLine, List.sum_map_add, hcols, Nat.add_assoc]

theorem length_boxLine_eq_iff {cells : List String} {widths : List Int}
    (hlen : widths.length ≤ cells.length) :
    (boxLine cells widths).length = 1 + (widths.map fun w => w.toNat + 3).sum ↔
      ∀ p ∈ cells.zip widths, (p.1.length : Int) ≤ p.2 ∨ 3 ≤ p.2 := by
  rw [length_boxLine_of_le hlen, Nat.add_eq_left, List.sum_eq_zero_iff, List.forall_mem_map]
  exact forall₂_congr fun _ _ => overflow_eq_zero_iff

theorem sum_toNat_add_three {widths : List Int} (hw : ∀ w ∈ widths, 0 ≤ w) :
    (((widths.map fun w => w.toNat + 3).sum : Nat) : Int) = (widths.map (· + 3)).sum := by
  induction widths with
  | nil => rfl
  | cons w ws ih =>
    have hw₀ := hw w List.mem_cons_self
    rw [List.map_cons, List.map_cons, List.sum_cons, List.sum_cons, Nat.cast_add,
      ih fun v hv => hw v (List.mem_cons_of_mem w hv)]
    omega

/-! ### The box -/

/-- **The columns of a box line up exactly when no cell runs past its column.** With non-negative
widths, at least one column, and a title and a value in each row for every column, every printed
line is `1 + Σ (w + 3)` characters long if and only if each title and each spelled-out data cell
fits its column or stands in a column at least three wide. -/
theorem columns_line_up_iff_cells_fit {rows : List (List String)} {titles : List String}
    {widths : List Int} (hw : ∀ w ∈ widths, 0 ≤ w) (hne : widths ≠ [])
    (htitles : widths.length ≤ titles.length) (hrows : ∀ row ∈ rows, widths.length ≤ row.length) :
    box rows titles widths = String.join ((boxLines rows titles widths).map (· ++ "\n")) ∧
      ((∀ line ∈ boxLines rows titles widths, (line.length : Int) = 1 + (widths.map (· + 3)).sum) ↔
        ∀ cells ∈ titles :: rows.map (·.map spellOut), ∀ p ∈ cells.zip widths,
          (p.1.length : Int) ≤ p.2 ∨ 3 ≤ p.2) := by
  refine ⟨box_eq_join_boxLines rows titles widths, ?_⟩
  have hcells : ∀ cells ∈ titles :: rows.map (·.map spellOut), widths.length ≤ cells.length := by
    simp only [List.mem_cons, List.mem_map]
    rintro cells (rfl | ⟨row, hrow, rfl⟩)
    · exact htitles
    · simpa using hrows row hrow
  have hwidth : ∀ n : Nat, (n : Int) = 1 + (widths.map (· + 3)).sum ↔
      n = 1 + (widths.map fun w => w.toNat + 3).sum := by
    intro n
    rw [← sum_toNat_add_three hw]
    omega
  simp only [hwidth]
  constructor
  · intro h cells hmem
    exact (length_boxLine_eq_iff (hcells cells hmem)).mp
      (h _ (mem_boxLines.mpr (Or.inr ⟨cells, hmem, rfl⟩)))
  · intro h line hline
    rcases mem_boxLines.mp hline with rfl | ⟨cells, hmem, rfl⟩
    · exact length_rule hw hne
    · exact (length_boxLine_eq_iff (hcells cells hmem)).mpr (h cells hmem)

/-- A three-letter title in a column of width zero comes out as three dots, and the box's lines
no longer line up. -/
theorem columns_split_by_narrow_title :
    (∀ w ∈ [(0 : Int)], 0 ≤ w) ∧ [(0 : Int)] ≠ [] ∧ [(0 : Int)].length ≤ ["abc"].length ∧
      (∀ row ∈ [["x"]], [(0 : Int)].length ≤ row.length) ∧
      ¬ ∀ line ∈ boxLines [["x"]] ["abc"] [0],
        (line.length : Int) = 1 + ([(0 : Int)].map (· + 3)).sum := by
  have hw : ∀ w ∈ [(0 : Int)], 0 ≤ w := by decide
  have ht : [(0 : Int)].length ≤ ["abc"].length := by decide
  have hr : ∀ row ∈ [["x"]], [(0 : Int)].length ≤ row.length := by decide
  refine ⟨hw, List.cons_ne_nil _ _, ht, hr, fun h => ?_⟩
  have hfit := (columns_line_up_iff_cells_fit hw (List.cons_ne_nil _ _) ht hr).2.mp h
  exact absurd hfit (by decide)

end Frontend.Text
