import Frontend.Parse.Rules
import Frontend.Csv.Read
import Frontend.Decimal.Whole
import Frontend.Text.Blank

/-! Parse tables read from comma-separated text.

A parse table maps a state and a symbol to a move: shift to a state, or reduce by a rule. Entries
keep the order in which they were first set; setting an entry again changes its move and keeps
its place.

A cell is read after trimming blanks. A cell of digits is a shift: digits of any script count,
also those, like superscripts, from which no number can be read, and then reading fails. A cell
with `->` names a rule: both sides of the first `->` are trimmed and joined again with ` -> `,
and a text that is no rule's gives no move. An empty cell gives no move, and any other text is not
recognised.

The file's first record names the columns, and the column `Nonterminal`, named exactly so, holds
each row's state, trimmed. Blank lines are skipped. A column named twice is read from its last
occurrence, in the place of its first. In a row shorter than the header the missing cells are
absent, and a missing state is an error; the extra cells of a longer row are ignored. Every other
cell is read, in column order, and a move sets the entry for the row's state and the column's
trimmed name. -/
namespace Frontend.Parse

/-- A move of a parse table. -/
inductive Move where
  | shift (state : Nat)
  | reduce (rule : Nat)
  deriving DecidableEq, Repr

/-- What a cell says. -/
inductive Cell where
  /-- A move. -/
  | move (m : Move)
  /-- Nothing: an empty cell, or a text that names no rule. -/
  | nothing
  /-- A text that is neither digits nor a rule. -/
  | unrecognized (text : String)

/-- The text before and after the first occurrence of a separator. -/
def splitFirst (sep : List Char) : List Char → Option (List Char × List Char)
  | [] => none
  | c :: rest =>
    if sep.isPrefixOf (c :: rest) then some ([], (c :: rest).drop sep.length)
    else (splitFirst sep rest).map fun (a, b) => (c :: a, b)

/-- Reads a cell's text. -/
def readCell (s : String) : Except Decimal.WholeError Cell :=
  let t := Text.trimChars s.toList
  if t.isEmpty then .ok .nothing
  else if t.all Text.isDigitLike then (Decimal.readWhole t).map fun n => .move (.shift n)
  else
    match splitFirst ['-', '>'] t with
    | some (left, right) =>
      let text := String.ofList (Text.trimChars left) ++ " -> " ++ String.ofList (Text.trimChars right)
      match ruleNumber? text with
      | some n => .ok (.move (.reduce n))
      | none => .ok .nothing
    | none => .ok (.unrecognized (String.ofList t))

/-- Moves keyed by state and symbol, in the order they were first set. -/
structure ParseTable where
  entries : List ((String × String) × Move)

namespace ParseTable

/-- The move for a state and a symbol. -/
def find? (t : ParseTable) (state symbol : String) : Option Move :=
  (t.entries.find? fun e => e.1 == (state, symbol)).map Prod.snd

/-- Sets the move for a state and a symbol. -/
def set (t : ParseTable) (state symbol : String) (m : Move) : ParseTable :=
  if t.entries.any (·.1 == (state, symbol)) then
    ⟨t.entries.map fun e => if e.1 == (state, symbol) then ((state, symbol), m) else e⟩
  else ⟨t.entries ++ [((state, symbol), m)]⟩

/-- The symbols that have a move in a state, in table order. -/
def symbolsOf (t : ParseTable) (state : String) : List String :=
  (t.entries.filter fun e => e.1.1 == state).map fun e => e.1.2

end ParseTable

/-- Why a table could not be loaded. -/
inductive LoadError where
  /-- The file does not exist. -/
  | missing (name : String)
  /-- The file is empty, so it names no columns. -/
  | noColumns
  /-- No column is named `Nonterminal`. -/
  | noStateColumn
  /-- A row has no cell in the state column. -/
  | noState
  /-- A cell of digits holds no number. -/
  | badNumber (e : Decimal.WholeError)
  /-- The text is not well formed. -/
  | format (e : Csv.ReadError)

/-- What a load error says. -/
def LoadError.message : LoadError → String
  | .missing name => "Error: Archivo CSV no encontrado: " ++ name
  | .format e => "Error de formato en CSV: " ++ e.message
  | .noColumns => "Error cargando tabla CSV: argument of type 'NoneType' is not iterable"
  | .noStateColumn => "Error cargando tabla CSV: El CSV debe tener columna 'Nonterminal'"
  | .noState => "Error cargando tabla CSV: 'NoneType' object has no attribute 'strip'"
  | .badNumber e => "Error cargando tabla CSV: " ++ e.message

/-- The name of the state column. -/
def stateColumn : String := "Nonterminal"

/-- A row's cells by column name, one per name in the place of its first column, with the value
of its last; `none` marks a cell the row is too short to have. -/
def keyedRow (header : List String) (row : List String) : List (String × Option String) :=
  let put (acc : List (String × Option String)) (k : String) (v : Option String) :=
    if acc.any (·.1 == k) then acc.map fun e => if e.1 == k then (k, v) else e
    else acc ++ [(k, v)]
  let given := (header.zip row).foldl (fun acc (k, v) => put acc k (some v)) []
  (header.drop row.length).foldl (fun acc k => put acc k none) given

/-- Adds a row's moves to a table. -/
def addRow (header : List String) (t : ParseTable) (row : List String) :
    Except LoadError ParseTable := do
  let cells := keyedRow header row
  let state ← match (cells.find? (·.1 == stateColumn)).bind Prod.snd with
    | some s => pure (Text.trim s)
    | none => throw .noState
  cells.foldlM (fun t (k, v) =>
    if k == stateColumn then pure t
    else match v with
      | none => pure t
      | some s => do
        match ← (readCell s).mapError LoadError.badNumber with
        | .move m => pure (t.set state (Text.trim k) m)
        | _ => pure t) t

/-- The table in a file's text. -/
def ParseTable.ofCsv (text : String) : Except LoadError ParseTable :=
  let (records, failure) := Csv.records ',' text
  match records with
  | [] => match failure with
    | some e => .error (.format e)
    | none => .error .noColumns
  | header :: rows =>
    if !header.contains stateColumn then .error .noStateColumn
    else do
      let t ← (rows.filter (· ≠ [])).foldlM (addRow header) ⟨[]⟩
      match failure with
      | some e => .error (.format e)
      | none => pure t

/-- A table file: its name, and its text if it exists. -/
structure TableFile where
  name : String
  text : Option String

/-- The table in a file. -/
def ParseTable.load (f : TableFile) : Except LoadError ParseTable :=
  match f.text with
  | some text => ParseTable.ofCsv text
  | none => .error (.missing f.name)

end Frontend.Parse
