import Frontend.Csv.Read
import Frontend.Text.Blank

/-! Predictive parse tables read from semicolon-separated text.

A predictive table maps a symbol on top of the stack and the current input token to the body
that replaces the symbol. The text's first record lists, after one cell that is not read, the
terminal of each column. Every later record is a row: its first cell is the symbol, taken as it
is, and every later cell is a body, its symbols separated by blanks. A blank cell holds no body.
The symbol `ε` stands for the empty body.

A row's cell past the last terminal is an error when it holds a body, as is a record with no
cells at all, which is what a blank line reads as, and a text with no record. A pair set twice
keeps the body set last. -/
namespace Frontend.Predictive

/-- The symbol that stands for the empty body. -/
def emptyMark : String := "ε"

/-- The symbol that ends the input and lies under the stack. -/
def endMark : String := "$"

/-- The symbol every analysis starts from. -/
def startSymbol : String := "E"

/-- A table from a stack symbol and a token to a body, in the order the pairs were first set. -/
structure Table where
  /-- The pairs with their bodies. -/
  entries : List ((String × String) × List String)
  deriving DecidableEq

namespace Table

/-- The table with no entry. -/
def empty : Table := ⟨[]⟩

/-- The body for a stack symbol and a token. -/
def find? (t : Table) (symbol token : String) : Option (List String) :=
  (t.entries.find? fun e => e.1 == (symbol, token)).map Prod.snd

/-- Sets the body for a stack symbol and a token, in the pair's place if it has one. -/
def set (t : Table) (symbol token : String) (body : List String) : Table :=
  if t.entries.any (·.1 == (symbol, token)) then
    ⟨t.entries.map fun e => if e.1 == (symbol, token) then ((symbol, token), body) else e⟩
  else ⟨t.entries ++ [((symbol, token), body)]⟩

/-- The longest body of the table. -/
def widest (t : Table) : Nat := t.entries.foldl (fun m e => max m e.2.length) 0

end Table

/-- The body a cell holds: its words, or nothing when it is blank.

Trimming a cell before splitting it changes nothing, since splitting drops blanks at either end,
and a cell holding `ε` alone splits to that one symbol. -/
def cellBody? (cell : String) : Option (List String) :=
  match Text.words cell with
  | [] => none
  | ws => some ws

/-- Why a table could not be read. -/
inductive LoadError where
  /-- The text is not well-formed delimited text. -/
  | malformed (e : Csv.ReadError)
  /-- A record is missing, or a body lies past the last terminal. -/
  | outOfRange
  deriving DecidableEq

/-- The name of the kind of failure a load error is. -/
def LoadError.kind : LoadError → String
  | .malformed _ => "Error"
  | .outOfRange => "IndexError"

/-- What a load error says. -/
def LoadError.message : LoadError → String
  | .malformed e => e.message
  | .outOfRange => "list index out of range"

/-- Adds a row's cells, from column `i` on, to a table. -/
def addCells (terminals : List String) (symbol : String) :
    Nat → List String → Table → Except LoadError Table
  | _, [], t => .ok t
  | i, cell :: rest, t =>
    match cellBody? cell with
    | none => addCells terminals symbol (i + 1) rest t
    | some body =>
      match terminals[i]? with
      | none => .error .outOfRange
      | some token => addCells terminals symbol (i + 1) rest (t.set symbol token body)

/-- Adds rows to a table. -/
def addRows (terminals : List String) : List (List String) → Table → Except LoadError Table
  | [], t => .ok t
  | [] :: _, _ => .error .outOfRange
  | (symbol :: cells) :: rest, t => do
    let t ← addCells terminals symbol 0 cells t
    addRows terminals rest t

/-- Reads a table from semicolon-separated text. The whole text is read first, so a malformed
text fails before any row is looked at. -/
def Table.ofCsv (text : String) : Except LoadError Table :=
  match Csv.records ';' text with
  | (_, some e) => .error (.malformed e)
  | ([], none) => .error .outOfRange
  | (header :: rows, none) => addRows (header.drop 1) rows .empty

/-- The table for sums and products of `int` with parentheses, as semicolon-separated text. -/
def defaultText : String :=
  ";int;mult;mas;par_izq;par_der;$\r\n" ++
  "E;T X;;;T X;;\r\n" ++
  "X;;; mas E;;ε;ε\r\n" ++
  "T;int Y;; ;par_izq E par_der;; \r\n" ++
  "Y;;mult T;ε;;ε;ε\r\n"

/-! ### Reading -/

theorem cellBody?_ne_nil {cell : String} {body : List String} (h : cellBody? cell = some body) :
    body ≠ [] := by
  unfold cellBody? at h
  split at h
  · cases h
  · cases h; assumption

theorem find?_set_self (t : Table) (symbol token : String) (body : List String) :
    (t.set symbol token body).find? symbol token = some body := by
  unfold Table.set Table.find?
  split
  · rename_i h
    obtain ⟨e, he, hk⟩ := List.any_eq_true.mp h
    have : (List.map (fun e => if e.1 == (symbol, token) then ((symbol, token), body) else e)
        t.entries).find? (fun e => e.1 == (symbol, token)) = some ((symbol, token), body) := by
      rw [List.find?_map]
      have hsome : (t.entries.find? ((fun e => e.1 == (symbol, token)) ∘
          fun e => if e.1 == (symbol, token) then ((symbol, token), body) else e)).isSome := by
        rw [List.find?_isSome]
        exact ⟨e, he, by simp_all⟩
      obtain ⟨f, hf⟩ := Option.isSome_iff_exists.mp hsome
      rw [hf]
      have hp := List.find?_some hf
      by_cases hk : f.1 = (symbol, token)
      · simp [hk]
      · simp [hk] at hp
    rw [this]; rfl
  · rename_i h
    simp only [Bool.not_eq_true, List.any_eq_false] at h
    rw [List.find?_append]
    have : t.entries.find? (fun e => e.1 == (symbol, token)) = none := by
      rw [List.find?_eq_none]
      intro e he
      simpa using h e he
    simp [this]

theorem find?_map_other (entries : List ((String × String) × List String))
    {key key' : String × String} (hne : key' ≠ key) (body : List String) :
    (entries.map fun e => if e.1 == key then (key, body) else e).find? (·.1 == key') =
      entries.find? (·.1 == key') := by
  induction entries with
  | nil => rfl
  | cons e rest ih =>
    rw [List.map_cons, List.find?_cons, List.find?_cons]
    by_cases hk : e.1 = key
    · have hne' : (key == key') = false := beq_false_of_ne (Ne.symm hne)
      simp only [hk, beq_self_eq_true, if_true, hne']
      exact ih
    · have hb : (e.1 == key) = false := by simpa using hk
      simp only [hb, Bool.false_eq_true, if_false]
      split <;> simp_all

theorem find?_set_other (t : Table) {symbol token symbol' token' : String} (body : List String)
    (hne : (symbol', token') ≠ (symbol, token)) :
    (t.set symbol token body).find? symbol' token' = t.find? symbol' token' := by
  unfold Table.set Table.find?
  split
  · rw [find?_map_other _ hne]
  · rw [List.find?_append]
    cases h : t.entries.find? (fun e => e.1 == (symbol', token')) with
    | some e => simp
    | none =>
      have hb : ((symbol, token) == (symbol', token')) = false := beq_false_of_ne (Ne.symm hne)
      simp [hb]

end Frontend.Predictive
