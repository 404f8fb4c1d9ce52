/-! Reading delimited records.

A text is cut into lines at `\r\n`, `\r` and `\n`, each line keeping its break, and the lines are
read into records character by character. A field is plain or quoted. A quoted field starts with
a double quote where a field starts; inside it a doubled quote stands for one quote, and the
delimiter and line breaks are text, so a quoted field may run over several lines. A quote that
closes a quoted field may be followed by more text, which joins the field. A line break ends the
record; a line with nothing on it is a record with no fields. A quoted field still open at the end
of the text ends there, with its record.

A field may not grow past `fieldLimit` characters: reading stops with an error at the record that
holds such a field, keeping the records before it. -/
namespace Frontend.Csv

/-- The most characters a field may hold. -/
def fieldLimit : Nat := 131072

/-- Why reading stopped. -/
inductive ReadError where
  /-- A field grew past the limit. -/
  | fieldTooLarge
  /-- Text followed a line break on the same line. -/
  | textAfterBreak
  deriving DecidableEq

/-- What a reading error says. -/
def ReadError.message : ReadError → String
  | .fieldTooLarge => "field larger than field limit (" ++ toString fieldLimit ++ ")"
  | .textAfterBreak =>
    "new-line character seen in unquoted field - do you need to open the file with newline=''?"

/-- The lines of a text, each with its break; `acc` holds the current line, reversed. -/
def linesFrom : List Char → List Char → List (List Char)
  | acc, [] => if acc.isEmpty then [] else [acc.reverse]
  | acc, '\r' :: '\n' :: rest => ('\n' :: '\r' :: acc).reverse :: linesFrom [] rest
  | acc, '\r' :: rest => ('\r' :: acc).reverse :: linesFrom [] rest
  | acc, '\n' :: rest => ('\n' :: acc).reverse :: linesFrom [] rest
  | acc, c :: rest => linesFrom (c :: acc) rest

/-- The lines of a text, each with its break. -/
def lines (cs : List Char) : List (List Char) := linesFrom [] cs

/-- Where the reader stands. -/
inductive Mode where
  | startRecord | startField | inField | inQuoted | quoteInQuoted | afterBreak
  deriving DecidableEq

/-- The reader's state within a record. -/
structure Reader where
  mode : Mode
  field : Array Char
  fields : Array String

namespace Reader

/-- A reader at the start of a record. -/
def fresh : Reader := ⟨.startRecord, #[], #[]⟩

/-- Ends the current field. -/
def save (r : Reader) : Reader :=
  { r with field := #[], fields := r.fields.push (String.ofList r.field.toList) }

/-- Adds a character to the current field. -/
def addChar (r : Reader) (c : Char) : Except ReadError Reader :=
  if fieldLimit ≤ r.field.size then .error .fieldTooLarge else .ok { r with field := r.field.push c }

/-- Whether a character breaks lines. -/
def isBreak (c : Char) : Bool := c == '\n' || c == '\r'

/-- Reads a character at the start of a field. -/
def startField (delim : Char) (r : Reader) (c : Char) : Except ReadError Reader :=
  if isBreak c then .ok { r.save with mode := .afterBreak }
  else if c == '"' then .ok { r with mode := .inQuoted }
  else if c == delim then .ok { r.save with mode := .startField }
  else (r.addChar c).map fun r => { r with mode := .inField }

/-- Reads one character of a line. -/
def feed (delim : Char) (r : Reader) (c : Char) : Except ReadError Reader :=
  match r.mode with
  | .startRecord => if isBreak c then .ok { r with mode := .afterBreak } else startField delim r c
  | .startField => startField delim r c
  | .inField =>
    if isBreak c then .ok { r.save with mode := .afterBreak }
    else if c == delim then .ok { r.save with mode := .startField }
    else r.addChar c
  | .inQuoted =>
    if c == '"' then .ok { r with mode := .quoteInQuoted } else r.addChar c
  | .quoteInQuoted =>
    if c == '"' then (r.addChar c).map fun r => { r with mode := .inQuoted }
    else if c == delim then .ok { r.save with mode := .startField }
    else if isBreak c then .ok { r.save with mode := .afterBreak }
    else (r.addChar c).map fun r => { r with mode := .inField }
  | .afterBreak => if isBreak c then .ok r else .error .textAfterBreak

/-- Reads the end of a line. -/
def endLine (r : Reader) : Reader :=
  match r.mode with
  | .startField | .inField | .quoteInQuoted => { r.save with mode := .startRecord }
  | .afterBreak => { r with mode := .startRecord }
  | .startRecord | .inQuoted => r

end Reader

/-- Reads lines into records, after the records already read. -/
def recordsFrom (delim : Char) :
    Reader → List (List Char) → Array (List String) → Array (List String) × Option ReadError
  | r, [], acc =>
    if r.mode == .inQuoted then (acc.push r.save.fields.toList, none) else (acc, none)
  | r, line :: rest, acc =>
    match line.foldlM (Reader.feed delim) r with
    | .error e => (acc, some e)
    | .ok r =>
      let r := r.endLine
      if r.mode == .startRecord then recordsFrom delim Reader.fresh rest (acc.push r.fields.toList)
      else recordsFrom delim r rest acc

/-- The records of a text, and the error that stopped reading, if any. -/
def records (delim : Char) (text : String) : List (List String) × Option ReadError :=
  let (rs, e) := recordsFrom delim Reader.fresh (lines text.toList) #[]
  (rs.toList, e)

example : records ',' "a,\"b,c\"\n\nd\r\ne\"\"f" = ([["a", "b,c"], [], ["d"], ["e\"\"f"]], none) := by
  decide +kernel

example : records ',' ",\n" = ([["", ""]], none) := by
  decide +kernel

end Frontend.Csv
