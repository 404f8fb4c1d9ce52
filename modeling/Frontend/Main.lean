import Frontend.Parse.Pipeline

/-! The front end as a command.

The command reads `codigo_fuente.txt` and `tabla_sintactica.csv` from the working directory,
tokenizes and parses the source with the table, and prints the report. A missing source is
reported on the output and the run then fails, as it does for a source holding a number too long
to read. -/
namespace Frontend

/-- The name of the table file. -/
def tableName : String := "tabla_sintactica.csv"

/-- The text of a file, or nothing when it cannot be read. -/
def readIfPresent (name : String) : IO (Option String) := do
  try
    let text ← IO.FS.readFile name
    pure (some text)
  catch _ =>
    pure none

end Frontend

/-- Runs the front end on the files of the working directory. -/
def main : IO UInt32 := do
  let source ← Frontend.readIfPresent Frontend.Parse.sourceName
  let table ← Frontend.readIfPresent Frontend.tableName
  let r := Frontend.Parse.runFrontEnd source ⟨Frontend.tableName, table⟩
  IO.print r.output
  match r.stop with
  | none => pure 0
  | some .noSource =>
    IO.eprintln "TypeError: 'NoneType' object is not subscriptable"
    pure 1
  | some (.unreadable e) =>
    IO.eprintln ("ValueError: " ++ e.message)
    pure 1
