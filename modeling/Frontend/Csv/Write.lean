/-! Writing delimited records.

A record is written as its fields joined by the delimiter and ended by `\r\n`. A field is quoted
only when it must be: when it holds the delimiter, a double quote, or a line break; inside quotes
a double quote is doubled. A record of one empty field is written as two quotes, so that it does
not read back as an empty record. -/
namespace Frontend.Csv

/-- Whether a field must be quoted. -/
def needsQuotes (delim : Char) (s : String) : Bool :=
  s.any fun c => c == delim || c == '"' || c == '\n' || c == '\r'

/-- A field as written. -/
def field (delim : Char) (s : String) : String :=
  if needsQuotes delim s then
    "\"" ++ String.ofList (s.toList.flatMap fun c => if c == '"' then ['"', '"'] else [c]) ++ "\""
  else s

/-- A record as written, with its line end. -/
def record (delim : Char) (fields : List String) : String :=
  match fields with
  | [""] => "\"\"\r\n"
  | _ => String.intercalate (String.singleton delim) (fields.map (field delim)) ++ "\r\n"

example : record ',' ["a", "b,c", "d\"e"] = "a,\"b,c\",\"d\"\"e\"\r\n" := by cbv
example : record ',' [] = "\r\n" := by decide

end Frontend.Csv
