import Frontend.Parse.Parser
import Frontend.Language.Lexer
import Frontend.Text.Breaks

/-! The front end from source file to parse report.

The source file is read with universal line breaks and scanned; the parser is built on its tokens
and a table file, and takes one step. The report is the step's log, then the step's message after
`ERROR` when it is an error and after `CORRECTO` otherwise, followed by a walk of the tree if the
parse built one. A table that cannot be loaded is reported as such. A missing source file is
reported, and then scanning has no text to read; a number that cannot be read stops the front
end before parsing. -/
namespace Frontend.Parse

/-- Why the front end stopped before its report was complete. -/
inductive Stop where
  /-- There was no source text to scan. -/
  | noSource
  /-- A number in the source could not be read. -/
  | unreadable (e : Decimal.WholeError)

/-- The report printed, and why the front end stopped early, if it did. -/
structure Report where
  output : String
  stop : Option Stop

/-- The name of the source file. -/
def sourceName : String := "codigo_fuente.txt"

/-- The parse report for tokens and a table file. -/
def parseReport (tokens : List Token) (file : TableFile) : String :=
  match Parser.create tokens file with
  | .error e => "\n Error en análisis sintáctico: " ++ e.message ++ "\n"
  | .ok p =>
    let (outcome, _) := p.analyze
    let log := String.join (outcome.log.map (· ++ "\n"))
    if outcome.message.startsWith "Error" then log ++ "\nERROR " ++ outcome.message ++ "\n"
    else
      let tree := match outcome.tree with
        | some t => "\nÁrbol sintáctico:\n" ++ t.walk.1
        | none => ""
      log ++ "\nCORRECTO " ++ outcome.message ++ "\n" ++ tree

/-- Runs the front end on a source file, if it exists, and a table file. -/
def runFrontEnd (source : Option String) (file : TableFile) : Report :=
  match source with
  | none =>
    ⟨"Error al leer archivo: [Errno 2] No such file or directory: '" ++ sourceName ++ "'\n",
      some .noSource⟩
  | some text =>
    let scan := Language.tokenize (Text.withUniversalBreaks text)
    match scan.failure with
    | some e => ⟨"", some (.unreadable e)⟩
    | none => ⟨parseReport scan.tokens.toList file, none⟩

end Frontend.Parse
