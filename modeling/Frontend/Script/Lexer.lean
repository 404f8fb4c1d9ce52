import Frontend.Scanner.Run
import Frontend.Decimal.Nearest
import Frontend.Decimal.Whole
import Frontend.Text.Quoted
import Frontend.Text.Breaks

/-! The scanner of the script dialect, and its token report.

The dialect is an earlier form of the language. Its rules, in the order they are tried: an
identifier, a whole number, a number with a point, a text in double quotes, the two kinds of
comment, a run of line breaks, then the operators, two-character ones first. Since whole numbers
come before numbers with a point, `3.5` is the number `3`, a stray point, and the number `5`; and
since identifiers come first, the word operators `y`, `o` and `no` are identifiers. Keywords are
recognised in lower case only, and the keyword for definitions is `funcion`.

The source is read with every `\r\n` and every lone `\r` taken as a line break. The report lists
first the stray characters, each with its line and column, then one line per token in the form
`{'type': …, 'lexeme': …, 'line': …, 'column': …}`, texts quoted. -/
namespace Frontend.Script

open Scanner

/-- A token class of the script dialect. -/
inductive Kind where
  | identifier | whole | real | text
  | assign | plus | minus | times | divide | equal | notEqual | greater | less
  | logicalAnd | logicalOr | negation
  | comma | leftParen | rightParen | leftBrace | rightBrace | leftBracket | rightBracket
  | kwIf | kwElse | kwWhile | kwFor | kwDefine | kwReturn | kwTrue | kwFalse | kwPrint
  deriving DecidableEq, Repr

namespace Kind

/-- The name a token class goes by. -/
def name : Kind → String
  | identifier => "IDENTIFICADOR"
  | whole => "ENTERO"
  | real => "DECIMAL"
  | text => "CADENA"
  | assign => "ASIGNACION"
  | plus => "SUMA"
  | minus => "RESTA"
  | times => "MULTIPLICACION"
  | divide => "DIVISION"
  | equal => "IGUALDAD"
  | notEqual => "DESIGUALDAD"
  | greater => "MAYORQUE"
  | less => "MENORQUE"
  | logicalAnd => "YLOGICO"
  | logicalOr => "OLOGICO"
  | negation => "NEGACION"
  | comma => "COMA"
  | leftParen => "PARENTESISAPERTURA"
  | rightParen => "PARENTESISCIERRE"
  | leftBrace => "LLAVEAPERTURA"
  | rightBrace => "LLAVECIERRE"
  | leftBracket => "CORCHETEAPERTURA"
  | rightBracket => "CORCHETECERRADURA"
  | kwIf => "SI"
  | kwElse => "SINO"
  | kwWhile => "MIENTRAS"
  | kwFor => "PARA"
  | kwDefine => "DEFINIR"
  | kwReturn => "RETORNAR"
  | kwTrue => "VERDADERO"
  | kwFalse => "FALSO"
  | kwPrint => "IMPRIMIR"

/-- The keywords, spelled exactly. -/
def keywords : List (String × Kind) :=
  [("si", kwIf), ("sino", kwElse), ("mientras", kwWhile), ("para", kwFor),
   ("funcion", kwDefine), ("retornar", kwReturn), ("verdadero", kwTrue), ("falso", kwFalse),
   ("imprimir", kwPrint)]

/-- The class of a word: the keyword it spells, else an identifier. -/
def ofWord (w : String) : Kind :=
  ((keywords.find? fun p => p.1 == w).map Prod.snd).getD identifier

end Kind

/-- Decimal digits of any script. -/
def isDigit (c : Char) : Bool := Text.isDecimalDigit c

/-- A token of a fixed class whose value is its text. -/
def plain (k : Kind) : Action Decimal.WholeError Kind :=
  .token fun cs => .ok (k, .text (String.ofList cs))

/-- The operators, two-character ones first. -/
def operators : List (String × Kind) :=
  [("+", .plus), ("*", .times), ("==", .equal), ("!=", .notEqual), ("no", .negation),
   ("(", .leftParen), (")", .rightParen), ("\x7b", .leftBrace), ("\x7d", .rightBrace),
   ("[", .leftBracket), ("]", .rightBracket), ("=", .assign), ("-", .minus), ("/", .divide),
   (">", .greater), ("<", .less), ("y", .logicalAnd), ("o", .logicalOr), (",", .comma)]

/-- The dialect's scanner. -/
def lexer : Lexer Decimal.WholeError Kind where
  rules :=
    [ ⟨Pattern.span (fun c => c.isAlpha || c == '_') (fun c => c.isAlphanum || c == '_'),
        .token fun cs => .ok (Kind.ofWord (String.ofList cs), .text (String.ofList cs))⟩,
      ⟨Pattern.span isDigit isDigit,
        .token fun cs => (Decimal.readWhole cs).map fun n => (.whole, .int n)⟩,
      ⟨(Pattern.span isDigit isDigit).andThen
          ((Pattern.word ['.']).andThen (Pattern.span isDigit isDigit)),
        .token fun cs =>
          match Decimal.ofParts? (cs.takeWhile (· != '.')) ((cs.dropWhile (· != '.')).drop 1) with
          | some d => .ok (.real, .real d.toFloat)
          | none => .error (.notDecimal (String.ofList cs))⟩,
      ⟨Pattern.quoted, .token fun cs => .ok (.text, .text (String.ofList (cs.drop 1).dropLast))⟩,
      ⟨(Pattern.word ['/', '/']).thenWhile (· != '\n'), .skip⟩,
      ⟨Pattern.between ['/', '*'] ['*', '/'], .skip⟩,
      ⟨Pattern.span (· == '\n') (· == '\n'), .lineBreaks⟩ ] ++
    operators.map fun (w, k) => ⟨Pattern.word w.toList, plain k⟩
  blank c := c == ' ' || c == '\t'

/-- How a token's value is written in the report: texts quoted, numbers as they are. -/
def writeValue : Value → String
  | .text s => Text.quote s
  | v => v.render

/-- The report line of a stray character. -/
def strayLine (s : Stray) : String :=
  "Carácter ilegal '" ++ String.singleton s.char ++ "' en línea " ++ toString s.line ++
    ", columna " ++ toString s.column

/-- The report line of a token. -/
def tokenLine (t : Lexed Kind) : String :=
  "\x7b'type': " ++ Text.quote t.kind.name ++ ", 'lexeme': " ++ writeValue t.value ++
    ", 'line': " ++ toString t.line ++ ", 'column': " ++ toString t.column ++ "\x7d"

/-- A scanned script: its tokens, its report, and why the scan stopped early, if it did. -/
structure Scan where
  tokens : Array (Lexed Kind)
  report : String
  failure : Option Decimal.WholeError

/-- Scans a script's source. The report holds the stray lines, then, if nothing stopped the scan,
the token lines, each line ended. -/
def scan (source : String) : Scan :=
  let text := Text.withUniversalBreaks source
  let (found, failure) := lexer.run text 1 #[]
  let strays := found.strays.foldl (fun acc s => acc ++ strayLine s ++ "\n") ""
  match failure with
  | some e => ⟨found.tokens, strays, some e⟩
  | none => ⟨found.tokens, found.tokens.foldl (fun acc t => acc ++ tokenLine t ++ "\n") strays, none⟩

end Frontend.Script
