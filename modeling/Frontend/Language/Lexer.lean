import Frontend.Scanner.Run
import Frontend.Decimal.Nearest
import Frontend.Decimal.Whole
import Frontend.Language.Kind
import Frontend.Token

/-! The scanner of the language.

Rules, tried in this order at each position: an identifier (an ASCII letter or underscore, then
ASCII letters, digits and underscores), a number (decimal digits of any script, then possibly a
point and more digits), a text in double quotes, a line comment `//` up to the line's end, a
block comment from `/*` to the first `*/`, a run of line breaks, and the operators, every
two-character operator before the one-character operators. Spaces and tabs are skipped; anything
else is a stray character.

A number with a point is a real, the double nearest to it; one without is a whole number, refused
past the reader's digit limit, which stops the scan. A text's value is what stands between its
quotes, escapes left as written.

A *session* scans several sources one after the other: the line count goes on from one source to
the next, and stray characters are recorded across all of them. -/
namespace Frontend.Language

open Scanner

/-- Decimal digits of any script. -/
def isDigit (c : Char) : Bool := Text.isDecimalDigit c

/-- Characters that may start an identifier. -/
def isWordStart (c : Char) : Bool := c.isAlpha || c == '_'

/-- Characters that may go on with an identifier. -/
def isWordPart (c : Char) : Bool := c.isAlphanum || c == '_'

/-- Digits, then possibly a point and digits. -/
def numberPattern : Pattern :=
  (Pattern.span isDigit isDigit).thenMaybe
    ((Pattern.word ['.']).andThen (Pattern.span isDigit isDigit))

/-- The value of a number's text: a real if it has a point, else a whole number. -/
def numberValue (cs : List Char) : Except Decimal.WholeError Value :=
  if cs.contains '.' then
    let int := cs.takeWhile (· != '.')
    let frac := (cs.dropWhile (· != '.')).drop 1
    match Decimal.ofParts? int frac with
    | some d => .ok (.real d.toFloat)
    | none => .error (.notDecimal (String.ofList cs))
  else (Decimal.readWhole cs).map fun n => .int n

/-- A token of a fixed class whose value is its text. -/
def plain (k : Kind) : Action Decimal.WholeError Kind :=
  .token fun cs => .ok (k, .text (String.ofList cs))

/-- The operators, two-character ones first. -/
def operators : List (String × Kind) :=
  [("||", .logicalOr), ("!=", .notEqual), ("==", .equal), ("\x7d", .rightBrace), ("\x7b", .leftBrace),
   ("+", .plus), (">=", .greaterEqual), ("<=", .lessEqual), ("*", .times), (")", .rightParen),
   ("(", .leftParen), ("^", .power), ("&&", .logicalAnd), (",", .comma), ("/", .divide),
   ("=", .assign), (">", .greater), ("<", .less), ("-", .minus), ("!", .negation),
   (";", .semicolon)]

/-- The language's scanner. -/
def lexer : Lexer Decimal.WholeError Kind where
  rules :=
    [ ⟨Pattern.span isWordStart isWordPart,
        .token fun cs => .ok (Kind.ofWord (String.ofList cs), .text (String.ofList cs))⟩,
      ⟨numberPattern, .token fun cs => (numberValue cs).map fun v => (.number, v)⟩,
      ⟨Pattern.quoted, .token fun cs => .ok (.text, .text (String.ofList (cs.drop 1).dropLast))⟩,
      ⟨(Pattern.word ['/', '/']).thenWhile (· != '\n'), .skip⟩,
      ⟨Pattern.between ['/', '*'] ['*', '/'], .skip⟩,
      ⟨Pattern.span (· == '\n') (· == '\n'), .lineBreaks⟩ ] ++
    operators.map fun (w, k) => ⟨Pattern.word w.toList, plain k⟩
  blank c := c == ' ' || c == '\t'

/-- A scanned token as the parser sees it. -/
def toToken (t : Lexed Kind) : Token := ⟨t.value, t.kind.name, t.line, t.column⟩

/-- What is recorded for a stray character. -/
def strayMessage (s : Stray) : String :=
  "Carácter ilegal '" ++ String.singleton s.char ++ "' en línea " ++ toString s.line

/-- A listing of tokens: a header, a rule, and one row per token, each line ended. -/
def listing (ts : Array Token) : String :=
  ts.foldl (fun acc t => acc ++ t.row ++ "\n")
    ("Lexema\tToken\tLinea:Columna\n" ++ String.ofList (List.replicate 41 '-') ++ "\n")

/-- The state a session carries from one source to the next. -/
structure Session where
  line : Nat := 1
  strays : Array Stray := #[]

/-- One source scanned in a session. -/
structure Scan where
  /-- The tokens found, up to the failure if there is one. -/
  tokens : Array Token
  /-- Why the scan stopped early, if it did. -/
  failure : Option Decimal.WholeError
  /-- The session after the source. -/
  session : Session

/-- Scans a source in a session. -/
def Session.scan (s : Session) (source : String) : Scan :=
  let (found, failure) := lexer.run source s.line s.strays
  ⟨found.tokens.map toToken, failure, ⟨found.line, found.strays⟩⟩

/-- The tokens of a source scanned on its own. -/
def tokenize (source : String) : Scan := Session.scan {} source

end Frontend.Language
