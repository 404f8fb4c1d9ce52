import Frontend.Language.Lexer
import Frontend.Proofs.Scanner.Longest

/-! Token classes as sets of texts, and the scanner that takes the longest match.

Each token class of the language is given by the texts it holds: an identifier is an ASCII letter
or underscore, then ASCII letters, digits and underscores; a number is decimal digits of any
script, possibly followed by a point and more digits; a quoted text is a double quote, then
characters other than a double quote and a backslash or backslashes each with the next
character, a line break excepted, and a closing quote; a line comment is `//` and the rest of its
line; a block comment is `/*` and what follows up to the first `*/`; a run of line breaks; and
each operator is its own text.

The longest-match scanner skips spaces and tabs and, at every other position, takes the longest
piece at the front of the input that some class holds, with the first class that holds it
(`Scanner.longestMatch`); where there is none, it records the character as a stray and skips it.
What it does with a piece is what the class says: an identifier's class is the keyword it spells
in any case, else an identifier; a number is read as a whole number or a real; a quoted text keeps
what stands between its quotes; comments and line breaks give no token, and line breaks are
counted. -/
namespace Frontend.Language

open Scanner

/-- The token classes of the language. -/
inductive TokenClass where
  | word
  | number
  | quoted
  | lineComment
  | blockComment
  | lineBreaks
  | operator (text : String) (kind : Kind)
  deriving DecidableEq

namespace TokenClass

/-- A point and at least one decimal digit. -/
def fraction : List Char → Bool := startsWith ['.'] (spanText isDigit isDigit)

/-- Whether a class holds a text. -/
def accepts : TokenClass → List Char → Bool
  | word => spanText isWordStart isWordPart
  | number => runThenMaybe isDigit isDigit fraction
  | quoted => startsWith ['"'] quotedRest
  | lineComment => startsWith ['/', '/'] (·.all (· != '\n'))
  | blockComment => startsWith ['/', '*'] (endsAtFirst ['*', '/'])
  | lineBreaks => spanText (· == '\n') (· == '\n')
  | operator text _ => (· == text.toList)

/-- What the scanner does with a piece of a class. -/
def action : TokenClass → Action Decimal.WholeError Kind
  | word => .token fun cs => .ok (Kind.ofWord (String.ofList cs), .text (String.ofList cs))
  | number => .token fun cs => (numberValue cs).map fun v => (.number, v)
  | quoted => .token fun cs => .ok (.text, .text (String.ofList (cs.drop 1).dropLast))
  | lineComment => .skip
  | blockComment => .skip
  | lineBreaks => .lineBreaks
  | operator _ kind => plain kind

end TokenClass

/-- The classes, in the order the scanner tries their rules. -/
def classes : List TokenClass :=
  [.word, .number, .quoted, .lineComment, .blockComment, .lineBreaks] ++
    operators.map fun (w, k) => .operator w k

/-- Scans the rest of a source from a place, taking the longest match at each position. -/
def scanLongest : (input : List Char) → Place → Found Kind →
    Found Kind × Option Decimal.WholeError
  | [], _, found => (found, none)
  | c :: rest, place, found =>
    if c == ' ' || c == '\t' then scanLongest rest (place.past [c]) found
    else
      match h : longestMatch TokenClass.accepts classes (c :: rest) with
      | none =>
        scanLongest rest (place.past [c])
          { found with strays := found.strays.push ⟨c, found.line, place.column⟩ }
      | some (k, n) =>
        have : 0 < n := longestUpTo_pos _ _ h
        let piece := (c :: rest).take n
        match k.action with
        | .token make =>
          match make piece with
          | .ok (kind, value) =>
            scanLongest ((c :: rest).drop n) (place.past piece)
              { found with tokens := found.tokens.push ⟨kind, value, found.line, place.column⟩ }
          | .error e => (found, some e)
        | .skip => scanLongest ((c :: rest).drop n) (place.past piece) found
        | .lineBreaks =>
          scanLongest ((c :: rest).drop n) (place.past piece)
            { found with line := found.line + piece.length }
termination_by input => input.length

/-- One source scanned in a session by the longest-match scanner. -/
def Session.scanLongest (s : Session) (source : String) : Scan :=
  let (found, failure) := Language.scanLongest source.toList ⟨0, 0⟩ ⟨#[], s.strays, s.line⟩
  ⟨found.tokens.map toToken, failure, ⟨found.line, found.strays⟩⟩

end Frontend.Language
