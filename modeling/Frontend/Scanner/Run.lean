import Frontend.Scanner.Pattern
import Frontend.Value

/-! Running a scanner over a source text.

A `Lexer` is an ordered list of rules and a class of blank characters. At each position a blank
is skipped; otherwise the rules are tried in order and the first whose pattern matches wins,
whatever the length of the others' matches. Its action makes a token of the piece, drops it, or
drops a run of line breaks and counts them. A character that no rule takes is recorded as a
stray and skipped. Making a token may fail, and the scan then stops, keeping what it found.

Lines are counted only by the line-break rule, so a line break inside a comment or a quoted text
does not move the line count; columns count from the last line break of the source before the
token, wherever it stands. Every step goes on with the rest of a cut, so the scan ends
(`Cut.rest_length_lt`). -/
namespace Frontend.Scanner

/-- What a rule does with the piece it cut. -/
inductive Action (ε κ : Type) where
  /-- Makes a token of kind and value from the piece, or fails. -/
  | token (make : List Char → Except ε (κ × Value))
  /-- Drops the piece. -/
  | skip
  /-- Drops a run of line breaks and counts them. -/
  | lineBreaks

/-- A pattern and what to do with its match. -/
structure Rule (ε κ : Type) where
  pattern : Pattern
  action : Action ε κ

/-- A scanner: rules tried in order, and the characters skipped between tokens. -/
structure Lexer (ε κ : Type) where
  rules : List (Rule ε κ)
  blank : Char → Bool

/-- A token found by a scan, with the line and the column where it starts. -/
structure Lexed (κ : Type) where
  kind : κ
  value : Value
  line : Nat
  column : Nat

/-- A character that no rule takes, with its line and column. -/
structure Stray where
  char : Char
  line : Nat
  column : Nat

/-- What a scan has found so far, and the line it stands on. -/
structure Found (κ : Type) where
  tokens : Array (Lexed κ)
  strays : Array Stray
  line : Nat

/-- Where a scan stands in its source: the offset of the next character, and the offset just
after the last line break before it. -/
structure Place where
  offset : Nat
  lineStart : Nat

namespace Place

/-- The column of the next character, from 1. -/
def column (p : Place) : Nat := p.offset - p.lineStart + 1

/-- The place after a piece of text. -/
def past (p : Place) (piece : List Char) : Place :=
  let offset := p.offset + piece.length
  if piece.contains '\n' then
    ⟨offset, offset - (piece.reverse.takeWhile (· != '\n')).length⟩
  else ⟨offset, p.lineStart⟩

end Place

namespace Lexer
variable {ε κ : Type}

/-- The first rule whose pattern matches at the front of the text, with its cut. -/
def firstMatch? (lx : Lexer ε κ) (input : List Char) : Option (Rule ε κ × Cut input) :=
  lx.rules.findSome? fun r => (r.pattern input).map fun k => (r, k)

/-- Scans the rest of a source from a place, adding to what was found; the error, if any, is
the one that stopped the scan. -/
def scan (lx : Lexer ε κ) : (input : List Char) → Place → Found κ → Found κ × Option ε
  | [], _, found => (found, none)
  | c :: rest, place, found =>
    if lx.blank c then scan lx rest (place.past [c]) found
    else
      match lx.firstMatch? (c :: rest) with
      | none =>
        scan lx rest (place.past [c])
          { found with strays := found.strays.push ⟨c, found.line, place.column⟩ }
      | some (rule, k) =>
        match rule.action with
        | .token make =>
          match make k.piece with
          | .ok (kind, value) =>
            scan lx k.rest (place.past k.piece)
              { found with tokens := found.tokens.push ⟨kind, value, found.line, place.column⟩ }
          | .error e => (found, some e)
        | .skip => scan lx k.rest (place.past k.piece) found
        | .lineBreaks =>
          scan lx k.rest (place.past k.piece) { found with line := found.line + k.piece.length }
termination_by input => input.length
decreasing_by
  · simp
  · simp
  · exact k.rest_length_lt
  · exact k.rest_length_lt
  · exact k.rest_length_lt

/-- Scans a whole source, starting on a given line, after the strays already recorded. -/
def run (lx : Lexer ε κ) (source : String) (line : Nat) (strays : Array Stray) :
    Found κ × Option ε :=
  lx.scan source.toList ⟨0, 0⟩ ⟨#[], strays, line⟩

end Lexer
end Frontend.Scanner
