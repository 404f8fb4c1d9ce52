import Frontend.Text.Printable

/-! Quoted text.

`quote` writes a text between quotes so that it can be read back: single quotes, unless the text
holds a single quote and no double quote. Inside, a backslash and the chosen quote are escaped
with a backslash, tab, line feed and carriage return are written `\t`, `\n`, `\r`, and any other
unprintable character as its code in lowercase hexadecimal: `\xhh` up to `ff`, `\uhhhh` up to
`ffff`, `\Uhhhhhhhh` beyond. Printable characters, ASCII or not, stand for themselves. -/
namespace Frontend.Text

/-- The hexadecimal digits of `n`, padded with zeros to `width`. -/
def hexDigits (width n : Nat) : List Char :=
  let ds := Nat.toDigits 16 n
  List.replicate (width - ds.length) '0' ++ ds

/-- The quote mark for a text: double when it holds a single quote and no double quote. -/
def quoteMark (s : List Char) : Char :=
  if s.contains '\'' && !s.contains '"' then '"' else '\''

/-- How one character is written between quotes `q`. -/
def escape (q c : Char) : List Char :=
  if c = q ∨ c = '\\' then ['\\', c]
  else if c = '\t' then ['\\', 't']
  else if c = '\n' then ['\\', 'n']
  else if c = '\r' then ['\\', 'r']
  else if isPrintable c then [c]
  else if c.toNat ≤ 0xFF then '\\' :: 'x' :: hexDigits 2 c.toNat
  else if c.toNat ≤ 0xFFFF then '\\' :: 'u' :: hexDigits 4 c.toNat
  else '\\' :: 'U' :: hexDigits 8 c.toNat

/-- A text between quotes, escaped so that it reads back. -/
def quote (s : String) : String :=
  let cs := s.toList
  let q := quoteMark cs
  String.ofList (q :: cs.flatMap (escape q) ++ [q])

example : quote "ab" = "'ab'" := by decide
example : quote "it's" = "\"it's\"" := by decide
example : quote "a\nb" = "'a\\nb'" := by decide

end Frontend.Text
