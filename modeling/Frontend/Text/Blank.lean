/-! Blank characters, and trimming and splitting on them.

A character is *blank* when it is one of the 29 whitespace characters of Unicode's White_Space
property that are spacing or line and paragraph separators: tab, line feed, vertical tab, form
feed, carriage return, the four information separators `\x1c` to `\x1f`, space, next line,
no-break space, Ogham space mark, the eleven spaces from en quad to hair space, line and
paragraph separators, narrow no-break space, medium mathematical space and ideographic space.
`trim` drops blanks at both ends; `words` splits a text at runs of blanks and drops the empty
pieces. -/
namespace Frontend.Text

/-- The blank characters' code points. -/
def blankCodes : List Nat :=
  [0x9, 0xA, 0xB, 0xC, 0xD, 0x1C, 0x1D, 0x1E, 0x1F, 0x20, 0x85, 0xA0, 0x1680, 0x2000, 0x2001,
   0x2002, 0x2003, 0x2004, 0x2005, 0x2006, 0x2007, 0x2008, 0x2009, 0x200A, 0x2028, 0x2029,
   0x202F, 0x205F, 0x3000]

/-- Whether a character is blank. -/
def isBlank (c : Char) : Bool := blankCodes.contains c.toNat

/-- The characters of a text without blanks at either end. -/
def trimChars (cs : List Char) : List Char :=
  ((cs.dropWhile isBlank).reverse.dropWhile isBlank).reverse

/-- A text without blanks at either end. -/
def trim (s : String) : String := String.ofList (trimChars s.toList)

/-- The pieces of a text between runs of blanks, empty pieces dropped. -/
def words (s : String) : List String :=
  ((s.toList.splitBy fun a b => isBlank a == isBlank b).filter fun piece =>
    !piece.all isBlank).map String.ofList

theorem isBlank_of_isWhitespace {c : Char} (h : c.isWhitespace = true) : isBlank c = true := by
  simp only [Char.isWhitespace, Bool.or_eq_true, decide_eq_true_eq] at h
  rcases h with ((h | h) | h) | h <;> subst h <;> decide

example : trim " 　a b\x1c" = "a b" := by decide
example : words "  a\tb  c " = ["a", "b", "c"] := by decide

end Frontend.Text
