/-! Laying text out in columns.

`padRight` fills a text with spaces on the right up to a width; `center` spreads the spaces on
both sides, giving the odd one to the left only when both the total gap and the width are odd;
`cut` keeps a text's first characters up to a signed end, counted from the back when negative.
Widths count characters, and a text already as wide as the column is left alone. -/
namespace Frontend.Text

/-- `n` spaces. -/
def spaces (n : Nat) : String := String.ofList (List.replicate n ' ')

/-- The text followed by spaces up to the width. -/
def padRight (width : Nat) (s : String) : String := s ++ spaces (width - s.length)

/-- The text between spaces up to the width: of an odd gap, the extra space goes to the left
when the width is odd, to the right otherwise. -/
def center (width : Nat) (s : String) : String :=
  let gap := width - s.length
  let left := gap / 2 + (gap &&& width &&& 1)
  spaces left ++ s ++ spaces (gap - left)

/-- The characters before a signed end: the first `n` for `n ≥ 0`, all but the last `-n`
otherwise. -/
def cut (s : String) (n : Int) : String :=
  let cs := s.toList
  if 0 ≤ n then String.ofList (cs.take n.toNat)
  else String.ofList (cs.take (cs.length - n.natAbs))

theorem padRight_length (width : Nat) (s : String) :
    (padRight width s).length = max width s.length := by
  simp [padRight, spaces, String.length_append]
  omega

example : center 5 "ab" = "  ab " := by decide
example : center 5 "abc" = " abc " := by decide
example : cut "abcdef" (-2) = "abcd" := by decide

end Frontend.Text
