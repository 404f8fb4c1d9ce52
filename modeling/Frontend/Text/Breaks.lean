/-! Universal line breaks.

A text read with universal line breaks has every `\r\n`, and every `\r` on its own, turned into
`\n`; nothing else changes. -/
namespace Frontend.Text

/-- The characters with universal line breaks. -/
def normalizeBreaks : List Char → List Char
  | [] => []
  | '\r' :: '\n' :: rest => '\n' :: normalizeBreaks rest
  | '\r' :: rest => '\n' :: normalizeBreaks rest
  | c :: rest => c :: normalizeBreaks rest

/-- A text with universal line breaks. -/
def withUniversalBreaks (s : String) : String := String.ofList (normalizeBreaks s.toList)

theorem normalizeBreaks_no_cr (cs : List Char) : '\r' ∉ normalizeBreaks cs := by
  induction cs using normalizeBreaks.induct <;> simp_all [normalizeBreaks, eq_comm]

/-- A text without carriage returns keeps its line breaks as they are. -/
theorem normalizeBreaks_of_not_mem (cs : List Char) (h : '\r' ∉ cs) : normalizeBreaks cs = cs := by
  induction cs using normalizeBreaks.induct <;> simp_all [normalizeBreaks]

end Frontend.Text
