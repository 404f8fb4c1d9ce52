/-! Patterns: what a scanning rule recognises at the front of a text.

A `Cut` of a text is a nonempty piece taken from its front together with what follows, so that
the two put back together are the text; a scanner that goes on with the rest of a cut therefore
always moves forward (`Cut.rest_length_lt`). A `Pattern` finds a cut or nothing. The patterns
here are those of a small language's tokens: fixed words, runs of a character class, a quoted
text whose backslash escapes the next character, and a text between two delimiters, which ends at
the first closing delimiter. -/
namespace Frontend.Scanner

/-- A nonempty piece cut from the front of `input`, and what follows it. -/
structure Cut (input : List Char) where
  piece : List Char
  rest : List Char
  piece_ne : piece ≠ []
  append_eq : piece ++ rest = input

theorem Cut.rest_length_lt {input : List Char} (c : Cut input) :
    c.rest.length < input.length := by
  have h := congrArg List.length c.append_eq
  have := List.length_pos_iff.mpr c.piece_ne
  rw [List.length_append] at h
  omega

/-- The same cut, one character further back. -/
def Cut.cons (c : Char) {input : List Char} (k : Cut input) : Cut (c :: input) :=
  ⟨c :: k.piece, k.rest, List.cons_ne_nil _ _, by rw [List.cons_append, k.append_eq]⟩

/-- What a rule recognises: a cut of the text, or nothing. -/
def Pattern := (input : List Char) → Option (Cut input)

namespace Pattern

/-- A fixed nonempty word. -/
def word (w : List Char) : Pattern := fun input =>
  if h : w ≠ [] ∧ w.isPrefixOf input = true then
    some ⟨w, input.drop w.length, h.1,
      List.prefix_iff_eq_append.mp (List.isPrefixOf_iff_prefix.mp h.2)⟩
  else none

/-- One character of a first class, then any number of a second. -/
def span (first more : Char → Bool) : Pattern
  | [] => none
  | c :: cs =>
    if first c then
      some ⟨c :: cs.takeWhile more, cs.dropWhile more, List.cons_ne_nil _ _, by
        rw [List.cons_append, List.takeWhile_append_dropWhile]⟩
    else none

/-- A pattern, then a second one on what follows; both must match. -/
def andThen (p q : Pattern) : Pattern := fun input =>
  match p input with
  | none => none
  | some c =>
    (q c.rest).map fun d => ⟨c.piece ++ d.piece, d.rest, by simp [c.piece_ne], by
      rw [List.append_assoc, d.append_eq, c.append_eq]⟩

/-- A pattern, then as many characters of a class as follow. -/
def thenWhile (p : Pattern) (more : Char → Bool) : Pattern := fun input =>
  (p input).map fun c =>
    ⟨c.piece ++ c.rest.takeWhile more, c.rest.dropWhile more, by simp [c.piece_ne], by
      rw [List.append_assoc, List.takeWhile_append_dropWhile, c.append_eq]⟩

/-- A pattern, then a second one if it matches what follows. -/
def thenMaybe (p q : Pattern) : Pattern := fun input =>
  (p input).map fun c =>
    match q c.rest with
    | none => c
    | some d => ⟨c.piece ++ d.piece, d.rest, by simp [c.piece_ne], by
        rw [List.append_assoc, d.append_eq, c.append_eq]⟩

/-! ### Quoted text and delimited text -/

/-- The body of a quoted text after its opening quote, up to and with the closing quote: a
backslash takes the next character with it, unless that is a line break. -/
def quotedBody : (input : List Char) → Option (Cut input)
  | [] => none
  | c :: r =>
    if c = '"' then some ⟨[c], r, List.cons_ne_nil _ _, rfl⟩
    else if c = '\\' then
      match r with
      | [] => none
      | d :: r' => if d = '\n' then none else (quotedBody r').map fun k => (k.cons d).cons c
    else (quotedBody r).map fun k => k.cons c

/-- A quoted text: a double quote, its body, and the closing quote. -/
def quoted : Pattern
  | [] => none
  | c :: cs => if c = '"' then (quotedBody cs).map fun k => k.cons c else none

/-- The text up to and with the first occurrence of a closing word. -/
def upTo (close : List Char) : (input : List Char) → Option (Cut input)
  | [] => none
  | c :: r =>
    match word close (c :: r) with
    | some k => some k
    | none => (upTo close r).map fun k => k.cons c

/-- An opening word, then everything up to and with the first closing word after it. -/
def between (opening close : List Char) : Pattern := fun input =>
  match word opening input with
  | none => none
  | some c =>
    (upTo close c.rest).map fun d => ⟨c.piece ++ d.piece, d.rest, by simp [c.piece_ne], by
      rw [List.append_assoc, d.append_eq, c.append_eq]⟩

end Pattern
end Frontend.Scanner
