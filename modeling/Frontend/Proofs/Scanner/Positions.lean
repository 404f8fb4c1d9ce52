import Mathlib
import Frontend.Scanner.Run
import Frontend.Proofs.Scanner.Patterns

/-! Where a scan places what it finds.

A scan reads its source as pieces (`Piece`): a blank, a stray character, the text of a token, a
text it drops, or a run of line breaks. `Lexer.Reads` says which pieces the scanner takes, one
after the other, at the front of a text. Every scan reads its input so, and what it records is
what those pieces leave at the places where they start (`Lexer.scan_reads`, `marks`).

The place of a token or a stray is therefore read off the pieces before it. Its column is one
more than the number of characters since the last line break of the text they cover, whatever
piece that line break stood in (`Place.column_past_start`): the physical column. Its line is the
starting line moved by the runs of line breaks among them (`Lexer.run_token`,
`Lexer.run_stray`), and a run ends on the starting line moved by all the runs it read
(`Lexer.run_line`). A line break inside any other piece moves the column but not the line. In a
scanner whose only other pieces that may hold line breaks are quoted texts and block comments
(`Lexer.CountsRuns`), the line breaks of a source are those the runs count and those such pieces
hide (`Lexer.Reads.breaks_add_hidden`). -/
namespace Frontend.Scanner

/-! ### Columns -/

theorem length_lineTail_le (text : List Char) :
    (text.reverse.takeWhile (· != '\n')).length ≤ text.length := by
  simpa using (text.reverse.takeWhile_prefix (· != '\n')).length_le

theorem lineTail_append_of_mem (a : List Char) {b : List Char} (hb : '\n' ∈ b) :
    (a ++ b).reverse.takeWhile (· != '\n') = b.reverse.takeWhile (· != '\n') := by
  rw [List.reverse_append, List.takeWhile_append, if_neg]
  intro hlen
  have hall := List.takeWhile_eq_self_iff.mp ((List.takeWhile_prefix _).eq_of_length hlen)
  simpa using hall '\n' (List.mem_reverse.mpr hb)

theorem lineTail_append_of_not_mem (a : List Char) {b : List Char} (hb : '\n' ∉ b) :
    (a ++ b).reverse.takeWhile (· != '\n') = b.reverse ++ a.reverse.takeWhile (· != '\n') := by
  rw [List.reverse_append, List.takeWhile_append_of_pos]
  intro x hx
  have : x ≠ '\n' := fun h => hb (h ▸ List.mem_reverse.mp hx)
  simpa using this

/-- The column after a text, from 1: one more than the characters since its last line break. -/
def columnAfter (text : List Char) : Nat := (text.reverse.takeWhile (· != '\n')).length + 1

namespace Place

@[simp] theorem past_offset (p : Place) (piece : List Char) :
    (p.past piece).offset = p.offset + piece.length := by
  unfold past
  split <;> rfl

theorem past_lineStart_of_mem (p : Place) {piece : List Char} (h : '\n' ∈ piece) :
    (p.past piece).lineStart =
      p.offset + piece.length - (piece.reverse.takeWhile (· != '\n')).length := by
  simp [past, h]

theorem past_lineStart_of_not_mem (p : Place) {piece : List Char} (h : '\n' ∉ piece) :
    (p.past piece).lineStart = p.lineStart := by
  simp [past, h]

theorem past_append (p : Place) (a b : List Char) : (p.past a).past b = p.past (a ++ b) := by
  have hta := length_lineTail_le a
  have htb := length_lineTail_le b
  obtain ⟨o, s⟩ := p
  by_cases hb : '\n' ∈ b
  · have hab : '\n' ∈ a ++ b := List.mem_append_right a hb
    rw [Place.mk.injEq]
    refine ⟨by simp; omega, ?_⟩
    rw [past_lineStart_of_mem _ hb, past_lineStart_of_mem _ hab, lineTail_append_of_mem a hb,
      past_offset, List.length_append]
    omega
  · have h := lineTail_append_of_not_mem a hb
    rw [Place.mk.injEq]
    refine ⟨by simp; omega, ?_⟩
    rw [past_lineStart_of_not_mem _ hb]
    by_cases ha : '\n' ∈ a
    · have hab : '\n' ∈ a ++ b := List.mem_append_left b ha
      rw [past_lineStart_of_mem _ ha, past_lineStart_of_mem _ hab, h, List.length_append,
        List.length_append, List.length_reverse]
      omega
    · have hab : '\n' ∉ a ++ b := by simp [ha, hb]
      rw [past_lineStart_of_not_mem _ ha, past_lineStart_of_not_mem _ hab]

theorem past_nil (p : Place) : p.past [] = p := by
  simp [past]

/-- From the start of a source, the column is the physical one. -/
theorem column_past_start (text : List Char) :
    ((⟨0, 0⟩ : Place).past text).column = columnAfter text := by
  have ht := length_lineTail_le text
  by_cases h : '\n' ∈ text
  · simp only [column, past_lineStart_of_mem _ h, past_offset, columnAfter]
    omega
  · have hall : text.reverse.takeWhile (· != '\n') = text.reverse :=
      List.takeWhile_eq_self_iff.mpr fun x hx => by
        have : x ≠ '\n' := fun hx' => h (hx' ▸ List.mem_reverse.mp hx)
        simpa using this
    simp [column, past_lineStart_of_not_mem _ h, columnAfter, hall]

end Place

/-! ### Pieces -/

/-- A stretch of a source as a scan takes it. -/
inductive Piece where
  /-- A blank, skipped. -/
  | blank (c : Char)
  /-- A character that no rule takes, recorded and skipped. -/
  | stray (c : Char)
  /-- The text of a token. -/
  | token (text : List Char)
  /-- A text dropped, such as a comment. -/
  | skip (text : List Char)
  /-- A run of line breaks, counted. -/
  | lineBreaks (text : List Char)

namespace Piece

/-- The characters of a piece. -/
def text : Piece → List Char
  | blank c => [c]
  | stray c => [c]
  | token t => t
  | skip t => t
  | lineBreaks t => t

/-- How far a piece moves the line count: a run by its length, any other piece not at all. -/
def counted : Piece → Nat
  | lineBreaks t => t.length
  | _ => 0

/-- Whether a piece is a token's text. -/
def isToken : Piece → Bool
  | token _ => true
  | _ => false

/-- Whether a piece is a stray character. -/
def isStray : Piece → Bool
  | stray _ => true
  | _ => false

end Piece

/-- The characters of pieces read one after the other. -/
def texts (ps : List Piece) : List Char := ps.flatMap Piece.text

/-- How far pieces read one after the other move the line count. -/
def breaks (ps : List Piece) : Nat := (ps.map Piece.counted).sum

@[simp] theorem texts_nil : texts [] = [] := rfl
@[simp] theorem texts_cons (p : Piece) (ps : List Piece) :
    texts (p :: ps) = p.text ++ texts ps := rfl
@[simp] theorem texts_append (ps qs : List Piece) : texts (ps ++ qs) = texts ps ++ texts qs := by
  simp [texts]
@[simp] theorem breaks_nil : breaks [] = 0 := rfl
@[simp] theorem breaks_cons (p : Piece) (ps : List Piece) :
    breaks (p :: ps) = p.counted + breaks ps := by
  simp [breaks]

/-- A text that opens a quoted text or a block comment: it starts with a double quote or with
`/*`. -/
def OpensQuoteOrComment (text : List Char) : Prop := text.head? = some '"' ∨ ['/', '*'] <+: text

/-- The line breaks a piece holds and the line count does not see: all of its line breaks, unless
it is a run of them. -/
def Piece.hidden : Piece → Nat
  | .lineBreaks _ => 0
  | p => p.text.count '\n'

/-- The line breaks that pieces read one after the other hold and the line count does not see. -/
def hiddenBreaks (ps : List Piece) : Nat := (ps.map Piece.hidden).sum

@[simp] theorem hiddenBreaks_nil : hiddenBreaks [] = 0 := rfl
@[simp] theorem hiddenBreaks_cons (p : Piece) (ps : List Piece) :
    hiddenBreaks (p :: ps) = p.hidden + hiddenBreaks ps := by
  simp [hiddenBreaks]

/-! ### What pieces leave where they start -/

/-- What pieces read from a place on a line leave as marks, one at most per piece: `mark` is given
each piece with the line and the column where it starts. -/
def marks {β : Type} (mark : Piece → Nat → Nat → Option β) : Nat → Place → List Piece → List β
  | _, _, [] => []
  | line, place, p :: ps =>
    (mark p line place.column).toList ++ marks mark (line + p.counted) (place.past p.text) ps

/-- The mark of a token: its line and column. -/
def tokenMark (p : Piece) (line column : Nat) : Option (Nat × Nat) :=
  if p.isToken then some (line, column) else none

/-- The mark of a stray character. -/
def strayMark : Piece → Nat → Nat → Option Stray
  | .stray c, line, column => some ⟨c, line, column⟩
  | _, _, _ => none

/-- Every mark stands for a piece: the pieces before it leave the marks before it, and it is
placed at the line and the column that those pieces lead to. -/
theorem getElem_marks {β : Type} (mark : Piece → Nat → Nat → Option β) :
    ∀ (ps : List Piece) (line : Nat) (place : Place) (i : Nat)
      (h : i < (marks mark line place ps).length),
      ∃ pre p post, ps = pre ++ p :: post ∧ (marks mark line place pre).length = i ∧
        mark p (line + breaks pre) (place.past (texts pre)).column =
          some (marks mark line place ps)[i]
  | [], _, _, _, h => absurd h (by simp [marks])
  | p :: ps, line, place, i, h => by
    cases hm : mark p line place.column with
    | none =>
      have h' : i < (marks mark (line + p.counted) (place.past p.text) ps).length := by
        simpa [marks, hm] using h
      obtain ⟨pre, q, post, rfl, hlen, hq⟩ := getElem_marks mark ps _ _ i h'
      refine ⟨p :: pre, q, post, rfl, by simpa [marks, hm] using hlen, ?_⟩
      simpa [marks, hm, Place.past_append, Nat.add_assoc] using hq
    | some b =>
      cases i with
      | zero => exact ⟨[], p, ps, rfl, rfl, by simp [marks, hm, Place.past_nil]⟩
      | succ i =>
        have h' : i < (marks mark (line + p.counted) (place.past p.text) ps).length := by
          simpa [marks, hm] using h
        obtain ⟨pre, q, post, rfl, hlen, hq⟩ := getElem_marks mark ps _ _ i h'
        refine ⟨p :: pre, q, post, rfl, by simpa [marks, hm] using hlen, ?_⟩
        simpa [marks, hm, Place.past_append, Nat.add_assoc] using hq

theorem length_marks_tokenMark (line : Nat) (place : Place) (ps : List Piece) :
    (marks tokenMark line place ps).length = ps.countP Piece.isToken := by
  induction ps generalizing line place with
  | nil => rfl
  | cons p ps ih =>
    cases p <;> simp [marks, tokenMark, Piece.isToken, ih, List.countP_cons]

theorem length_marks_strayMark (line : Nat) (place : Place) (ps : List Piece) :
    (marks strayMark line place ps).length = ps.countP Piece.isStray := by
  induction ps generalizing line place with
  | nil => rfl
  | cons p ps ih =>
    cases p <;> simp [marks, strayMark, Piece.isStray, ih, List.countP_cons]

theorem eq_token_of_tokenMark {p : Piece} {line column : Nat} {b : Nat × Nat}
    (h : tokenMark p line column = some b) : ∃ piece, p = .token piece ∧ b = (line, column) := by
  cases p <;> simp_all [tokenMark, Piece.isToken]

theorem eq_stray_of_strayMark {p : Piece} {line column : Nat} {b : Stray}
    (h : strayMark p line column = some b) : ∃ c, p = .stray c ∧ b = ⟨c, line, column⟩ := by
  cases p <;> simp_all [strayMark]

variable {κ : Type}

/-- The line and the column of a token found. -/
def Lexed.position (t : Lexed κ) : Nat × Nat := (t.line, t.column)

/-- What a scan did between two states of what it found, read from a place: the tokens and
strays it added and the line breaks it counted are those the pieces leave. -/
structure Accounts (found found' : Found κ) (place : Place) (ps : List Piece) : Prop where
  tokens : found'.tokens.toList.map Lexed.position =
    found.tokens.toList.map Lexed.position ++ marks tokenMark found.line place ps
  strays : found'.strays.toList = found.strays.toList ++ marks strayMark found.line place ps
  line : found'.line = found.line + breaks ps

theorem Accounts.nil (found : Found κ) (place : Place) : Accounts found found place [] :=
  ⟨by simp [marks], by simp [marks], by simp⟩

/-- One piece more: what the piece leaves at its place, then what the others leave. -/
theorem Accounts.cons {found found₁ result : Found κ} {place : Place} {p : Piece}
    {ps : List Piece}
    (htokens : found₁.tokens.toList.map Lexed.position =
      found.tokens.toList.map Lexed.position ++ (tokenMark p found.line place.column).toList)
    (hstrays : found₁.strays.toList =
      found.strays.toList ++ (strayMark p found.line place.column).toList)
    (hline : found₁.line = found.line + p.counted)
    (h : Accounts found₁ result (place.past p.text) ps) :
    Accounts found result place (p :: ps) where
  tokens := by rw [h.tokens, htokens, hline, marks, List.append_assoc]
  strays := by rw [h.strays, hstrays, hline, marks, List.append_assoc]
  line := by rw [h.line, hline, breaks_cons, Nat.add_assoc]

/-! ### Line breaks in the pieces of a pattern -/

namespace Pattern

/-- A pattern whose pieces never hold a character. -/
def Avoids (p : Pattern) (x : Char) : Prop :=
  ∀ {input : List Char} {k : Cut input}, p input = some k → x ∉ k.piece

theorem avoids_word {w : List Char} {x : Char} (h : x ∉ w) : (word w).Avoids x := by
  intro input k hk
  rw [(word_eq_some hk).2]
  exact h

theorem avoids_span {first more : Char → Bool} {x : Char} (hf : first x = false)
    (hm : more x = false) : (span first more).Avoids x := by
  intro input k hk
  obtain ⟨c, cs, -, hc, hpiece, -⟩ := span_eq_some hk
  rw [hpiece, List.mem_cons]
  rintro (rfl | hx)
  · rw [hc] at hf
    cases hf
  · have := List.mem_takeWhile_imp hx
    rw [hm] at this
    cases this

theorem Avoids.andThen {p q : Pattern} {x : Char} (hp : p.Avoids x) (hq : q.Avoids x) :
    (p.andThen q).Avoids x := by
  intro input k hk
  obtain ⟨k₁, k₂, h₁, h₂, hpiece⟩ := andThen_eq_some hk
  rw [hpiece, List.mem_append]
  exact fun h => h.elim (hp h₁) (hq h₂)

theorem Avoids.thenWhile {p : Pattern} {more : Char → Bool} {x : Char} (hp : p.Avoids x)
    (hm : more x = false) : (p.thenWhile more).Avoids x := by
  intro input k hk
  obtain ⟨k₀, h₀, hpiece⟩ := thenWhile_eq_some hk
  rw [hpiece, List.mem_append]
  rintro (h | h)
  · exact hp h₀ h
  · have := List.mem_takeWhile_imp h
    rw [hm] at this
    cases this

theorem Avoids.thenMaybe {p q : Pattern} {x : Char} (hp : p.Avoids x) (hq : q.Avoids x) :
    (p.thenMaybe q).Avoids x := by
  intro input k hk
  obtain ⟨k₁, h₁, ⟨-, hpiece⟩ | ⟨k₂, h₂, hpiece⟩⟩ := thenMaybe_eq_some hk
  · rw [hpiece]
    exact hp h₁
  · rw [hpiece, List.mem_append]
    exact fun h => h.elim (hp h₁) (hq h₂)

/-- A run of one character holds nothing else. -/
theorem mem_span_eq {x : Char} {input : List Char} {k : Cut input}
    (h : span (· == x) (· == x) input = some k) : ∀ y ∈ k.piece, y = x := by
  obtain ⟨c, cs, -, hc, hpiece, -⟩ := span_eq_some h
  rw [hpiece]
  intro y hy
  rcases List.mem_cons.mp hy with rfl | hy
  · simpa using hc
  · simpa using List.mem_takeWhile_imp hy

theorem quoted_opens {input : List Char} {k : Cut input} (h : quoted input = some k) :
    OpensQuoteOrComment k.piece := by
  rw [quoted_eq_andThen] at h
  obtain ⟨k₁, k₂, h₁, -, hpiece⟩ := andThen_eq_some h
  left
  rw [hpiece, (word_eq_some h₁).2]
  rfl

theorem blockComment_opens {input : List Char} {k : Cut input}
    (h : between ['/', '*'] ['*', '/'] input = some k) : OpensQuoteOrComment k.piece := by
  rw [between_eq_andThen] at h
  obtain ⟨k₁, k₂, h₁, -, hpiece⟩ := andThen_eq_some h
  right
  rw [hpiece, (word_eq_some h₁).2]
  exact List.prefix_append _ _

end Pattern

/-! ### Line breaks in the pieces of a rule -/

theorem Action.token_ne_lineBreaks {ε : Type} (make : List Char → Except ε (κ × Value)) :
    Action.token make ≠ .lineBreaks := by
  intro h
  cases h

theorem Action.skip_ne_lineBreaks {ε : Type} : (Action.skip : Action ε κ) ≠ .lineBreaks := by
  intro h
  cases h

namespace Rule

variable {ε : Type}

/-- Where a rule's pieces may hold line breaks: a rule for runs of line breaks takes nothing
else, and any other rule takes them only inside a quoted text or a block comment. -/
def PlacesBreaks (r : Rule ε κ) : Prop :=
  (r.action = .lineBreaks → ∀ {input : List Char} {k : Cut input}, r.pattern input = some k →
    ∀ x ∈ k.piece, x = '\n') ∧
  (r.action ≠ .lineBreaks → ∀ {input : List Char} {k : Cut input}, r.pattern input = some k →
    '\n' ∈ k.piece → OpensQuoteOrComment k.piece)

theorem placesBreaks_of_avoids {r : Rule ε κ} (hact : r.action ≠ .lineBreaks)
    (hp : r.pattern.Avoids '\n') : r.PlacesBreaks :=
  ⟨fun h => absurd h hact, fun _ _ _ hk hmem => absurd hmem (hp hk)⟩

theorem placesBreaks_of_opens {r : Rule ε κ} (hact : r.action ≠ .lineBreaks)
    (hp : ∀ {input : List Char} {k : Cut input}, r.pattern input = some k →
      OpensQuoteOrComment k.piece) : r.PlacesBreaks :=
  ⟨fun h => absurd h hact, fun _ _ _ hk _ => hp hk⟩

theorem placesBreaks_of_run {r : Rule ε κ} (hact : r.action = .lineBreaks)
    (hp : r.pattern = Pattern.span (· == '\n') (· == '\n')) : r.PlacesBreaks := by
  refine ⟨fun _ _ _ hk => ?_, fun h => absurd hact h⟩
  rw [hp] at hk
  exact Pattern.mem_span_eq hk

end Rule

/-! ### What a scanner reads -/

namespace Lexer

variable {ε : Type}

section Reads

variable (lx : Lexer ε κ)

/-- `lx.Reads text ps rest`: at the front of `text` the scanner takes the pieces `ps`, one after
the other, and `rest` follows them. -/
inductive Reads : List Char → List Piece → List Char → Prop
  | nil (text : List Char) : Reads text [] text
  | blank {c : Char} {rest out : List Char} {ps : List Piece} :
      lx.blank c = true → Reads rest ps out → Reads (c :: rest) (.blank c :: ps) out
  | stray {c : Char} {rest out : List Char} {ps : List Piece} :
      lx.blank c = false → lx.firstMatch? (c :: rest) = none → Reads rest ps out →
      Reads (c :: rest) (.stray c :: ps) out
  | token {c : Char} {rest out : List Char} {ps : List Piece} {rule : Rule ε κ}
      {k : Cut (c :: rest)} {make : List Char → Except ε (κ × Value)} {made : κ × Value} :
      lx.blank c = false → lx.firstMatch? (c :: rest) = some (rule, k) →
      rule.action = .token make → make k.piece = .ok made → Reads k.rest ps out →
      Reads (c :: rest) (.token k.piece :: ps) out
  | skip {c : Char} {rest out : List Char} {ps : List Piece} {rule : Rule ε κ}
      {k : Cut (c :: rest)} :
      lx.blank c = false → lx.firstMatch? (c :: rest) = some (rule, k) → rule.action = .skip →
      Reads k.rest ps out → Reads (c :: rest) (.skip k.piece :: ps) out
  | lineBreaks {c : Char} {rest out : List Char} {ps : List Piece} {rule : Rule ε κ}
      {k : Cut (c :: rest)} :
      lx.blank c = false → lx.firstMatch? (c :: rest) = some (rule, k) →
      rule.action = .lineBreaks → Reads k.rest ps out →
      Reads (c :: rest) (.lineBreaks k.piece :: ps) out

variable {lx}

/-- The pieces read cover the text up to what follows them. -/
theorem Reads.text_eq {text rest : List Char} {ps : List Piece} (h : lx.Reads text ps rest) :
    text = texts ps ++ rest := by
  induction h with
  | nil => rfl
  | blank _ _ ih => simp [Piece.text, ih]
  | stray _ _ _ ih => simp [Piece.text, ih]
  | token _ _ _ _ _ ih => rw [texts_cons, List.append_assoc, ← ih]; exact (Cut.append_eq _).symm
  | skip _ _ _ _ ih => rw [texts_cons, List.append_assoc, ← ih]; exact (Cut.append_eq _).symm
  | lineBreaks _ _ _ _ ih => rw [texts_cons, List.append_assoc, ← ih]; exact (Cut.append_eq _).symm


end Reads

variable {lx : Lexer ε κ}

/-- **What a scan reads.** A scan reads its input as pieces, up to the end unless a token could
not be made; the tokens, strays and line count it adds are what those pieces leave. -/
theorem scan_reads (lx : Lexer ε κ) (input : List Char) (place : Place) (found : Found κ) :
    ∃ ps rest, lx.Reads input ps rest ∧ ((lx.scan input place found).2 = none → rest = []) ∧
      Accounts found (lx.scan input place found).1 place ps := by
  fun_induction Lexer.scan lx input place found with
  | case1 place found => exact ⟨[], [], .nil [], fun _ => rfl, .nil found place⟩
  | case2 c rest place found hblank ih =>
    obtain ⟨ps, out, hreads, hend, hacc⟩ := ih
    refine ⟨.blank c :: ps, out, .blank hblank hreads, hend, .cons ?_ ?_ ?_ hacc⟩ <;>
      simp [tokenMark, strayMark, Piece.isToken, Piece.counted]
  | case3 c rest place found hblank hnone ih =>
    obtain ⟨ps, out, hreads, hend, hacc⟩ := ih
    refine ⟨.stray c :: ps, out, .stray (by simpa using hblank) hnone hreads, hend,
      .cons ?_ ?_ ?_ hacc⟩ <;> simp [tokenMark, strayMark, Piece.isToken, Piece.counted]
  | case4 c rest place found hblank rule k hfirst make hact kind value hmake ih =>
    obtain ⟨ps, out, hreads, hend, hacc⟩ := ih
    refine ⟨.token k.piece :: ps, out, .token (by simpa using hblank) hfirst hact hmake hreads,
      hend, .cons ?_ ?_ ?_ hacc⟩ <;>
      simp [tokenMark, strayMark, Piece.isToken, Piece.counted, Lexed.position]
  | case5 c rest place found hblank rule k hfirst make hact e hmake =>
    refine ⟨[], c :: rest, .nil _, ?_, .nil found place⟩
    intro h
    cases h
  | case6 c rest place found hblank rule k hfirst hact ih =>
    obtain ⟨ps, out, hreads, hend, hacc⟩ := ih
    refine ⟨.skip k.piece :: ps, out, .skip (by simpa using hblank) hfirst hact hreads, hend,
      .cons ?_ ?_ ?_ hacc⟩ <;> simp [tokenMark, strayMark, Piece.isToken, Piece.counted]
  | case7 c rest place found hblank rule k hfirst hact ih =>
    obtain ⟨ps, out, hreads, hend, hacc⟩ := ih
    refine ⟨.lineBreaks k.piece :: ps, out, .lineBreaks (by simpa using hblank) hfirst hact hreads,
      hend, .cons ?_ ?_ ?_ hacc⟩ <;> simp [tokenMark, strayMark, Piece.isToken, Piece.counted]

/-- **Where a run places its tokens.** The `i`-th token of a run over a source stands at the
`i`-th token piece of what the scanner reads: its line is the starting line moved by the runs of
line breaks before it, and its column is the physical one. -/
theorem run_token (source : String) (line : Nat) (strays : Array Stray) (i : Nat)
    (hi : i < (lx.run source line strays).1.tokens.size) :
    ∃ pre piece post rest, lx.Reads source.toList (pre ++ .token piece :: post) rest ∧
      pre.countP Piece.isToken = i ∧
      (lx.run source line strays).1.tokens[i].line = line + breaks pre ∧
      (lx.run source line strays).1.tokens[i].column = columnAfter (texts pre) := by
  obtain ⟨ps, rest, hreads, -, hacc⟩ := scan_reads lx source.toList ⟨0, 0⟩ ⟨#[], strays, line⟩
  have htokens := hacc.tokens
  simp only [List.map_nil, List.nil_append] at htokens
  have hlen : i < (marks tokenMark line ⟨0, 0⟩ ps).length := by
    rw [← htokens, List.length_map, Array.length_toList]
    exact hi
  obtain ⟨pre, p, post, rfl, hcount, hmark⟩ := getElem_marks tokenMark ps line ⟨0, 0⟩ i hlen
  obtain ⟨piece, rfl, hb⟩ := eq_token_of_tokenMark hmark
  have hpos : (lx.run source line strays).1.tokens[i].position =
      (marks tokenMark line ⟨0, 0⟩ (pre ++ .token piece :: post))[i] := by
    simp only [← htokens, List.getElem_map, Array.getElem_toList]
    rfl
  rw [hb, Place.column_past_start] at hpos
  refine ⟨pre, piece, post, rest, hreads, by rwa [length_marks_tokenMark] at hcount, ?_, ?_⟩
  · exact congrArg Prod.fst hpos
  · exact congrArg Prod.snd hpos

/-- **Where a run places its strays.** The strays a run adds after those it was given stand at
the stray pieces of what the scanner reads, in order, each on the starting line moved by the runs
of line breaks before it, at its physical column. -/
theorem run_stray (source : String) (line : Nat) (strays : Array Stray) (i : Nat)
    (hi : i < (lx.run source line strays).1.strays.size) (hold : strays.size ≤ i) :
    ∃ pre c post rest, lx.Reads source.toList (pre ++ .stray c :: post) rest ∧
      strays.size + pre.countP Piece.isStray = i ∧
      (lx.run source line strays).1.strays[i] =
        ⟨c, line + breaks pre, columnAfter (texts pre)⟩ := by
  simp only [Lexer.run] at hi ⊢
  obtain ⟨ps, rest, hreads, -, hacc⟩ := scan_reads lx source.toList ⟨0, 0⟩ ⟨#[], strays, line⟩
  have hstrays := hacc.strays
  have hlen : i - strays.size < (marks strayMark line ⟨0, 0⟩ ps).length := by
    have := congrArg List.length hstrays
    simp only [List.length_append, Array.length_toList] at this
    omega
  obtain ⟨pre, p, post, rfl, hcount, hmark⟩ :=
    getElem_marks strayMark ps line ⟨0, 0⟩ (i - strays.size) hlen
  obtain ⟨c, rfl, hb⟩ := eq_stray_of_strayMark hmark
  refine ⟨pre, c, post, rest, hreads, by rw [← length_marks_strayMark line ⟨0, 0⟩]; omega, ?_⟩
  have hget : (lx.scan source.toList ⟨0, 0⟩ ⟨#[], strays, line⟩).1.strays[i]? =
      some ⟨c, line + breaks pre, columnAfter (texts pre)⟩ := by
    rw [← Array.getElem?_toList, hstrays, List.getElem?_append_right (by simpa using hold),
      Array.length_toList, List.getElem?_eq_getElem hlen, hb, Place.column_past_start]
  rw [Array.getElem?_eq_getElem hi] at hget
  exact Option.some.inj hget

/-- **A run counts its runs of line breaks.** A run that no failure stops reads its whole source,
and ends on the starting line moved by the runs of line breaks it read. -/
theorem run_line (source : String) (line : Nat) (strays : Array Stray)
    (hdone : (lx.run source line strays).2 = none) :
    ∃ ps, lx.Reads source.toList ps [] ∧ (lx.run source line strays).1.line = line + breaks ps := by
  obtain ⟨ps, rest, hreads, hend, hacc⟩ := scan_reads lx source.toList ⟨0, 0⟩ ⟨#[], strays, line⟩
  obtain rfl := hend hdone
  exact ⟨ps, hreads, hacc.line⟩

/-- Where line breaks stand in a scanner's pieces: no blank is a line break and some rule takes
each, a run of line breaks holds nothing else, and every other piece that holds one opens a
quoted text or a block comment. -/
structure CountsRuns (lx : Lexer ε κ) : Prop where
  blank_newline : lx.blank '\n' = false
  newline_taken : ∀ rest, lx.firstMatch? ('\n' :: rest) ≠ none
  runs : ∀ {input : List Char} {rule : Rule ε κ} {k : Cut input},
    lx.firstMatch? input = some (rule, k) → rule.action = .lineBreaks → ∀ x ∈ k.piece, x = '\n'
  others : ∀ {input : List Char} {rule : Rule ε κ} {k : Cut input},
    lx.firstMatch? input = some (rule, k) → rule.action ≠ .lineBreaks → '\n' ∈ k.piece →
      OpensQuoteOrComment k.piece

/-- A piece that a rule other than the run rule takes, and that holds a line break, opens a
quoted text or a block comment. -/
theorem CountsRuns.opens_of_hidden (hlx : lx.CountsRuns) {input : List Char} {rule : Rule ε κ}
    {k : Cut input} (hfirst : lx.firstMatch? input = some (rule, k))
    (hact : rule.action ≠ .lineBreaks) (hpos : 0 < k.piece.count '\n') :
    OpensQuoteOrComment k.piece :=
  hlx.others hfirst hact (List.count_pos_iff.mp hpos)

/-- What a line break in a source becomes: counted where it stands in a run, and otherwise held
in a quoted text or a block comment, where the line count does not see it. -/
theorem Reads.breaks_add_hidden (hlx : lx.CountsRuns) {text rest : List Char} {ps : List Piece}
    (h : lx.Reads text ps rest) :
    breaks ps + hiddenBreaks ps = (texts ps).count '\n' ∧
      ∀ p ∈ ps, 0 < p.hidden → OpensQuoteOrComment p.text := by
  induction h with
  | nil => simp
  | @blank c _ _ _ hblank _ ih =>
    have hc : c ≠ '\n' := by
      rintro rfl
      rw [hlx.blank_newline] at hblank
      cases hblank
    refine ⟨by simp [Piece.counted, Piece.hidden, Piece.text, hc, ← ih.1], ?_⟩
    simpa [Piece.hidden, Piece.text, hc] using ih.2
  | @stray c rest _ _ _ hnone _ ih =>
    have hc : c ≠ '\n' := by
      rintro rfl
      exact hlx.newline_taken rest hnone
    refine ⟨by simp [Piece.counted, Piece.hidden, Piece.text, hc, ← ih.1], ?_⟩
    simpa [Piece.hidden, Piece.text, hc] using ih.2
  | token _ hfirst hact _ _ ih =>
    refine ⟨by simp [Piece.counted, Piece.hidden, Piece.text, ← ih.1]; omega, ?_⟩
    simp only [List.mem_cons, forall_eq_or_imp]
    exact ⟨hlx.opens_of_hidden hfirst (by rw [hact]; exact Action.token_ne_lineBreaks _), ih.2⟩
  | skip _ hfirst hact _ ih =>
    refine ⟨by simp [Piece.counted, Piece.hidden, Piece.text, ← ih.1]; omega, ?_⟩
    simp only [List.mem_cons, forall_eq_or_imp]
    exact ⟨hlx.opens_of_hidden hfirst (by rw [hact]; exact Action.skip_ne_lineBreaks), ih.2⟩
  | lineBreaks _ hfirst hact _ ih =>
    have hrun := List.count_eq_length.mpr fun x hx => (hlx.runs hfirst hact x hx).symm
    refine ⟨by simp [Piece.counted, Piece.hidden, Piece.text, hrun, ← ih.1]; omega, ?_⟩
    simpa [Piece.hidden] using ih.2


/-- Rules that place their line breaks so: from the pieces of each rule, a lexer counts what its
runs count and hides the rest in quoted texts and block comments. -/
theorem CountsRuns.of_rules (hblank : lx.blank '\n' = false)
    (hrun : ∃ r ∈ lx.rules, ∀ rest, (r.pattern ('\n' :: rest)).isSome)
    (hrules : ∀ r ∈ lx.rules, r.PlacesBreaks) : lx.CountsRuns := by
  -- a first match is a match of one of the rules
  have hfirst : ∀ {input : List Char} {rule : Rule ε κ} {k : Cut input},
      lx.firstMatch? input = some (rule, k) → rule ∈ lx.rules ∧ rule.pattern input = some k := by
    intro input rule k h
    obtain ⟨r, hr, hmatch⟩ := List.exists_of_findSome?_eq_some h
    obtain ⟨k', hk', hrk⟩ := Option.map_eq_some_iff.mp hmatch
    obtain ⟨rfl, rfl⟩ := Prod.mk.inj hrk
    exact ⟨hr, hk'⟩
  refine ⟨hblank, fun rest hnone => ?_, fun h hact => ?_, fun h hact => ?_⟩
  · obtain ⟨r, hr, hsome⟩ := hrun
    have hmiss := (List.findSome?_eq_none_iff.mp hnone) r hr
    rw [Option.map_eq_none_iff] at hmiss
    have := hsome rest
    rw [hmiss] at this
    cases this
  · obtain ⟨hr, hk⟩ := hfirst h
    exact (hrules _ hr).1 hact hk
  · obtain ⟨hr, hk⟩ := hfirst h
    exact (hrules _ hr).2 hact hk

end Lexer
end Frontend.Scanner
