import Frontend.Scanner.Pattern

/-! What the patterns take.

A pattern *recognizes* a set of texts when, at the front of every text, it takes a piece in the
set, the longest such piece, and takes nothing only where the set holds no nonempty piece
(`Recognizes`). The sets are given as tests on whole texts, each said without the pattern that
finds it: a fixed word, a run of a character class (`spanText`), a text that ends at the first
occurrence of a closing word (`endsAtFirst`), the rest of a quoted text after its opening quote
(`quotedRest`), a word followed by a text of another set (`startsWith`), and a run possibly
followed by a text of another set (`runThenMaybe`).

Each pattern of `Scanner.Pattern` recognizes its set: `Recognizes.word`, `Recognizes.span`,
`Recognizes.upTo`, `Recognizes.quotedBody`, and for the combinators `Recognizes.wordThen`,
`Recognizes.wordWhile` and `Recognizes.spanThenMaybe`. -/
namespace Frontend.Scanner

/-- A prefix of a list whose members all pass a test is no longer than the list's first run of
members that pass it. -/
theorem length_le_takeWhile {α : Type} {p : α → Bool} {q l : List α} (hq : q <+: l)
    (hall : q.all p = true) : q.length ≤ (l.takeWhile p).length := by
  induction q generalizing l with
  | nil => simp
  | cons x q ih =>
    obtain ⟨t, rfl⟩ := hq
    simp only [List.all_cons, Bool.and_eq_true] at hall
    simp only [List.cons_append, List.takeWhile_cons, hall.1, if_true, List.length_cons]
    exact Nat.succ_le_succ (ih ⟨t, rfl⟩ hall.2)

/-- A run of members that pass a test, then one that fails it: the run is where the test stops. -/
theorem takeWhile_append_stop {α : Type} {p : α → Bool} {run : List α} {d : α} (rest : List α)
    (hrun : run.all p = true) (hd : p d = false) :
    (run ++ d :: rest).takeWhile p = run ∧ (run ++ d :: rest).dropWhile p = d :: rest := by
  have hmem : ∀ a ∈ run, p a = true := List.all_eq_true.mp hrun
  rw [List.takeWhile_append_of_pos hmem, List.dropWhile_append_of_pos hmem]
  simp [hd]

/-- A piece at the front of a list, whose run of members that pass a test ends at one that fails
it: the list's run is the piece's run, and what follows it in the list starts with what follows
it in the piece. -/
theorem takeWhile_of_prefix_stop {α : Type} {p : α → Bool} {qs cs : List α} {d : α} {t : List α}
    (hqs : qs <+: cs) (hdt : qs.dropWhile p = d :: t) (hd : p d = false) :
    cs.takeWhile p = qs.takeWhile p ∧ d :: t <+: cs.dropWhile p := by
  obtain ⟨u, rfl⟩ := hqs
  have hsplit : qs = qs.takeWhile p ++ d :: t := by
    rw [← hdt, List.takeWhile_append_dropWhile]
  have hstop := takeWhile_append_stop (t ++ u) (List.all_takeWhile (l := qs)) hd
  have hcs : qs ++ u = qs.takeWhile p ++ d :: (t ++ u) :=
    calc qs ++ u = (qs.takeWhile p ++ d :: t) ++ u := by rw [← hsplit]
      _ = qs.takeWhile p ++ d :: (t ++ u) := by simp
  rw [hcs, hstop.1, hstop.2]
  exact ⟨rfl, ⟨u, rfl⟩⟩

theorem prefix_drop_of_append {w t input : List Char} (h : w ++ t <+: input) :
    t <+: input.drop w.length := by
  obtain ⟨u, rfl⟩ := h
  exact ⟨u, by simp⟩

theorem Cut.piece_isPrefix {input : List Char} (k : Cut input) : k.piece <+: input :=
  ⟨k.rest, k.append_eq⟩

theorem Cut.rest_eq_drop {input : List Char} (k : Cut input) :
    k.rest = input.drop k.piece.length := by
  have h := congrArg (List.drop k.piece.length) k.append_eq
  simpa using h

/-- A pattern recognizes a set of texts: what it takes is in the set, is the longest piece at the
front of the text that is, and it takes something wherever such a nonempty piece exists. -/
structure Recognizes (p : Pattern) (holds : List Char → Bool) : Prop where
  sound : ∀ {input : List Char} {k : Cut input}, p input = some k → holds k.piece = true
  longest : ∀ {input q : List Char} {k : Cut input}, p input = some k → q <+: input →
    holds q = true → q.length ≤ k.piece.length
  complete : ∀ {input q : List Char}, q ≠ [] → q <+: input → holds q = true →
    (p input).isSome

/-- Where a pattern takes nothing, its set holds no nonempty piece at the front of the text. -/
theorem Recognizes.holds_eq_false {p : Pattern} {holds : List Char → Bool}
    (hr : Recognizes p holds) {input q : List Char} (hn : p input = none) (hne : q ≠ [])
    (hq : q <+: input) : holds q = false := by
  apply Bool.eq_false_iff.mpr
  intro hh
  have := hr.complete hne hq hh
  rw [hn] at this
  cases this

/-! ### The sets -/

/-- The texts of one character of a first class and then any number of a second. -/
def spanText (first more : Char → Bool) : List Char → Bool
  | [] => false
  | c :: cs => first c && cs.all more

/-- The texts that end at the first place where a closing word occurs in them. -/
def endsAtFirst (close : List Char) : List Char → Bool
  | [] => false
  | c :: r => if close.isPrefixOf (c :: r) then c :: r == close else endsAtFirst close r

/-- What follows the opening quote of a quoted text: characters other than a double quote and a
backslash, and backslashes each with the character after it, which is not a line break, up to the
closing quote, which ends the text. -/
def quotedRest : List Char → Bool
  | [] => false
  | '"' :: r => r.isEmpty
  | '\\' :: d :: r => d != '\n' && quotedRest r
  | ['\\'] => false
  | _ :: r => quotedRest r

/-- The texts made of a word and then a text of a second set. -/
def startsWith (w : List Char) (tail : List Char → Bool) (s : List Char) : Bool :=
  w.isPrefixOf s && tail (s.drop w.length)

/-- The texts of a run, possibly followed by a text of a second set: one character of a first
class, characters of a second, and then nothing or a text of the set. -/
def runThenMaybe (first more : Char → Bool) (tail : List Char → Bool) : List Char → Bool
  | [] => false
  | c :: cs => first c && (cs.all more || tail (cs.dropWhile more))

theorem endsAtFirst_self {close : List Char} (hc : close ≠ []) : endsAtFirst close close = true := by
  cases close with
  | nil => exact absurd rfl hc
  | cons c r => simp [endsAtFirst]

/-- A text that ends at its first closing word and starts with that word is the word. -/
theorem eq_of_endsAtFirst {close q : List Char} (hp : close <+: q)
    (hq : endsAtFirst close q = true) : q = close := by
  cases q with
  | nil => simp [endsAtFirst] at hq
  | cons c r =>
    simp only [endsAtFirst, List.isPrefixOf_iff_prefix.mpr hp, if_true, beq_iff_eq] at hq
    exact hq

theorem startsWith_iff {w : List Char} {tail : List Char → Bool} {s : List Char} :
    startsWith w tail s = true ↔ ∃ t, s = w ++ t ∧ tail t = true := by
  constructor
  · intro h
    simp only [startsWith, Bool.and_eq_true, List.isPrefixOf_iff_prefix] at h
    obtain ⟨⟨t, rfl⟩, ht⟩ := h
    exact ⟨t, rfl, by simpa using ht⟩
  · rintro ⟨t, rfl, ht⟩
    simp [startsWith, ht]

namespace Pattern

/-! ### What a match is made of -/

theorem word_eq_some {w input : List Char} {k : Cut input} (h : word w input = some k) :
    w <+: input ∧ k.piece = w := by
  unfold word at h
  split at h
  · rename_i hw
    cases h
    exact ⟨List.isPrefixOf_iff_prefix.mp hw.2, rfl⟩
  · cases h

theorem word_isSome {w input : List Char} (hw : w ≠ []) (hp : w <+: input) :
    (word w input).isSome := by
  unfold word
  rw [dif_pos ⟨hw, List.isPrefixOf_iff_prefix.mpr hp⟩]
  rfl

/-- Where a word does not match, no prefix of the text starts with it. -/
theorem isPrefixOf_eq_false {w input q : List Char} (hw : w ≠ []) (h : word w input = none)
    (hq : q <+: input) : w.isPrefixOf q = false := by
  apply Bool.eq_false_iff.mpr
  intro hp
  have hs := word_isSome hw ((List.isPrefixOf_iff_prefix.mp hp).trans hq)
  rw [h] at hs
  cases hs

/-- What follows a word in a piece at the front of the text follows it in the text. -/
theorem word_rest {w t input : List Char} {k : Cut input} (h : word w input = some k)
    (hq : w ++ t <+: input) : t <+: k.rest := by
  rw [k.rest_eq_drop, (word_eq_some h).2]
  exact prefix_drop_of_append hq

theorem span_eq_some {first more : Char → Bool} {input : List Char} {k : Cut input}
    (h : span first more input = some k) :
    ∃ c cs, input = c :: cs ∧ first c = true ∧ k.piece = c :: cs.takeWhile more ∧
      k.rest = cs.dropWhile more := by
  cases input with
  | nil => cases h
  | cons c cs =>
    rw [span] at h
    split at h
    · rename_i hc
      cases h
      exact ⟨c, cs, rfl, hc, rfl, rfl⟩
    · cases h

theorem thenWhile_eq_some {p : Pattern} {more : Char → Bool} {input : List Char}
    {k : Cut input} (h : p.thenWhile more input = some k) :
    ∃ k₀ : Cut input, p input = some k₀ ∧ k.piece = k₀.piece ++ k₀.rest.takeWhile more := by
  unfold thenWhile at h
  obtain ⟨k₀, h₀, rfl⟩ := Option.map_eq_some_iff.mp h
  exact ⟨k₀, h₀, rfl⟩

theorem andThen_eq_some {p q : Pattern} {input : List Char} {k : Cut input}
    (h : p.andThen q input = some k) :
    ∃ (k₁ : Cut input) (k₂ : Cut k₁.rest), p input = some k₁ ∧ q k₁.rest = some k₂ ∧
      k.piece = k₁.piece ++ k₂.piece := by
  unfold andThen at h
  split at h
  · cases h
  · rename_i k₁ h₁
    obtain ⟨k₂, h₂, rfl⟩ := Option.map_eq_some_iff.mp h
    exact ⟨k₁, k₂, h₁, h₂, rfl⟩

theorem andThen_isSome {p q : Pattern} {input : List Char} {k₁ : Cut input}
    (h₁ : p input = some k₁) (h₂ : (q k₁.rest).isSome) : (p.andThen q input).isSome := by
  unfold andThen
  rw [h₁]
  simpa using h₂

theorem thenMaybe_eq_some {p q : Pattern} {input : List Char} {k : Cut input}
    (h : p.thenMaybe q input = some k) :
    ∃ k₁ : Cut input, p input = some k₁ ∧
      ((q k₁.rest = none ∧ k.piece = k₁.piece) ∨
        ∃ k₂ : Cut k₁.rest, q k₁.rest = some k₂ ∧ k.piece = k₁.piece ++ k₂.piece) := by
  unfold thenMaybe at h
  obtain ⟨k₁, h₁, hk⟩ := Option.map_eq_some_iff.mp h
  refine ⟨k₁, h₁, ?_⟩
  split at hk
  · rename_i h₂
    exact Or.inl ⟨h₂, by rw [← hk]⟩
  · rename_i k₂ h₂
    exact Or.inr ⟨k₂, h₂, by rw [← hk]⟩

/-- A text between delimiters is the opening word and then the text up to the closing one. -/
theorem between_eq_andThen (opening close : List Char) :
    between opening close = (word opening).andThen (upTo close) := rfl

/-- A quoted text is the opening quote and then the rest of the text. -/
theorem quoted_eq_andThen : quoted = (word ['"']).andThen quotedBody := by
  funext input
  cases input with
  | nil => rfl
  | cons c cs =>
    by_cases hc : c = '"'
    · subst hc
      have hword : word ['"'] ('"' :: cs) = some ⟨['"'], cs, List.cons_ne_nil _ _, rfl⟩ := by
        simp [word]
      rw [quoted, if_pos rfl]
      simp only [andThen, hword]
      rfl
    · simp [quoted, andThen, word, hc, Ne.symm hc]

end Pattern

/-! ### Words and runs -/

/-- A fixed word recognizes itself. -/
theorem Recognizes.word (w : List Char) : Recognizes (Pattern.word w) (· == w) where
  sound h := by simp [(Pattern.word_eq_some h).2]
  longest h _ hq := by
    have hq : _ = w := beq_iff_eq.mp hq
    exact Nat.le_of_eq (by rw [hq, (Pattern.word_eq_some h).2])
  complete hne hp hq := by
    have hq : _ = w := beq_iff_eq.mp hq
    subst hq
    exact Pattern.word_isSome hne hp

/-- A run recognizes the texts of its classes, taking every character of the second class that
follows. -/
theorem Recognizes.span (first more : Char → Bool) :
    Recognizes (Pattern.span first more) (spanText first more) where
  sound h := by
    obtain ⟨c, cs, rfl, hc, hk, -⟩ := Pattern.span_eq_some h
    simp [hk, spanText, hc]
  longest := by
    intro input q k h hp hq
    obtain ⟨c, cs, rfl, _, hk, -⟩ := Pattern.span_eq_some h
    match q, hp, hq with
    | d :: ds, hp, hq =>
      obtain ⟨_, hds⟩ := List.cons_prefix_cons.mp hp
      simp only [spanText, Bool.and_eq_true] at hq
      rw [hk, List.length_cons, List.length_cons]
      exact Nat.succ_le_succ (length_le_takeWhile hds hq.2)
  complete := by
    intro input q hne hp hq
    match q, input, hp, hq with
    | d :: ds, c :: cs, hp, hq =>
      obtain ⟨rfl, _⟩ := List.cons_prefix_cons.mp hp
      simp only [spanText, Bool.and_eq_true] at hq
      simp [Pattern.span, hq.1]

/-! ### Delimited texts -/

section UpTo
variable {close : List Char}

theorem upTo_sound (hc : close ≠ []) {input : List Char} {k : Cut input}
    (h : Pattern.upTo close input = some k) : endsAtFirst close k.piece = true := by
  induction input using Pattern.upTo.induct close with
  | case1 => cases h
  | case2 c cs k' hw =>
    rw [Pattern.upTo, hw] at h
    cases h
    rw [(Pattern.word_eq_some hw).2]
    exact endsAtFirst_self hc
  | case3 c cs hw ih =>
    rw [Pattern.upTo, hw] at h
    obtain ⟨k', h', rfl⟩ := Option.map_eq_some_iff.mp h
    -- the closing word does not start the cut, since it does not start the text
    have hnot := Pattern.isPrefixOf_eq_false hc hw (k'.cons c).piece_isPrefix
    simp only [Cut.cons] at hnot ⊢
    simp [endsAtFirst, hnot, ih h']

theorem upTo_longest (hc : close ≠ []) {input q : List Char} {k : Cut input}
    (h : Pattern.upTo close input = some k) (hp : q <+: input)
    (hq : endsAtFirst close q = true) : q.length ≤ k.piece.length := by
  induction input using Pattern.upTo.induct close generalizing q with
  | case1 => cases h
  | case2 c cs k' hw =>
    rw [Pattern.upTo, hw] at h
    cases h
    obtain ⟨hcl, hk⟩ := Pattern.word_eq_some hw
    rw [hk]
    -- both are prefixes of the text: the shorter one is `q`, or `q` starts with the word
    rcases List.prefix_or_prefix_of_prefix hp hcl with h' | h'
    · exact h'.length_le
    · simp [eq_of_endsAtFirst h' hq]
  | case3 c cs hw ih =>
    rw [Pattern.upTo, hw] at h
    obtain ⟨k', h', rfl⟩ := Option.map_eq_some_iff.mp h
    match q, hp, hq with
    | [], _, hq => simp [endsAtFirst] at hq
    | d :: q', hp, hq =>
      have hnot := Pattern.isPrefixOf_eq_false hc hw hp
      obtain ⟨rfl, hp'⟩ := List.cons_prefix_cons.mp hp
      simp only [endsAtFirst, hnot, Bool.false_eq_true, if_false] at hq
      simpa [Cut.cons] using ih h' hp' hq

theorem upTo_complete (hc : close ≠ []) {input q : List Char} (hne : q ≠ []) (hp : q <+: input)
    (hq : endsAtFirst close q = true) : (Pattern.upTo close input).isSome := by
  induction input using Pattern.upTo.induct close generalizing q with
  | case1 => exact absurd (List.prefix_nil.mp hp) hne
  | case2 c cs k' hw => rw [Pattern.upTo, hw]; rfl
  | case3 c cs hw ih =>
    rw [Pattern.upTo, hw]
    match q, hp, hq with
    | d :: q', hp, hq =>
      have hnot := Pattern.isPrefixOf_eq_false hc hw hp
      obtain ⟨rfl, hp'⟩ := List.cons_prefix_cons.mp hp
      simp only [endsAtFirst, hnot, Bool.false_eq_true, if_false] at hq
      have hne' : q' ≠ [] := by
        rintro rfl
        simp [endsAtFirst] at hq
      simpa using ih hne' hp' hq

/-- The text up to a closing word recognizes the texts that end at their first closing word. -/
theorem Recognizes.upTo (hc : close ≠ []) : Recognizes (Pattern.upTo close) (endsAtFirst close) :=
  ⟨upTo_sound hc, upTo_longest hc, upTo_complete hc⟩

end UpTo

section QuotedBody

theorem quotedRest_cons {c : Char} (hq : c ≠ '"') (hb : c ≠ '\\') (r : List Char) :
    quotedRest (c :: r) = quotedRest r :=
  quotedRest.eq_5 _ _ hq (fun _ _ h => absurd h hb) (fun h => absurd h hb)

theorem quotedBody_sound {input : List Char} {k : Cut input}
    (h : Pattern.quotedBody input = some k) : quotedRest k.piece = true := by
  induction input using Pattern.quotedBody.induct with
  | case1 => cases h
  | case2 cs =>
    rw [Pattern.quotedBody.eq_def] at h
    simp only [if_true] at h
    cases h
    simp [quotedRest]
  | case3 => simp [Pattern.quotedBody] at h
  | case4 cs => simp [Pattern.quotedBody] at h
  | case5 d cs hd hb ih =>
    rw [Pattern.quotedBody.eq_def] at h
    simp only [hb, hd, if_false, if_true] at h
    obtain ⟨k', h', rfl⟩ := Option.map_eq_some_iff.mp h
    simp [Cut.cons, quotedRest, hd, ih h']
  | case6 c cs hq hb ih =>
    rw [Pattern.quotedBody.eq_def] at h
    simp only [hq, hb, if_false] at h
    obtain ⟨k', h', rfl⟩ := Option.map_eq_some_iff.mp h
    simp [Cut.cons, quotedRest_cons hq hb, ih h']

/-- A quoted rest at the front of a backslash and a character: the pair, which is no line break,
and then a quoted rest. -/
theorem quotedRest_of_escape {d : Char} {cs q : List Char} (hp : q <+: '\\' :: d :: cs)
    (hq : quotedRest q = true) :
    ∃ q', q = '\\' :: d :: q' ∧ q' <+: cs ∧ d ≠ '\n' ∧ quotedRest q' = true := by
  match q, hp, hq with
  | [e], hp, hq =>
    obtain ⟨rfl, -⟩ := List.cons_prefix_cons.mp hp
    simp [quotedRest] at hq
  | e :: e' :: q', hp, hq =>
    obtain ⟨rfl, hp₁⟩ := List.cons_prefix_cons.mp hp
    obtain ⟨rfl, hp'⟩ := List.cons_prefix_cons.mp hp₁
    simp only [quotedRest, Bool.and_eq_true, bne_iff_ne] at hq
    exact ⟨q', rfl, hp', hq.1, hq.2⟩

/-- A quoted rest at the front of a character other than a quote and a backslash: the character,
and then a quoted rest. -/
theorem quotedRest_of_plain {c : Char} {cs q : List Char} (hq' : c ≠ '"') (hb : c ≠ '\\')
    (hp : q <+: c :: cs) (hq : quotedRest q = true) :
    ∃ q', q = c :: q' ∧ q' <+: cs ∧ quotedRest q' = true := by
  match q, hp, hq with
  | e :: q', hp, hq =>
    obtain ⟨rfl, hp'⟩ := List.cons_prefix_cons.mp hp
    rw [quotedRest_cons hq' hb] at hq
    exact ⟨q', rfl, hp', hq⟩

/-- The rest of a quoted text is determined by the text: it ends at the first closing quote
that no backslash takes. -/
theorem quotedBody_longest {input q : List Char} {k : Cut input}
    (h : Pattern.quotedBody input = some k) (hp : q <+: input) (hq : quotedRest q = true) :
    q.length ≤ k.piece.length := by
  induction input using Pattern.quotedBody.induct generalizing q with
  | case1 => cases h
  | case2 cs =>
    rw [Pattern.quotedBody.eq_def] at h
    simp only [if_true] at h
    cases h
    match q, hp, hq with
    | d :: q', hp, hq =>
      obtain ⟨rfl, -⟩ := List.cons_prefix_cons.mp hp
      simp only [quotedRest, List.isEmpty_iff] at hq
      simp [hq]
  | case3 => simp [Pattern.quotedBody] at h
  | case4 cs => simp [Pattern.quotedBody] at h
  | case5 d cs hd hb ih =>
    rw [Pattern.quotedBody.eq_def] at h
    simp only [hb, hd, if_false, if_true] at h
    obtain ⟨k', h', rfl⟩ := Option.map_eq_some_iff.mp h
    obtain ⟨q', rfl, hp', -, hq'⟩ := quotedRest_of_escape hp hq
    simpa [Cut.cons] using ih h' hp' hq'
  | case6 c cs hq' hb ih =>
    rw [Pattern.quotedBody.eq_def] at h
    simp only [hq', hb, if_false] at h
    obtain ⟨k', h', rfl⟩ := Option.map_eq_some_iff.mp h
    obtain ⟨q', rfl, hp', hq'⟩ := quotedRest_of_plain hq' hb hp hq
    simpa [Cut.cons] using ih h' hp' hq'

theorem quotedBody_complete {input q : List Char} (hp : q <+: input) (hq : quotedRest q = true) :
    (Pattern.quotedBody input).isSome := by
  induction input using Pattern.quotedBody.induct generalizing q with
  | case1 =>
    rw [List.prefix_nil.mp hp] at hq
    cases hq
  | case2 cs => simp [Pattern.quotedBody.eq_def]
  | case3 =>
    match q, hp, hq with
    | [e], hp, hq =>
      obtain ⟨rfl, -⟩ := List.cons_prefix_cons.mp hp
      simp [quotedRest] at hq
  | case4 cs =>
    -- a backslash before a line break ends every quoted rest
    obtain ⟨_, -, -, hd, -⟩ := quotedRest_of_escape hp hq
    exact absurd rfl hd
  | case5 d cs hd hb ih =>
    rw [Pattern.quotedBody.eq_def]
    simp only [hb, hd, if_false, if_true, Option.isSome_map]
    obtain ⟨q', -, hp', -, hq'⟩ := quotedRest_of_escape hp hq
    exact ih hp' hq'
  | case6 c cs hq' hb ih =>
    rw [Pattern.quotedBody.eq_def]
    simp only [hq', hb, if_false, Option.isSome_map]
    obtain ⟨q', -, hp', hq'⟩ := quotedRest_of_plain hq' hb hp hq
    exact ih hp' hq'

/-- The rest of a quoted text recognizes what may follow an opening quote. -/
theorem Recognizes.quotedBody : Recognizes Pattern.quotedBody quotedRest :=
  ⟨quotedBody_sound, quotedBody_longest, fun _ hp hq => quotedBody_complete hp hq⟩

end QuotedBody

/-! ### Combinators -/

section Combinators
variable {w : List Char}

/-- A word and then a pattern recognize the word followed by a text of the pattern's set. -/
theorem Recognizes.wordThen {p : Pattern} {tail : List Char → Bool} (hw : w ≠ [])
    (hp : Recognizes p tail) (hnil : tail [] = false) :
    Recognizes ((Pattern.word w).andThen p) (startsWith w tail) where
  sound h := by
    obtain ⟨k₁, k₂, h₁, h₂, hk⟩ := Pattern.andThen_eq_some h
    rw [hk, (Pattern.word_eq_some h₁).2]
    exact startsWith_iff.mpr ⟨_, rfl, hp.sound h₂⟩
  longest := by
    intro input q k h hq ht
    obtain ⟨k₁, k₂, h₁, h₂, hk⟩ := Pattern.andThen_eq_some h
    obtain ⟨t, rfl, htail⟩ := startsWith_iff.mp ht
    have := hp.longest h₂ (Pattern.word_rest h₁ hq) htail
    rw [hk, (Pattern.word_eq_some h₁).2, List.length_append, List.length_append]
    omega
  complete := by
    intro input q _ hq ht
    obtain ⟨t, rfl, htail⟩ := startsWith_iff.mp ht
    obtain ⟨k₁, h₁⟩ := Option.isSome_iff_exists.mp
      (Pattern.word_isSome hw ((List.prefix_append w t).trans hq))
    have hne : t ≠ [] := by
      rintro rfl
      rw [hnil] at htail
      cases htail
    exact Pattern.andThen_isSome h₁ (hp.complete hne (Pattern.word_rest h₁ hq) htail)

/-- A word and then a run of a class recognize the word followed by characters of the class. -/
theorem Recognizes.wordWhile (more : Char → Bool) (hw : w ≠ []) :
    Recognizes ((Pattern.word w).thenWhile more) (startsWith w (·.all more)) where
  sound h := by
    obtain ⟨k₀, h₀, hk⟩ := Pattern.thenWhile_eq_some h
    rw [hk, (Pattern.word_eq_some h₀).2]
    exact startsWith_iff.mpr ⟨_, rfl, List.all_takeWhile⟩
  longest := by
    intro input q k h hq ht
    obtain ⟨k₀, h₀, hk⟩ := Pattern.thenWhile_eq_some h
    obtain ⟨t, rfl, htail⟩ := startsWith_iff.mp ht
    have := length_le_takeWhile (Pattern.word_rest h₀ hq) htail
    rw [hk, (Pattern.word_eq_some h₀).2, List.length_append, List.length_append]
    omega
  complete := by
    intro input q _ hq ht
    obtain ⟨t, rfl, -⟩ := startsWith_iff.mp ht
    simpa [Pattern.thenWhile] using Pattern.word_isSome hw ((List.prefix_append w t).trans hq)

/-- A run, then possibly a text of a set whose texts start outside the run's class, recognize the
run possibly followed by such a text: the run stops where the text begins. -/
theorem Recognizes.spanThenMaybe {first more : Char → Bool} {p : Pattern}
    {tail : List Char → Bool} (hp : Recognizes p tail)
    (hstart : ∀ s, tail s = true → ∃ d t, s = d :: t ∧ more d = false) :
    Recognizes ((Pattern.span first more).thenMaybe p) (runThenMaybe first more tail) where
  sound h := by
    obtain ⟨k₁, h₁, hk⟩ := Pattern.thenMaybe_eq_some h
    obtain ⟨c, cs, rfl, hc, hk₁, -⟩ := Pattern.span_eq_some h₁
    rcases hk with ⟨-, hk⟩ | ⟨k₂, h₂, hk⟩
    · simp [hk, hk₁, runThenMaybe, hc, List.all_takeWhile]
    · -- the second text starts outside the class, so the run before it is all of the run
      obtain ⟨d, t, hdt, hd⟩ := hstart _ (hp.sound h₂)
      have hstop := takeWhile_append_stop t (List.all_takeWhile (l := cs)) hd
      rw [hk, hk₁, List.cons_append]
      simp only [runThenMaybe, hc, Bool.true_and]
      rw [hdt, hstop.2, ← hdt, hp.sound h₂, Bool.or_true]
  longest := by
    intro input q k h hq hr
    obtain ⟨k₁, h₁, hk⟩ := Pattern.thenMaybe_eq_some h
    have hle₁ : k₁.piece.length ≤ k.piece.length := by
      rcases hk with ⟨-, hk⟩ | ⟨k₂, -, hk⟩ <;> simp [hk]
    obtain ⟨c, cs, rfl, -, hk₁, hr₁⟩ := Pattern.span_eq_some h₁
    match q, hq, hr with
    | e :: qs, hq, hr =>
      obtain ⟨rfl, hqs⟩ := List.cons_prefix_cons.mp hq
      simp only [runThenMaybe, Bool.and_eq_true, Bool.or_eq_true] at hr
      rcases hr.2 with hall | htail
      · -- a bare run is no longer than the run the pattern takes
        have := length_le_takeWhile hqs hall
        rw [hk₁, List.length_cons] at hle₁
        simp only [List.length_cons]
        omega
      · -- the run in `q` stops where the text begins, as the run in the input does
        obtain ⟨d, t, hdt, hd⟩ := hstart _ htail
        obtain ⟨hrun, hrest⟩ := takeWhile_of_prefix_stop hqs hdt hd
        have htail' : qs.dropWhile more <+: k₁.rest := by
          rw [hr₁, hdt]
          exact hrest
        obtain ⟨k₂, h₂, hk₂⟩ : ∃ k₂ : Cut k₁.rest, p k₁.rest = some k₂ ∧
            k.piece = k₁.piece ++ k₂.piece := by
          rcases hk with ⟨hnone, -⟩ | hsome
          · have := hp.complete (by simp [hdt]) htail' htail
            rw [hnone] at this
            cases this
          · exact hsome
        have hlen := hp.longest h₂ htail' htail
        have hqs_len : qs.length = (qs.takeWhile more).length + (qs.dropWhile more).length := by
          rw [← List.length_append, List.takeWhile_append_dropWhile]
        rw [hk₂, hk₁, hrun, List.length_append]
        simp only [List.length_cons]
        omega
  complete := by
    intro input q hne hq hr
    match q, input, hq, hr with
    | e :: qs, c :: cs, hq, hr =>
      obtain ⟨rfl, -⟩ := List.cons_prefix_cons.mp hq
      simp only [runThenMaybe, Bool.and_eq_true] at hr
      simp [Pattern.thenMaybe, Pattern.span, hr.1]

end Combinators

end Frontend.Scanner
