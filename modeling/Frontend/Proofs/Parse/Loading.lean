import Frontend.Parse.Parser

/-! When a parse table loads.

The loader reads every cell a row's reading gives, but the state cell, and each read either
gives a move, which sets an entry, or gives nothing, and the cell is dropped. One kind of cell
stops the whole load: trimmed, it is a nonempty run of digits in the wide sense, so it is taken
for a shift, yet no number can be read from it, because a character of it is no decimal digit
(a superscript, say) or it starts with more decimal digits than the reader accepts
(`UnreadableDigits`). Reading the text itself can also stop, at a field too long.

`create_fails_only_on_unreadable_digits` says this for every table text whose header names the
state column and whose every row has a state: a parser is created exactly when the text reads
without error and no cell it reads is such a run of digits. -/
namespace Frontend.Parse

/-! ### Folds that may fail -/

/-- A fold that may fail goes through exactly when each element passes, when whether a step
fails depends on the element alone. -/
theorem foldlM_except_ok_iff {α β ε : Type} (f : β → α → Except ε β) (P : α → Prop)
    (hf : ∀ b a, (∃ b', f b a = .ok b') ↔ P a) :
    ∀ (l : List α) (b : β), (∃ b', l.foldlM f b = .ok b') ↔ ∀ a ∈ l, P a
  | [], b => by
    simp only [List.foldlM_nil, List.not_mem_nil, false_imp_iff, imp_true_iff, iff_true]
    exact ⟨b, rfl⟩
  | a :: l, b => by
    rw [List.foldlM_cons, List.forall_mem_cons]
    cases h : f b a with
    | error e =>
      have hP : ¬ P a := fun hp => by
        obtain ⟨_, hb⟩ := (hf b a).mpr hp
        rw [h] at hb
        cases hb
      simp only [bind, Except.bind, hP, false_and, iff_false]
      rintro ⟨_, hb⟩
      cases hb
    | ok b' =>
      have hP : P a := (hf b a).mp ⟨b', h⟩
      simp only [bind, Except.bind, hP, true_and]
      exact foldlM_except_ok_iff f P hf l b'

/-! ### Cells -/

theorem digits_foldlM_eq_none_iff (cs : List Char) (acc : Nat) :
    cs.foldlM (fun acc c => (Text.digitValue? c).map fun v => acc * 10 + v) acc = none ↔
      ∃ c ∈ cs, Text.isDecimalDigit c = false := by
  induction cs generalizing acc with
  | nil => simp [pure]
  | cons c cs ih =>
    rw [List.foldlM_cons]
    cases h : Text.digitValue? c with
    | none => simp [bind, h, Text.isDecimalDigit]
    | some v => simp [bind, h, Text.isDecimalDigit, ih]

/-- No whole number is read from a text that starts with too many decimal digits, or that has a
character that is no decimal digit. -/
theorem readWhole_error_iff (cs : List Char) :
    (∃ e, Decimal.readWhole cs = .error e) ↔
      Decimal.digitLimit < Decimal.leadingDigits cs ∨ ∃ c ∈ cs, Text.isDecimalDigit c = false := by
  unfold Decimal.readWhole
  by_cases hlong : Decimal.digitLimit < Decimal.leadingDigits cs
  · simp [hlong]
  · simp only [hlong, if_false, false_or, ← digits_foldlM_eq_none_iff cs 0]
    split <;> rename_i h <;> simp [h]

/-- A cell taken for a shift from which no number can be read: trimmed, it is a nonempty run of
digits in the wide sense, and it starts with more than `digitLimit` decimal digits or has a
character that is no decimal digit. -/
def UnreadableDigits (s : String) : Prop :=
  Text.trimChars s.toList ≠ [] ∧ (Text.trimChars s.toList).all Text.isDigitLike = true ∧
    (Decimal.digitLimit < Decimal.leadingDigits (Text.trimChars s.toList) ∨
      ∃ c ∈ Text.trimChars s.toList, Text.isDecimalDigit c = false)

/-- Reading a cell fails on unreadable digits and on nothing else: an empty cell, a rule's text
and any other text all read. -/
theorem readCell_error_iff (s : String) : (∃ e, readCell s = .error e) ↔ UnreadableDigits s := by
  unfold readCell UnreadableDigits
  dsimp only
  generalize Text.trimChars s.toList = t
  by_cases hempty : t = []
  · subst hempty
    simp
  by_cases hdigits : t.all Text.isDigitLike = true
  · rw [if_neg (by simpa using hempty), if_pos hdigits, ← readWhole_error_iff]
    cases Decimal.readWhole t <;> simp [Except.map, hempty, hdigits]
  · rw [if_neg (by simpa using hempty), if_neg hdigits]
    simp only [Bool.not_eq_true] at hdigits
    simp only [hdigits, Bool.false_eq_true, false_and, and_false, iff_false]
    rintro ⟨e, he⟩
    split at he
    · split at he <;> cases he
    · cases he

/-! ### Rows -/

/-- The first entry under a key, by the key's test, is the key's lookup. -/
theorem find?_key_map_snd {β : Type} (l : List (String × β)) (k : String) :
    (l.find? (·.1 == k)).map Prod.snd = l.lookup k := by
  induction l with
  | nil => rfl
  | cons p l ih =>
    obtain ⟨k', v⟩ := p
    by_cases h : k' = k
    · subst h
      simp
    · have hne : (k == k') = false := beq_eq_false_iff_ne.mpr (Ne.symm h)
      simp [List.lookup_cons, h, hne, ih]

/-- A cell found under a key has a value exactly when the key's entry holds one. -/
theorem bind_snd_eq_some_iff {α β : Type} {o : Option (α × Option β)} {b : β} :
    o.bind Prod.snd = some b ↔ o.map Prod.snd = some (some b) := by
  cases o <;> simp

/-- A row is read when its reading gives the state column a cell, and no other cell it gives is
a run of digits that holds no number. -/
def RowReads (header row : List String) : Prop :=
  (∃ s, (keyedRow header row).lookup stateColumn = some (some s)) ∧
    ∀ k s, (k, some s) ∈ keyedRow header row → k ≠ stateColumn → ¬ UnreadableDigits s

/-- Adding a row's moves fails only on a row without a state or with unreadable digits, whatever
the table so far. -/
theorem addRow_ok_iff (header : List String) (t : ParseTable) (row : List String) :
    (∃ t', addRow header t row = .ok t') ↔ RowReads header row := by
  unfold addRow RowReads
  rw [← find?_key_map_snd]
  dsimp only
  split
  · rename_i s hs
    have hstate : ∃ s, ((keyedRow header row).find? (·.1 == stateColumn)).map Prod.snd =
        some (some s) := ⟨s, bind_snd_eq_some_iff.mp hs⟩
    simp only [hstate, true_and, pure, Except.pure, bind, Except.bind]
    -- each cell is read on its own: the table so far only decides which entry a move sets
    rw [foldlM_except_ok_iff _ (fun kv : String × Option String =>
      kv.1 ≠ stateColumn → ∀ s, kv.2 = some s → ¬ UnreadableDigits s) ?cell]
    · constructor
      · intro h k s hmem hk
        exact h _ hmem hk s rfl
      · rintro h ⟨k, v⟩ hmem hk s rfl
        exact h k s hmem hk
    · rintro b ⟨k, v⟩
      by_cases hk : k = stateColumn
      · simp [hk]
      · cases v with
        | none => simp [hk]
        | some s =>
          simp only [hk, ne_eq, not_false_eq_true, forall_const, Option.some.injEq, forall_eq',
            ← readCell_error_iff]
          cases readCell s with
          | error e =>
            have hmap : (Except.error e : Except Decimal.WholeError Cell).mapError
                LoadError.badNumber = .error (.badNumber e) := rfl
            simp [hmap, hk]
          | ok c =>
            have hmap : (Except.ok c : Except Decimal.WholeError Cell).mapError
                LoadError.badNumber = .ok c := rfl
            cases c <;> simp [hmap, hk]
  · rename_i hs
    have hstate : ¬ ∃ s, ((keyedRow header row).find? (·.1 == stateColumn)).map Prod.snd =
        some (some s) := by
      rintro ⟨s, hsome⟩
      rw [← bind_snd_eq_some_iff, hs] at hsome
      cases hsome
    refine iff_of_false ?_ fun h => hstate h.1
    rintro ⟨_, h⟩
    cases h

/-! ### Tables -/

theorem ofCsv_ok_iff {text : String} {header : List String} {rows : List (List String)}
    (hrec : (Csv.records ',' text).1 = header :: rows) (hcol : stateColumn ∈ header) :
    (∃ t, ParseTable.ofCsv text = .ok t) ↔
      (Csv.records ',' text).2 = none ∧ ∀ row ∈ rows, row ≠ [] → RowReads header row := by
  unfold ParseTable.ofCsv
  generalize Csv.records ',' text = r at hrec ⊢
  obtain ⟨records, failure⟩ := r
  dsimp only at hrec ⊢
  subst hrec
  have hrows := foldlM_except_ok_iff (addRow header) (RowReads header) (addRow_ok_iff header)
    (rows.filter (· ≠ [])) ⟨[]⟩
  simp only [List.mem_filter, decide_eq_true_eq, and_imp] at hrows
  have hc : header.contains stateColumn = true := by simpa using hcol
  simp only [hc, Bool.not_true, Bool.false_eq_true, if_false, bind, Except.bind]
  generalize List.foldlM (addRow header) ⟨[]⟩ (rows.filter (· ≠ [])) = loaded at hrows ⊢
  cases failure with
  | none =>
    rw [← hrows]
    cases loaded <;> simp [pure, Except.pure]
  | some e =>
    simp only [reduceCtorEq, false_and, iff_false]
    rintro ⟨t, h⟩
    cases loaded <;> cases h

/-- A parser is created from a table text whose header names the state column and whose every
row has a state exactly when the text reads without error and no cell it reads is a run of
digits that holds no number: such a cell stops the whole load. -/
theorem create_fails_only_on_unreadable_digits (tokens : List Token) (name text : String)
    {header : List String} {rows : List (List String)}
    (hrec : (Csv.records ',' text).1 = header :: rows) (hcol : stateColumn ∈ header)
    (hstate : ∀ row ∈ rows, row ≠ [] →
      ∃ s, (keyedRow header row).lookup stateColumn = some (some s)) :
    (∃ p, Parser.create tokens ⟨name, some text⟩ = .ok p) ↔
      (Csv.records ',' text).2 = none ∧ ∀ row ∈ rows, row ≠ [] →
        ∀ k s, (k, some s) ∈ keyedRow header row → k ≠ stateColumn → ¬ UnreadableDigits s := by
  have hcreate : (∃ p, Parser.create tokens ⟨name, some text⟩ = .ok p) ↔
      ∃ t, ParseTable.ofCsv text = .ok t := by
    simp only [Parser.create, ParseTable.load]
    cases ParseTable.ofCsv text <;> simp [Except.map]
  rw [hcreate, ofCsv_ok_iff hrec hcol]
  refine and_congr_right fun _ => forall₂_congr fun row hrow => imp_congr_right fun hne => ?_
  exact ⟨fun h => h.2, fun h => ⟨hstate row hrow hne, h⟩⟩

/-- A table whose one cell is a superscript two: a digit to the loader's test, but no number,
so no parser is created. -/
theorem create_fails_on_superscript_two :
    ¬ ∃ p, Parser.create [] ⟨"tabla.csv", some "Nonterminal,VAR\nPROGRAMA,²\n"⟩ = .ok p := by
  have hrec : (Csv.records ',' "Nonterminal,VAR\nPROGRAMA,²\n").1 =
      ["Nonterminal", "VAR"] :: [["PROGRAMA", "²"]] := by decide +kernel
  rw [create_fails_only_on_unreadable_digits [] "tabla.csv" _ hrec (by decide) ?state]
  · rintro ⟨-, hcells⟩
    -- a superscript two is a digit, but no decimal one
    have htrim : Text.trimChars "²".toList = ['²'] := by decide
    have hdigit : Text.isDigitLike '²' = true := by decide
    have hdecimal : Text.isDecimalDigit '²' = false := by decide
    have hunreadable : UnreadableDigits "²" := by
      unfold UnreadableDigits
      rw [htrim]
      exact ⟨List.cons_ne_nil _ _, by simp [hdigit], .inr ⟨'²', List.mem_singleton_self _, hdecimal⟩⟩
    exact hcells ["PROGRAMA", "²"] (List.mem_singleton_self _) (by decide) "VAR" "²"
      (by decide +kernel) (by decide) hunreadable
  · rintro row hrow -
    rw [List.mem_singleton.mp hrow]
    exact ⟨"PROGRAMA", by decide +kernel⟩

end Frontend.Parse
