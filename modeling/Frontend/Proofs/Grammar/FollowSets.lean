import Frontend.Proofs.Grammar.FirstSets

/-! FOLLOW sets: the scans end at the least family.

Given FIRST sets, the FOLLOW family of a grammar with a start symbol is the least family of symbol
sets closed under three rules (`InFollow`): the start symbol is followed by the end marker; at an
occurrence of a nonterminal `x` in a body, the non-empty members of FIRST of what follows `x` follow
`x`; and when what follows `x` can vanish, whatever follows the head follows `x`. FIRST of a
sequence is read off the FIRST sets by `firstOfSequence` (`mem_firstOfSequence`).

Each occurrence's turn adds members of that family only (`FollowSound`) and only at the end of
the occurrence's set, and it counts growth whenever its set got longer. So a scan that counts
growth adds a pair of a symbol and a member, and with the grammar's FIRST sets every such pair is
one of symbols of the grammar: the loop ends within its fuel at a scan that counts none
(`followLoop_fixed`). A scan that counts no growth changed no set, so its table is closed under
every occurrence and holds the whole family.

**`followSets_least`**: with the grammar's FIRST sets, more fuel than the loop is given changes
nothing, and the FOLLOW sets it ends with are exactly the least family. -/
namespace Frontend.Grammar

/-! ### FIRST of a sequence -/

section Sequence

variable (first : SetTable)

/-- `m` is a non-empty member of FIRST of a sequence: it is in the set of a symbol of the
sequence, after symbols whose sets all hold `""`. -/
def BeginsSeq (seq : List String) (m : String) : Prop :=
  ∃ mid y post, seq = mid ++ y :: post ∧ (∀ z ∈ mid, "" ∈ first.get z) ∧ m ∈ first.get y ∧ m ≠ ""

variable {first}

theorem not_beginsSeq_nil (m : String) : ¬ BeginsSeq first [] m := by
  rintro ⟨mid, y, post, h, -⟩
  simp at h

theorem beginsSeq_cons {x m : String} {rest : List String} :
    BeginsSeq first (x :: rest) m ↔
      (m ∈ first.get x ∧ m ≠ "") ∨ ("" ∈ first.get x ∧ BeginsSeq first rest m) := by
  constructor
  · rintro ⟨mid, y, post, hsplit, hmid, hm, hne⟩
    cases mid with
    | nil =>
      obtain ⟨rfl, -⟩ := List.cons_eq_cons.mp hsplit
      exact Or.inl ⟨hm, hne⟩
    | cons z mid =>
      obtain ⟨rfl, hrest⟩ := List.cons_eq_cons.mp hsplit
      exact Or.inr ⟨hmid x List.mem_cons_self,
        mid, y, post, hrest, fun z hz => hmid z (List.mem_cons_of_mem _ hz), hm, hne⟩
  · rintro (⟨hm, hne⟩ | ⟨hx, mid, y, post, hrest, hmid, hm, hne⟩)
    · exact ⟨[], x, rest, rfl, by simp, hm, hne⟩
    · refine ⟨x :: mid, y, post, by rw [hrest]; rfl, ?_, hm, hne⟩
      intro z hz
      rcases List.mem_cons.mp hz with rfl | hz
      · exact hx
      · exact hmid z hz

/-- Touching a key changes no set, so no beginning of a sequence. -/
@[simp] theorem beginsSeq_touch {k m : String} {seq : List String} :
    BeginsSeq (first.touch k) seq m ↔ BeginsSeq first seq m := by
  simp only [BeginsSeq, SetTable.get_touch]

variable (first)

theorem firstOfSequence_cons (x : String) (rest : List String) :
    firstOfSequence (x :: rest) first =
      if (first.get x).contains "" then
        ((firstOfSequence rest (first.touch x)).1,
          addSymbols ((first.get x).filter (· != "")) (firstOfSequence rest (first.touch x)).2)
      else (first.touch x, (first.get x).filter (· != "")) := by
  simp only [firstOfSequence, SetTable.get_touch]

/-- Looking up FIRST sets of a sequence only records the symbols consulted. -/
@[simp] theorem get_firstOfSequence (seq : List String) (k : String) :
    (firstOfSequence seq first).1.get k = first.get k := by
  induction seq generalizing first with
  | nil => rfl
  | cons x rest ih =>
    rw [firstOfSequence_cons]
    split
    · rw [ih, SetTable.get_touch]
    · exact SetTable.get_touch first x k

/-- FIRST of a sequence: the non-empty members that begin it, and `""` when every symbol can
vanish. -/
theorem mem_firstOfSequence (seq : List String) (m : String) :
    m ∈ (firstOfSequence seq first).2 ↔
      BeginsSeq first seq m ∨ (m = "" ∧ ∀ z ∈ seq, "" ∈ first.get z) := by
  induction seq generalizing first with
  | nil =>
    simp [firstOfSequence, not_beginsSeq_nil]
  | cons x rest ih =>
    rw [firstOfSequence_cons, beginsSeq_cons]
    have hhere : m ∈ (first.get x).filter (· != "") ↔ m ∈ first.get x ∧ m ≠ "" := by
      simp [List.mem_filter]
    split
    · rename_i hnull
      have hx : "" ∈ first.get x := List.contains_iff_mem.mp hnull
      rw [mem_addSymbols, hhere, ih]
      simp only [SetTable.get_touch, beginsSeq_touch, List.mem_cons, forall_eq_or_imp]
      constructor
      · rintro (h | h | ⟨rfl, hall⟩)
        · exact Or.inl (Or.inl h)
        · exact Or.inl (Or.inr ⟨hx, h⟩)
        · exact Or.inr ⟨rfl, hx, hall⟩
      · rintro ((h | ⟨-, h⟩) | ⟨rfl, -, hall⟩)
        · exact Or.inl h
        · exact Or.inr (Or.inl h)
        · exact Or.inr (Or.inr ⟨rfl, hall⟩)
    · rename_i hnull
      have hx : "" ∉ first.get x := fun h => hnull (List.contains_iff_mem.mpr h)
      rw [hhere]
      simp [hx]

theorem mem_filter_firstOfSequence (seq : List String) (m : String) :
    m ∈ (firstOfSequence seq first).2.filter (· != "") ↔ BeginsSeq first seq m := by
  rw [List.mem_filter, mem_firstOfSequence]
  constructor
  · rintro ⟨hm | ⟨rfl, -⟩, hne⟩
    · exact hm
    · simp at hne
  · intro hm
    refine ⟨Or.inl hm, ?_⟩
    obtain ⟨-, -, -, -, -, -, hne⟩ := hm
    simpa using hne

theorem empty_mem_firstOfSequence (seq : List String) :
    "" ∈ (firstOfSequence seq first).2 ↔ ∀ z ∈ seq, "" ∈ first.get z := by
  rw [mem_firstOfSequence]
  constructor
  · rintro (⟨-, -, -, -, -, -, hne⟩ | ⟨-, hall⟩)
    · exact absurd rfl hne
    · exact hall
  · exact fun hall => Or.inr ⟨rfl, hall⟩

end Sequence

/-! ### The family -/

variable (g : Grammar) (start : String) (first : SetTable)

/-- The FOLLOW family of a grammar with a start symbol, given FIRST sets: the least family closed
under its three rules. -/
inductive InFollow : String → String → Prop
  /-- The end marker follows the start symbol. -/
  | start : InFollow start endMarker
  /-- What begins the rest of a body after a nonterminal follows it. -/
  | first {p : Production} {x m : String} {pre post : List String} :
      p ∈ g.productions → p.body = pre ++ x :: post → g.isNonterminal x = true →
      BeginsSeq first post m → InFollow x m
  /-- A nonterminal whose rest of the body can vanish is followed by what follows the head. -/
  | head {p : Production} {x m : String} {pre post : List String} :
      p ∈ g.productions → p.body = pre ++ x :: post → g.isNonterminal x = true →
      (∀ z ∈ post, "" ∈ first.get z) → InFollow p.head m → InFollow x m

/-- Every member of the table's sets is in the FOLLOW family. -/
def FollowSound (t : SetTable) : Prop := ∀ k m, m ∈ t.get k → g.InFollow start first k m

/-- A production's rules hold of a table: at each occurrence of a nonterminal, what begins the
rest of the body is in its set, and so is the head's set when the rest can vanish. -/
def FollowClosedAt (t : SetTable) (p : Production) : Prop :=
  ∀ pre x post, p.body = pre ++ x :: post → g.isNonterminal x = true →
    (∀ m, BeginsSeq first post m → m ∈ t.get x) ∧
      ((∀ z ∈ post, "" ∈ first.get z) → ∀ m ∈ t.get p.head, m ∈ t.get x)

variable {g start first}

theorem FollowClosedAt.of_mem_iff {t t' : SetTable} {p : Production}
    (h : ∀ k m, m ∈ t.get k ↔ m ∈ t'.get k) (hc : g.FollowClosedAt first t p) :
    g.FollowClosedAt first t' p := by
  intro pre x post hb hx
  obtain ⟨hbegin, hhead⟩ := hc pre x post hb hx
  exact ⟨fun m hm => (h _ _).mp (hbegin m hm),
    fun hall m hm => (h _ _).mp (hhead hall m ((h _ _).mpr hm))⟩

/-- A table that holds the end marker for the start symbol and is closed under every production
holds the whole family: the family is the least such. -/
theorem mem_of_inFollow {t : SetTable} (hstart : endMarker ∈ t.get start)
    (hclosed : ∀ p ∈ g.productions, g.FollowClosedAt first t p) {k m : String}
    (h : g.InFollow start first k m) : m ∈ t.get k := by
  induction h with
  | start => exact hstart
  | first hp hb hx hm => exact ((hclosed _ hp) _ _ _ hb hx).1 _ hm
  | head hp hb hx hall _ ih => exact ((hclosed _ hp) _ _ _ hb hx).2 hall _ ih

theorem firstSound_firstSets (g : Grammar) : g.FirstSound g.firstSets := by
  rw [firstSets_eq]
  exact g.firstSound_firstLoop _ _ g.firstSound_firstSeed

/-- With the grammar's FIRST sets, every member of the family is a symbol of the grammar. -/
theorem InFollow.mem_symbols {k m : String} (h : g.InFollow start g.firstSets k m) :
    m ∈ g.symbols := by
  induction h with
  | start => simp [symbols, mem_sortSymbols]
  | first _ _ _ hm =>
    obtain ⟨mid, y, post, -, -, hm, -⟩ := hm
    exact (firstSound_firstSets g).mem_symbols g hm
  | head _ _ _ _ _ ih => exact ih

theorem mem_symbols_of_isNonterminal {x : String} (h : g.isNonterminal x = true) :
    x ∈ g.symbols := by
  obtain ⟨p, hp, hx⟩ := List.any_eq_true.mp h
  rw [beq_iff_eq] at hx
  exact hx ▸ g.head_mem_symbols hp

/-! ### One occurrence's turn -/

/-- The tables after the turn of an occurrence of `x` with `beta` after it in a body headed by
`head`: what begins `beta` joins the set of `x`, and the head's set too when `beta` can vanish.
The FIRST table records the symbols consulted. -/
def occurrence (head x : String) (beta : List String) (st : SetTable × SetTable) :
    SetTable × SetTable :=
  let follow := st.2.touch x
  let withHead (follow : SetTable) : SetTable :=
    let follow := follow.touch head
    follow.addAll x (follow.get head)
  if beta.isEmpty then (st.1, withHead follow)
  else
    let r := firstOfSequence beta st.1
    let follow := follow.addAll x (r.2.filter (· != ""))
    if r.2.contains "" then (r.1, withHead follow) else (r.1, follow)

/-- A body's walk: at a nonterminal, its occurrence's turn, counted as growth when its set got
longer; any other symbol is passed. -/
theorem followOfBody_cons (isNonterminal : String → Bool) (head x : String) (beta : List String)
    (st : SetTable × SetTable) :
    followOfBody isNonterminal head (x :: beta) st =
      if isNonterminal x then
        ((followOfBody isNonterminal head beta (occurrence head x beta st)).1,
          decide ((st.2.get x).length < ((occurrence head x beta st).2.get x).length) ||
            (followOfBody isNonterminal head beta (occurrence head x beta st)).2)
      else followOfBody isNonterminal head beta st := by
  obtain ⟨first, follow⟩ := st
  simp only [followOfBody, occurrence, SetTable.size, SetTable.get_touch]

section Occurrence

variable {head x : String} {beta : List String} {st : SetTable × SetTable} {k m : String}

@[simp] theorem get_occurrence_first : (occurrence head x beta st).1.get k = st.1.get k := by
  dsimp only [occurrence]
  split
  · rfl
  · split <;> exact get_firstOfSequence _ _ _

/-- What an occurrence's turn adds: to the set of `x`, what begins `beta`, and the head's set
when `beta` can vanish. -/
theorem mem_get_occurrence :
    m ∈ (occurrence head x beta st).2.get k ↔ m ∈ st.2.get k ∨
      (k = x ∧ (BeginsSeq st.1 beta m ∨ ((∀ z ∈ beta, "" ∈ st.1.get z) ∧ m ∈ st.2.get head))) := by
  dsimp only [occurrence]
  split
  · rename_i hb
    obtain rfl : beta = [] := List.isEmpty_iff.mp hb
    simp [SetTable.mem_get_addAll, not_beginsSeq_nil]
  · have hbegin := mem_filter_firstOfSequence st.1 beta m
    have hnull := empty_mem_firstOfSequence st.1 beta
    split
    · rename_i hc
      have hall : ∀ z ∈ beta, "" ∈ st.1.get z := hnull.mp (List.contains_iff_mem.mp hc)
      simp only [SetTable.mem_get_addAll, SetTable.get_touch, hbegin]
      -- the head's set is read after what begins `beta` joined the set of `x`
      tauto
    · rename_i hc
      have hall : ¬ ∀ z ∈ beta, "" ∈ st.1.get z :=
        fun h => hc (List.contains_iff_mem.mpr (hnull.mpr h))
      simp only [SetTable.mem_get_addAll, SetTable.get_touch, hbegin, hall, false_and, or_false]

theorem grows_occurrence : st.2.Grows (occurrence head x beta st).2 := by
  -- every part of the turn touches keys or adds to the set of `x`
  have hhead : ∀ t : SetTable,
      t.Grows (((t.touch head).addAll x ((t.touch head).get head))) :=
    fun t => (SetTable.grows_touch t head).trans (SetTable.grows_addAll _ _ _)
  have hfirst : ∀ xs, st.2.Grows ((st.2.touch x).addAll x xs) :=
    fun xs => (SetTable.grows_touch st.2 x).trans (SetTable.grows_addAll _ _ _)
  dsimp only [occurrence]
  split
  · exact (SetTable.grows_touch st.2 x).trans (hhead _)
  · split
    · exact (hfirst _).trans (hhead _)
    · exact hfirst _

theorem get_occurrence_of_ne (hk : k ≠ x) : (occurrence head x beta st).2.get k = st.2.get k := by
  dsimp only [occurrence]
  split
  · simp only [SetTable.get_addAll, SetTable.get_touch, if_neg hk]
  · split <;> simp only [SetTable.get_addAll, SetTable.get_touch, if_neg hk]

theorem nodupSets_occurrence (h : st.2.NodupSets) : (occurrence head x beta st).2.NodupSets := by
  have hhead : ∀ t : SetTable, t.NodupSets →
      (((t.touch head).addAll x ((t.touch head).get head))).NodupSets :=
    fun t ht => SetTable.nodupSets_addAll (SetTable.nodupSets_touch ht head) _ _
  have hfirst : ∀ xs, ((st.2.touch x).addAll x xs).NodupSets :=
    fun xs => SetTable.nodupSets_addAll (SetTable.nodupSets_touch h x) _ _
  dsimp only [occurrence]
  split
  · exact hhead _ (SetTable.nodupSets_touch h x)
  · split
    · exact hhead _ (hfirst _)
    · exact hfirst _

/-- A turn that counts no growth changes no set. -/
theorem get_occurrence_of_idle (h : ((occurrence head x beta st).2.get x).length ≤ (st.2.get x).length)
    (k : String) : (occurrence head x beta st).2.get k = st.2.get k := by
  by_cases hk : k = x
  · subst hk
    exact grows_occurrence.get_eq_of_length_le h
  · exact get_occurrence_of_ne hk

end Occurrence

/-! ### A walk over a body -/

section Walk

variable (g) (head : String)

theorem get_followOfBody_first (rest : List String) (st : SetTable × SetTable) (k : String) :
    (followOfBody g.isNonterminal head rest st).1.1.get k = st.1.get k := by
  induction rest generalizing st with
  | nil => rfl
  | cons x beta ih =>
    rw [followOfBody_cons]
    split
    · rw [ih, get_occurrence_first]
    · exact ih st

theorem grows_followOfBody (rest : List String) (st : SetTable × SetTable) :
    st.2.Grows (followOfBody g.isNonterminal head rest st).1.2 := by
  induction rest generalizing st with
  | nil => exact SetTable.Grows.refl _
  | cons x beta ih =>
    rw [followOfBody_cons]
    split
    · exact grows_occurrence.trans (ih _)
    · exact ih st

theorem nodupSets_followOfBody (rest : List String) (st : SetTable × SetTable)
    (h : st.2.NodupSets) : (followOfBody g.isNonterminal head rest st).1.2.NodupSets := by
  induction rest generalizing st with
  | nil => exact h
  | cons x beta ih =>
    rw [followOfBody_cons]
    split
    · exact ih _ (nodupSets_occurrence h)
    · exact ih st h

variable {g}

/-- The walk over the rest of a body adds members of the family only. -/
theorem followSound_followOfBody {p : Production} (hp : p ∈ g.productions) (rest pre : List String)
    (hb : p.body = pre ++ rest) (st : SetTable × SetTable) (hfirst : ∀ k, st.1.get k = first.get k)
    (hs : g.FollowSound start first st.2) :
    g.FollowSound start first (followOfBody g.isNonterminal p.head rest st).1.2 := by
  induction rest generalizing pre st with
  | nil => exact hs
  | cons x beta ih =>
    have hb' : p.body = (pre ++ [x]) ++ beta := by simp [hb]
    rw [followOfBody_cons]
    split
    · rename_i hx
      -- the turn at `x` adds what begins `beta`, and the head's set when `beta` can vanish
      have hturn : g.FollowSound start first (occurrence p.head x beta st).2 := by
        intro k m hm
        rcases mem_get_occurrence.mp hm with hm | ⟨rfl, hbegin | ⟨hall, hhead⟩⟩
        · exact hs k m hm
        · refine .first hp hb hx ?_
          simpa only [BeginsSeq, hfirst] using hbegin
        · exact .head hp hb hx (fun z hz => hfirst z ▸ hall z hz) (hs _ _ hhead)
      exact ih (pre ++ [x]) hb' _ (fun k => by rw [get_occurrence_first, hfirst]) hturn
    · exact ih (pre ++ [x]) hb' st hfirst hs

variable (g)

/-- A walk that counts no growth changed no set, and met each occurrence of a nonterminal closed:
what begins the rest of the body after it, and the head's set when that rest can vanish, were in
its set already. -/
theorem followOfBody_idle (rest : List String) (st : SetTable × SetTable)
    (h : (followOfBody g.isNonterminal head rest st).2 = false) :
    (∀ k, (followOfBody g.isNonterminal head rest st).1.2.get k = st.2.get k) ∧
    ∀ pre x post, rest = pre ++ x :: post → g.isNonterminal x = true →
      (∀ m, BeginsSeq st.1 post m → m ∈ st.2.get x) ∧
      ((∀ z ∈ post, "" ∈ st.1.get z) → ∀ m ∈ st.2.get head, m ∈ st.2.get x) := by
  induction rest generalizing st with
  | nil => exact ⟨fun _ => rfl, fun pre x post hsplit => by simp at hsplit⟩
  | cons x beta ih =>
    rw [followOfBody_cons] at h ⊢
    split at h
    · rename_i hx
      rw [if_pos hx]
      obtain ⟨hgrew, hmore⟩ := Bool.or_eq_false_iff.mp h
      -- the turn at `x` did not lengthen its set, so it changed none
      have hsame : ∀ k, (occurrence head x beta st).2.get k = st.2.get k :=
        get_occurrence_of_idle (Nat.le_of_not_lt (by simpa using hgrew))
      have hfirst : ∀ k, (occurrence head x beta st).1.get k = st.1.get k :=
        fun k => get_occurrence_first
      obtain ⟨hres, hclosed⟩ := ih _ hmore
      refine ⟨fun k => (hres k).trans (hsame k), ?_⟩
      intro pre x' post hsplit hx'
      cases pre with
      | nil =>
        obtain ⟨rfl, rfl⟩ := List.cons_eq_cons.mp hsplit
        refine ⟨fun m hm => ?_, fun hall m hm => ?_⟩
        · rw [← hsame]
          exact mem_get_occurrence.mpr (Or.inr ⟨rfl, Or.inl hm⟩)
        · rw [← hsame]
          exact mem_get_occurrence.mpr (Or.inr ⟨rfl, Or.inr ⟨hall, hm⟩⟩)
      | cons y pre =>
        obtain ⟨-, hrest⟩ := List.cons_eq_cons.mp hsplit
        simpa only [BeginsSeq, hsame, hfirst] using hclosed pre x' post hrest hx'
    · rename_i hx
      rw [if_neg hx]
      obtain ⟨hres, hclosed⟩ := ih st h
      refine ⟨hres, fun pre x' post hsplit hx' => ?_⟩
      cases pre with
      | nil =>
        obtain ⟨rfl, -⟩ := List.cons_eq_cons.mp hsplit
        exact absurd hx' hx
      | cons y pre =>
        exact hclosed pre x' post (List.cons_eq_cons.mp hsplit).2 hx'

/-- A walk that counts growth gave some occurrence's set a new member. -/
theorem followOfBody_exists_new (rest : List String) (st : SetTable × SetTable)
    (h : (followOfBody g.isNonterminal head rest st).2 = true) (hnd : st.2.NodupSets) :
    ∃ x ∈ rest, g.isNonterminal x = true ∧
      ∃ m ∈ (followOfBody g.isNonterminal head rest st).1.2.get x, m ∉ st.2.get x := by
  induction rest generalizing st with
  | nil => simp [followOfBody] at h
  | cons x beta ih =>
    rw [followOfBody_cons] at h ⊢
    split at h
    · rename_i hx
      rw [if_pos hx]
      by_cases hgrew : (st.2.get x).length < ((occurrence head x beta st).2.get x).length
      · obtain ⟨m, hm, hnew⟩ := grows_occurrence.exists_new (nodupSets_occurrence hnd) hgrew
        exact ⟨x, List.mem_cons_self, hx, m, (grows_followOfBody g head _ _).mem hm, hnew⟩
      · rw [decide_eq_false hgrew, Bool.false_or] at h
        obtain ⟨x', hx'in, hx', m, hm, hnew⟩ := ih _ h (nodupSets_occurrence hnd)
        exact ⟨x', List.mem_cons_of_mem _ hx'in, hx', m, hm,
          fun hm' => hnew (grows_occurrence.mem hm')⟩
    · rename_i hx
      rw [if_neg hx]
      obtain ⟨x', hx'in, hx', m, hm, hnew⟩ := ih st h hnd
      exact ⟨x', List.mem_cons_of_mem _ hx'in, hx', m, hm, hnew⟩

end Walk

/-! ### One scan -/

variable (g)

/-- A scan's walks over some of the productions, and whether one counted growth. -/
def followPass (ps : List Production) (st : SetTable × SetTable) : (SetTable × SetTable) × Bool :=
  ps.foldl (fun (acc : (SetTable × SetTable) × Bool) p =>
    let r := followOfBody g.isNonterminal p.head p.body acc.1
    (r.1, acc.2 || r.2)) (st, false)

theorem followScan_eq (st : SetTable × SetTable) : followScan g st = followPass g g.productions st :=
  rfl

theorem followPass_cons (p : Production) (ps : List Production) (st : SetTable × SetTable) :
    followPass g (p :: ps) st =
      ((followPass g ps (followOfBody g.isNonterminal p.head p.body st).1).1,
        (followOfBody g.isNonterminal p.head p.body st).2 ||
          (followPass g ps (followOfBody g.isNonterminal p.head p.body st).1).2) := by
  -- a pass started with its flag raised keeps it raised
  have hflag : ∀ (qs : List Production) (u : SetTable × SetTable) (b : Bool),
      qs.foldl (fun (acc : (SetTable × SetTable) × Bool) q =>
        let r := followOfBody g.isNonterminal q.head q.body acc.1
        (r.1, acc.2 || r.2)) (u, b) = ((followPass g qs u).1, b || (followPass g qs u).2) := by
    intro qs
    induction qs with
    | nil => intro u b; simp [followPass]
    | cons q qs ih =>
      intro u b
      simp only [followPass, List.foldl_cons, Bool.false_or] at ih ⊢
      rw [ih, ih (followOfBody g.isNonterminal q.head q.body u).1
        (followOfBody g.isNonterminal q.head q.body u).2, Bool.or_assoc]
  unfold followPass
  rw [List.foldl_cons]
  exact (hflag ps _ _).trans (by simp [followPass])

section Scan

variable {ps : List Production}

theorem get_followPass_first (ps : List Production) (st : SetTable × SetTable) (k : String) :
    (followPass g ps st).1.1.get k = st.1.get k := by
  induction ps generalizing st with
  | nil => rfl
  | cons p ps ih => rw [followPass_cons, ih, get_followOfBody_first]

theorem grows_followPass (ps : List Production) (st : SetTable × SetTable) :
    st.2.Grows (followPass g ps st).1.2 := by
  induction ps generalizing st with
  | nil => exact SetTable.Grows.refl _
  | cons p ps ih =>
    rw [followPass_cons]
    exact (grows_followOfBody g p.head p.body st).trans (ih _)

theorem nodupSets_followPass (ps : List Production) (st : SetTable × SetTable)
    (h : st.2.NodupSets) : (followPass g ps st).1.2.NodupSets := by
  induction ps generalizing st with
  | nil => exact h
  | cons p ps ih =>
    rw [followPass_cons]
    exact ih _ (nodupSets_followOfBody g p.head p.body st h)

variable {g}

theorem followSound_followPass (hps : ∀ p ∈ ps, p ∈ g.productions) (st : SetTable × SetTable)
    (hfirst : ∀ k, st.1.get k = first.get k) (hs : g.FollowSound start first st.2) :
    g.FollowSound start first (followPass g ps st).1.2 := by
  induction ps generalizing st with
  | nil => exact hs
  | cons p ps ih =>
    rw [followPass_cons]
    exact ih (fun q hq => hps q (List.mem_cons_of_mem _ hq)) _
      (fun k => by rw [get_followOfBody_first, hfirst])
      (followSound_followOfBody (hps p List.mem_cons_self) p.body [] rfl st hfirst hs)

/-- A scan that counts no growth changed no set, and met every production closed. -/
theorem followPass_idle (st : SetTable × SetTable) (hfirst : ∀ k, st.1.get k = first.get k)
    (h : (followPass g ps st).2 = false) :
    (∀ k, (followPass g ps st).1.2.get k = st.2.get k) ∧
      ∀ p ∈ ps, g.FollowClosedAt first st.2 p := by
  induction ps generalizing st with
  | nil => exact ⟨fun _ => rfl, fun p hp => by simp at hp⟩
  | cons p ps ih =>
    rw [followPass_cons] at h ⊢
    obtain ⟨hwalk, hrest⟩ := Bool.or_eq_false_iff.mp h
    obtain ⟨hsame, hclosed⟩ := followOfBody_idle g p.head p.body st hwalk
    obtain ⟨hres, hclosedRest⟩ := ih _ (fun k => by rw [get_followOfBody_first, hfirst]) hrest
    refine ⟨fun k => (hres k).trans (hsame k), fun q hq => ?_⟩
    rcases List.mem_cons.mp hq with rfl | hq
    · intro pre x post hb hx
      simpa only [BeginsSeq, hfirst] using hclosed pre x post hb hx
    · simpa only [FollowClosedAt, hsame] using hclosedRest q hq

/-- A scan that counts growth gave the set of some nonterminal a new member. -/
theorem followPass_exists_new (st : SetTable × SetTable) (h : (followPass g ps st).2 = true)
    (hnd : st.2.NodupSets) :
    ∃ x, g.isNonterminal x = true ∧ ∃ m ∈ (followPass g ps st).1.2.get x, m ∉ st.2.get x := by
  induction ps generalizing st with
  | nil => simp [followPass] at h
  | cons p ps ih =>
    rw [followPass_cons] at h ⊢
    by_cases hwalk : (followOfBody g.isNonterminal p.head p.body st).2 = true
    · obtain ⟨x, -, hx, m, hm, hnew⟩ := followOfBody_exists_new g p.head p.body st hwalk hnd
      exact ⟨x, hx, m, (grows_followPass g ps _).mem hm, hnew⟩
    · rw [Bool.not_eq_true] at hwalk
      rw [hwalk, Bool.false_or] at h
      obtain ⟨x, hx, m, hm, hnew⟩ := ih _ h (nodupSets_followOfBody g p.head p.body st hnd)
      exact ⟨x, hx, m, hm, fun hm' => hnew ((grows_followOfBody g p.head p.body st).mem hm')⟩

end Scan

/-! ### The loop -/

theorem followLoop_succ (n : Nat) (st : SetTable × SetTable) :
    followLoop g (n + 1) st =
      if (followScan g st).2 then followLoop g n (followScan g st).1 else (followScan g st).1 := rfl

/-- From a table of members of the family, with the grammar's FIRST sets, the scans end within
the fuel left at a scan that counts no growth; more fuel changes nothing. -/
theorem followLoop_fixed (n : Nat) (st : SetTable × SetTable)
    (hfirst : ∀ k, st.1.get k = g.firstSets.get k) (hs : g.FollowSound start g.firstSets st.2)
    (hnd : st.2.NodupSets) (hfuel : g.symbols.length * g.symbols.length < n + g.firstCount st.2) :
    ∃ u : SetTable × SetTable, st.2.Grows u.2 ∧ (∀ k, u.1.get k = g.firstSets.get k) ∧
      g.FollowSound start g.firstSets u.2 ∧ (followScan g u).2 = false ∧
      ∀ n', n ≤ n' → followLoop g n' st = (followScan g u).1 := by
  induction n generalizing st with
  | zero =>
    have := g.firstCount_le st.2
    omega
  | succ n ih =>
    cases hflag : (followScan g st).2 with
    | false =>
      refine ⟨st, .refl _, hfirst, hs, hflag, fun n' hn' => ?_⟩
      obtain ⟨n', rfl⟩ : ∃ n'', n' = n'' + 1 := ⟨n' - 1, by omega⟩
      rw [followLoop_succ, hflag, if_neg Bool.false_ne_true]
    | true =>
      -- a scan that counts growth adds a pair of a symbol and a member
      have hscan : g.FollowSound start g.firstSets (followScan g st).1.2 :=
        followSound_followPass (fun _ h => h) st hfirst hs
      obtain ⟨x, hx, m, hm, hnew⟩ := followPass_exists_new st hflag hnd
      have hlt : g.firstCount st.2 < g.firstCount (followScan g st).1.2 :=
        g.firstCount_lt (grows_followPass g _ _) (mem_symbols_of_isNonterminal hx)
          ((hscan x m hm).mem_symbols) hnew hm
      obtain ⟨u, hgu, hfu, hsu, hidle, hloop⟩ := ih _
        (fun k => by rw [followScan_eq, get_followPass_first, hfirst]) hscan
        (nodupSets_followPass g _ _ hnd) (by omega)
      refine ⟨u, (grows_followPass g _ _).trans hgu, hfu, hsu, hidle, fun n' hn' => ?_⟩
      obtain ⟨n', rfl⟩ : ∃ n'', n' = n'' + 1 := ⟨n' - 1, by omega⟩
      rw [followLoop_succ, hflag, if_pos rfl]
      exact hloop n' (by omega)

/-- **The FOLLOW loop ends at the least family.** With the grammar's FIRST sets, giving the loop
more scans than its fuel changes nothing: it stopped at a scan that counted no growth. And a
symbol's FOLLOW set holds exactly the members the three rules give: the end marker for the start
symbol, what begins the rest of a body after an occurrence, and the head's members where that rest
can vanish. -/
theorem followSets_least (start : String) :
    (∀ n, g.fuel ≤ n →
      followLoop g n (g.firstSets, SetTable.empty.add start endMarker) =
        g.followSets start g.firstSets) ∧
    ∀ k m, m ∈ (g.followSets start g.firstSets).2.get k ↔ g.InFollow start g.firstSets k m := by
  have hinit : ∀ k m, m ∈ (SetTable.empty.add start endMarker).get k ↔ k = start ∧ m = endMarker := by
    intro k m
    rw [SetTable.mem_get_add]
    simp [SetTable.get, SetTable.empty]
  have hs : g.FollowSound start g.firstSets (SetTable.empty.add start endMarker) := by
    intro k m hm
    obtain ⟨rfl, rfl⟩ := (hinit k m).mp hm
    exact .start
  have hnd : (SetTable.empty.add start endMarker).NodupSets :=
    SetTable.nodupSets_addAll (fun k => by simp [SetTable.get, SetTable.empty]) _ _
  have hfuel : g.fuel = Nat.pow (g.symbols.length + 1) 2 + 1 := rfl
  obtain ⟨u, hgu, hfu, hsu, hidle, hloop⟩ := followLoop_fixed g g.fuel
    (g.firstSets, SetTable.empty.add start endMarker) (fun _ => rfl) hs hnd
    (by have := g.mul_self_lt_fuel; omega)
  have hres : g.followSets start g.firstSets = (followScan g u).1 := hloop g.fuel le_rfl
  -- the last scan changed no set and met every production closed
  obtain ⟨hsame, hclosed⟩ := followPass_idle u hfu hidle
  refine ⟨fun n hn => (hloop n hn).trans hres.symm, fun k m => ?_⟩
  rw [hres, followScan_eq, hsame]
  refine ⟨hsu k m, mem_of_inFollow ?_ hclosed⟩
  exact hgu.mem ((hinit start endMarker).mpr ⟨rfl, rfl⟩)

end Frontend.Grammar
