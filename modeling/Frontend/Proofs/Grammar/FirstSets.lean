import Mathlib.Data.Finset.Prod
import Frontend.Proofs.Grammar.Tables

/-! FIRST sets: what the scans compute, and when they stop short.

The FIRST family of a grammar is the least family of symbol sets closed under three rules
(`InFirst`): a terminal begins itself; a production `A → β x γ` whose `β` can vanish puts the
non-empty members of FIRST(x) in FIRST(A); and a production whose whole body can vanish puts `""`
in FIRST(A).

Every turn of a scan adds only members of that family (`FirstSound`), and the sets only grow, at
their ends (`SetTable.Grows`); so a scan that counts growth adds a pair of a symbol and a member,
and the loop ends within its fuel at a scan that counts none (`firstLoop_fixed`). A scan counts no
growth when no production with a non-empty body grows its head; turns of empty bodies add `""`
without counting it. From the second scan on those `""` are there already, so a scan that counts
no growth changes nothing, and the sets are closed under every production (`FirstClosedAt`): they
hold the whole family (`mem_of_inFirst`). When the very first scan counts no growth, the loop stops
after it with the terminals and the `""` of empty bodies only. -/
namespace Frontend

namespace SetTable

/-- Each set of `t` is a beginning of its set in `t'`: the sets only grow, at their ends. -/
def Grows (t t' : SetTable) : Prop := ∀ k, t.get k <+: t'.get k

/-- Each set holds each member once. -/
def NodupSets (t : SetTable) : Prop := ∀ k, (t.get k).Nodup

variable {t t' t'' : SetTable} {k m : String}

theorem Grows.refl (t : SetTable) : t.Grows t := fun _ => List.prefix_refl _

theorem Grows.trans (h : t.Grows t') (h' : t'.Grows t'') : t.Grows t'' :=
  fun k => (h k).trans (h' k)

theorem Grows.mem (h : t.Grows t') (hm : m ∈ t.get k) : m ∈ t'.get k := (h k).subset hm

theorem grows_touch (t : SetTable) (k : String) : t.Grows (t.touch k) := by
  intro k'
  rw [get_touch]

theorem grows_addAll (t : SetTable) (k : String) (xs : List String) : t.Grows (t.addAll k xs) := by
  intro k'
  rw [get_addAll]
  split
  · rename_i h
    subst h
    exact prefix_addSymbols
  · exact List.prefix_refl _

theorem mem_get_addAll {k' : String} {xs : List String} :
    m ∈ (t.addAll k xs).get k' ↔ m ∈ t.get k' ∨ (k' = k ∧ m ∈ xs) := by
  rw [get_addAll]
  split
  · rename_i h
    simp [h, mem_addSymbols]
  · rename_i h
    simp [h]

theorem mem_get_add {k' x : String} :
    m ∈ (t.add k x).get k' ↔ m ∈ t.get k' ∨ (k' = k ∧ m = x) := by
  rw [add, mem_get_addAll, List.mem_singleton]

theorem nodupSets_touch (h : t.NodupSets) (k : String) : (t.touch k).NodupSets := by
  intro k'
  rw [get_touch]
  exact h k'

theorem nodupSets_addAll (h : t.NodupSets) (k : String) (xs : List String) :
    (t.addAll k xs).NodupSets := by
  intro k'
  rw [get_addAll]
  split
  · exact nodup_addSymbols (h k)
  · exact h k'

/-- A set of a growing table that got no longer is as it was. -/
theorem Grows.get_eq_of_length_le (h : t.Grows t') (hk : (t'.get k).length ≤ (t.get k).length) :
    t'.get k = t.get k :=
  ((h k).eq_of_length (Nat.le_antisymm (h k).length_le hk)).symm

/-- A set of a growing table that got longer, and holds each member once, has a new member. -/
theorem Grows.exists_new (h : t.Grows t') (hnd : t'.NodupSets)
    (hk : (t.get k).length < (t'.get k).length) : ∃ m ∈ t'.get k, m ∉ t.get k := by
  obtain ⟨zs, hzs⟩ := h k
  have hne : zs ≠ [] := by
    rintro rfl
    rw [List.append_nil] at hzs
    rw [hzs] at hk
    exact lt_irrefl _ hk
  obtain ⟨z, hz⟩ := List.exists_mem_of_ne_nil zs hne
  have hnd' := hnd k
  rw [← hzs] at hnd' ⊢
  exact ⟨z, List.mem_append_right _ hz, fun hmem => List.disjoint_of_nodup_append hnd' hmem hz⟩

end SetTable

namespace Grammar

variable (g : Grammar)

/-- The seed of the FIRST sets: each terminal's set holds the terminal itself. -/
def firstSeed : SetTable := g.terminals.foldl (fun t x => t.add x x) SetTable.empty

theorem firstSets_eq : g.firstSets = firstLoop g.productions g.fuel g.firstSeed := rfl

/-- The FIRST family of a grammar: the least family closed under its three rules. -/
inductive InFirst : String → String → Prop
  /-- A terminal begins itself. -/
  | terminal {t : String} : t ∈ g.terminals → InFirst t t
  /-- A symbol after a prefix that can vanish lends its non-empty members to the head. -/
  | body {head x m : String} {pre post : List String} :
      Production.mk head (pre ++ x :: post) ∈ g.productions → (∀ y ∈ pre, InFirst y "") →
      InFirst x m → m ≠ "" → InFirst head m
  /-- A head whose whole body can vanish can vanish. -/
  | empty {head : String} {body : List String} :
      Production.mk head body ∈ g.productions → (∀ y ∈ body, InFirst y "") → InFirst head ""

/-- Every member of the table's sets is in the FIRST family. -/
def FirstSound (t : SetTable) : Prop := ∀ k m, m ∈ t.get k → g.InFirst k m

/-- A production's rules hold of a table: after a prefix whose sets hold `""`, a body symbol's
non-empty members are in the head's set, and `""` is when every body symbol's set holds it. -/
structure FirstClosedAt (t : SetTable) (p : Production) : Prop where
  body : ∀ pre x post, p.body = pre ++ x :: post → (∀ y ∈ pre, "" ∈ t.get y) →
    ∀ m ∈ t.get x, m ≠ "" → m ∈ t.get p.head
  empty : (∀ y ∈ p.body, "" ∈ t.get y) → "" ∈ t.get p.head

/-! ### The family -/

variable {g}

/-- Members of the family are terminals or `""`. -/
theorem InFirst.terminal_or_empty {k m : String} (h : g.InFirst k m) :
    m ∈ g.terminals ∨ m = "" := by
  induction h with
  | terminal ht => exact Or.inl ht
  | body _ _ _ _ _ ih => exact ih
  | empty _ _ _ => exact Or.inr rfl

theorem FirstClosedAt.of_mem_iff {t t' : SetTable} {p : Production}
    (h : ∀ k m, m ∈ t.get k ↔ m ∈ t'.get k) (hc : FirstClosedAt t p) : FirstClosedAt t' p where
  body pre x post hb hpre m hm hne :=
    (h _ _).mp (hc.body pre x post hb (fun y hy => (h _ _).mpr (hpre y hy)) m ((h _ _).mpr hm) hne)
  empty hall := (h _ _).mp (hc.empty fun y hy => (h _ _).mpr (hall y hy))

/-- A table that holds each terminal in its own set and is closed under every production holds
the whole family: the family is the least such. -/
theorem mem_of_inFirst {t : SetTable} (hterm : ∀ x ∈ g.terminals, x ∈ t.get x)
    (hclosed : ∀ p ∈ g.productions, FirstClosedAt t p) {k m : String} (h : g.InFirst k m) :
    m ∈ t.get k := by
  induction h with
  | terminal hx => exact hterm _ hx
  | @body head x m pre post hp _ _ hne ihpre ihx =>
    exact (hclosed _ hp).body pre x post rfl ihpre m ihx hne
  | @empty head body hp _ ih => exact (hclosed _ hp).empty ih

variable (g)

theorem mem_symbols_of_terminal {x : String} (h : x ∈ g.terminals) : x ∈ g.symbols := by
  rw [mem_terminals_iff] at h
  simp only [symbols, mem_sortSymbols, List.mem_cons, List.mem_flatMap]
  rcases h with rfl | ⟨i, p, hp, hx, -⟩
  · exact Or.inl rfl
  · exact Or.inr (Or.inr ⟨p, List.mem_of_getElem? hp, Or.inr hx⟩)

theorem head_mem_symbols {p : Production} (hp : p ∈ g.productions) : p.head ∈ g.symbols := by
  simp only [symbols, mem_sortSymbols, List.mem_cons, List.mem_flatMap]
  exact Or.inr (Or.inr ⟨p, hp, Or.inl rfl⟩)

theorem FirstSound.mem_symbols {t : SetTable} (h : g.FirstSound t) {k m : String}
    (hm : m ∈ t.get k) : m ∈ g.symbols := by
  rcases (h k m hm).terminal_or_empty with ht | rfl
  · exact g.mem_symbols_of_terminal ht
  · simp [symbols, mem_sortSymbols]

/-! ### The seed -/

theorem mem_get_foldl_add (xs : List String) (t : SetTable) (k m : String) :
    m ∈ (xs.foldl (fun t x => t.add x x) t).get k ↔ m ∈ t.get k ∨ (k ∈ xs ∧ m = k) := by
  induction xs generalizing t with
  | nil => simp
  | cons x xs ih =>
    rw [List.foldl_cons, ih, SetTable.mem_get_add, List.mem_cons]
    constructor
    · rintro ((hm | ⟨rfl, rfl⟩) | ⟨hk, rfl⟩)
      · exact Or.inl hm
      · exact Or.inr ⟨Or.inl rfl, rfl⟩
      · exact Or.inr ⟨Or.inr hk, rfl⟩
    · rintro (hm | ⟨rfl | hk, rfl⟩)
      · exact Or.inl (Or.inl hm)
      · exact Or.inl (Or.inr ⟨rfl, rfl⟩)
      · exact Or.inr ⟨hk, rfl⟩

theorem mem_get_firstSeed {k m : String} : m ∈ g.firstSeed.get k ↔ k ∈ g.terminals ∧ m = k := by
  rw [firstSeed, mem_get_foldl_add]
  simp [SetTable.get, SetTable.empty]

theorem firstSound_firstSeed : g.FirstSound g.firstSeed := by
  intro k m hm
  obtain ⟨hk, rfl⟩ := g.mem_get_firstSeed.mp hm
  exact .terminal hk

theorem nodupSets_firstSeed : g.firstSeed.NodupSets := by
  refine List.foldlRecOn (motive := SetTable.NodupSets) g.terminals _
    (fun k => by simp [SetTable.get, SetTable.empty]) ?_
  intro t ht x _
  exact SetTable.nodupSets_addAll ht x [x]

/-! ### A walk over a body -/

/-- A body symbol's turn: its set less `""` joins the head's. -/
def bodyTurn (head x : String) (t : SetTable) : SetTable :=
  (t.touch x).addAll head ((t.get x).filter (· != ""))

theorem firstOfBody_cons (head x : String) (rest : List String) (t : SetTable) :
    firstOfBody head (x :: rest) t =
      if (t.get x).contains "" then firstOfBody head rest (bodyTurn head x t)
      else (bodyTurn head x t, false) := by
  simp only [firstOfBody, bodyTurn, SetTable.get_touch]

section Walk

variable {head x k m : String} {t : SetTable}

theorem grows_bodyTurn : t.Grows (bodyTurn head x t) :=
  (SetTable.grows_touch t x).trans (SetTable.grows_addAll _ _ _)

theorem mem_get_bodyTurn :
    m ∈ (bodyTurn head x t).get k ↔ m ∈ t.get k ∨ (k = head ∧ m ∈ t.get x ∧ m ≠ "") := by
  simp [bodyTurn, SetTable.mem_get_addAll, List.mem_filter]

theorem get_bodyTurn_of_ne (hk : k ≠ head) : (bodyTurn head x t).get k = t.get k := by
  rw [bodyTurn, SetTable.get_addAll, if_neg hk, SetTable.get_touch]

theorem nodupSets_bodyTurn (h : t.NodupSets) : (bodyTurn head x t).NodupSets :=
  SetTable.nodupSets_addAll (SetTable.nodupSets_touch h x) _ _

variable (head)

theorem grows_firstOfBody (rest : List String) (t : SetTable) :
    t.Grows (firstOfBody head rest t).1 := by
  induction rest generalizing t with
  | nil => exact SetTable.Grows.refl t
  | cons x rest ih =>
    rw [firstOfBody_cons]
    split
    · exact grows_bodyTurn.trans (ih _)
    · exact grows_bodyTurn

theorem get_firstOfBody_of_ne (rest : List String) (t : SetTable) (hk : k ≠ head) :
    (firstOfBody head rest t).1.get k = t.get k := by
  induction rest generalizing t with
  | nil => rfl
  | cons x rest ih =>
    rw [firstOfBody_cons]
    split
    · rw [ih, get_bodyTurn_of_ne hk]
    · exact get_bodyTurn_of_ne hk

theorem nodupSets_firstOfBody (rest : List String) (t : SetTable) (h : t.NodupSets) :
    (firstOfBody head rest t).1.NodupSets := by
  induction rest generalizing t with
  | nil => exact h
  | cons x rest ih =>
    rw [firstOfBody_cons]
    split
    · exact ih _ (nodupSets_bodyTurn h)
    · exact nodupSets_bodyTurn h

/-- The walk adds members of the family only, and when it reaches the end of the body, every
body symbol can vanish. -/
theorem firstSound_firstOfBody (rest pre : List String) (t : SetTable)
    (hp : Production.mk head (pre ++ rest) ∈ g.productions) (hpre : ∀ y ∈ pre, g.InFirst y "")
    (ht : g.FirstSound t) :
    g.FirstSound (firstOfBody head rest t).1 ∧
      ((firstOfBody head rest t).2 = true → ∀ y ∈ pre ++ rest, g.InFirst y "") := by
  induction rest generalizing pre t with
  | nil => exact ⟨ht, fun _ => by simpa using hpre⟩
  | cons x rest ih =>
    -- `x`'s turn adds the non-empty members of FIRST(x), after a prefix that can vanish
    have hturn : g.FirstSound (bodyTurn head x t) := by
      intro k m hm
      rcases mem_get_bodyTurn.mp hm with hm | ⟨rfl, hx, hne⟩
      · exact ht k m hm
      · exact .body hp hpre (ht x m hx) hne
    rw [firstOfBody_cons]
    split
    · rename_i hnull
      have hx : g.InFirst x "" := ht x "" (List.contains_iff_mem.mp hnull)
      have hp' : Production.mk head ((pre ++ [x]) ++ rest) ∈ g.productions := by simpa using hp
      have hpre' : ∀ y ∈ pre ++ [x], g.InFirst y "" := by
        intro y hy
        rcases List.mem_append.mp hy with hy | hy
        · exact hpre y hy
        · rw [List.mem_singleton] at hy
          exact hy ▸ hx
      simpa using ih (pre ++ [x]) (bodyTurn head x t) hp' hpre' hturn
    · exact ⟨hturn, fun h => absurd h Bool.false_ne_true⟩

/-- A walk over symbols whose sets all hold `""` reaches the end of the body. -/
theorem firstOfBody_true (rest : List String) (t : SetTable) (h : ∀ y ∈ rest, "" ∈ t.get y) :
    (firstOfBody head rest t).2 = true := by
  induction rest generalizing t with
  | nil => rfl
  | cons x rest ih =>
    rw [firstOfBody_cons, if_pos (List.contains_iff_mem.mpr (h x List.mem_cons_self))]
    exact ih _ fun y hy => grows_bodyTurn.mem (h y (List.mem_cons_of_mem _ hy))

/-- A walk that leaves its head's set as it found it met it closed: after a prefix whose sets
hold `""`, a body symbol's non-empty members were in the head's set already. -/
theorem firstOfBody_closed (rest : List String) (t : SetTable)
    (hfix : ∀ m, m ∈ (firstOfBody head rest t).1.get head → m ∈ t.get head)
    (pre : List String) (x : String) (post : List String) (hsplit : rest = pre ++ x :: post)
    (hpre : ∀ y ∈ pre, "" ∈ t.get y) {m : String} (hm : m ∈ t.get x) (hne : m ≠ "") :
    m ∈ t.get head := by
  induction rest generalizing t pre with
  | nil => simp at hsplit
  | cons x0 rest ih =>
    -- the head's set after `x0`'s turn is already the final one
    have hturn : ∀ m, m ∈ (bodyTurn head x0 t).get head → m ∈ t.get head := by
      intro m' hm'
      apply hfix
      rw [firstOfBody_cons]
      split
      · exact (grows_firstOfBody head _ _).mem hm'
      · exact hm'
    cases pre with
    | nil =>
      obtain ⟨rfl, -⟩ := List.cons_eq_cons.mp hsplit
      exact hturn m (mem_get_bodyTurn.mpr (Or.inr ⟨rfl, hm, hne⟩))
    | cons y pre =>
      obtain ⟨rfl, hrest⟩ := List.cons_eq_cons.mp hsplit
      have hnull : (t.get x0).contains "" = true :=
        List.contains_iff_mem.mpr (hpre x0 List.mem_cons_self)
      have hfix' : ∀ m, m ∈ (firstOfBody head rest (bodyTurn head x0 t)).1.get head →
          m ∈ (bodyTurn head x0 t).get head := by
        intro m' hm'
        apply grows_bodyTurn.mem
        apply hfix
        rw [firstOfBody_cons, if_pos hnull]
        exact hm'
      exact hturn m (ih (bodyTurn head x0 t) hfix' pre hrest
        (fun y hy => grows_bodyTurn.mem (hpre y (List.mem_cons_of_mem _ hy)))
        (grows_bodyTurn.mem hm))

end Walk

/-! ### One production's turn -/

/-- The table after the turn of a production whose body is not empty: the walk over the body,
then `""` for the head when the walk reached the end. -/
def bodyPass (t : SetTable) (p : Production) : SetTable :=
  if (firstOfBody p.head p.body (t.touch p.head)).2 then
    (firstOfBody p.head p.body (t.touch p.head)).1.add p.head ""
  else (firstOfBody p.head p.body (t.touch p.head)).1

/-- What a turn does: an empty body adds `""` to its head and counts no growth; any other body
makes its pass and counts growth when its head's set got longer. -/
theorem firstStep_cases (t : SetTable) (p : Production) :
    (p.body = [] ∧ firstStep t p = ((t.touch p.head).add p.head "", false)) ∨
      (p.body ≠ [] ∧ firstStep t p = (bodyPass t p,
        decide ((t.get p.head).length < ((bodyPass t p).get p.head).length))) := by
  by_cases hb : p.body = []
  · exact Or.inl ⟨hb, by simp [firstStep, hb]⟩
  · refine Or.inr ⟨hb, ?_⟩
    simp only [firstStep, bodyPass, List.isEmpty_iff, hb, if_false, SetTable.size,
      SetTable.get_touch]
    split <;> rfl

section Turn

variable {t : SetTable} {p : Production} {k m : String}

theorem grows_bodyPass : t.Grows (bodyPass t p) := by
  have hwalk := (SetTable.grows_touch t p.head).trans (grows_firstOfBody p.head p.body _)
  unfold bodyPass
  split
  · exact hwalk.trans (SetTable.grows_addAll _ _ _)
  · exact hwalk

theorem get_bodyPass_of_ne (hk : k ≠ p.head) : (bodyPass t p).get k = t.get k := by
  unfold bodyPass
  split
  · rw [SetTable.add, SetTable.get_addAll, if_neg hk, get_firstOfBody_of_ne _ _ _ hk,
      SetTable.get_touch]
  · rw [get_firstOfBody_of_ne _ _ _ hk, SetTable.get_touch]

theorem grows_firstStep : t.Grows (firstStep t p).1 := by
  rcases firstStep_cases t p with ⟨-, h⟩ | ⟨-, h⟩ <;> rw [h]
  · exact (SetTable.grows_touch t p.head).trans (SetTable.grows_addAll _ _ _)
  · exact grows_bodyPass

theorem nodupSets_firstStep (h : t.NodupSets) : (firstStep t p).1.NodupSets := by
  have hwalk := nodupSets_firstOfBody p.head p.body _ (SetTable.nodupSets_touch h p.head)
  rcases firstStep_cases t p with ⟨-, hs⟩ | ⟨-, hs⟩ <;> rw [hs]
  · exact SetTable.nodupSets_addAll (SetTable.nodupSets_touch h _) _ _
  · unfold bodyPass
    split
    · exact SetTable.nodupSets_addAll hwalk _ _
    · exact hwalk

theorem empty_mem_firstStep (hb : p.body = []) : "" ∈ (firstStep t p).1.get p.head := by
  rcases firstStep_cases t p with ⟨-, hs⟩ | ⟨hne, -⟩
  · rw [hs, SetTable.mem_get_add]
    exact Or.inr ⟨rfl, rfl⟩
  · exact absurd hb hne

theorem FirstSound.touch (ht : g.FirstSound t) (k : String) : g.FirstSound (t.touch k) := by
  intro k' m hm
  rw [SetTable.get_touch] at hm
  exact ht k' m hm

theorem firstSound_firstStep (hp : p ∈ g.productions) (ht : g.FirstSound t) :
    g.FirstSound (firstStep t p).1 := by
  have hp' : Production.mk p.head ([] ++ p.body) ∈ g.productions := by simpa using hp
  obtain ⟨hwalk, hnull⟩ := firstSound_firstOfBody g p.head p.body [] (t.touch p.head) hp'
    (by simp) (ht.touch g p.head)
  -- the head gets `""` only when its whole body can vanish
  have hempty : ∀ u : SetTable, g.FirstSound u → (∀ y ∈ p.body, g.InFirst y "") →
      g.FirstSound (u.add p.head "") := by
    intro u hu hall k m hm
    rcases SetTable.mem_get_add.mp hm with hm | ⟨rfl, rfl⟩
    · exact hu k m hm
    · exact .empty hp hall
  rcases firstStep_cases t p with ⟨hb, hs⟩ | ⟨-, hs⟩ <;> rw [hs]
  · refine hempty _ (ht.touch g p.head) ?_
    simp [hb]
  · unfold bodyPass
    split
    · rename_i h
      exact hempty _ hwalk (by simpa using hnull h)
    · exact hwalk

/-- A turn that counts no growth adds at most `""`, and only for an empty body. -/
theorem firstStep_idle (h : (firstStep t p).2 = false) :
    m ∈ (firstStep t p).1.get k ↔ m ∈ t.get k ∨ (m = "" ∧ k = p.head ∧ p.body = []) := by
  rcases firstStep_cases t p with ⟨hb, hs⟩ | ⟨hb, hs⟩ <;> rw [hs] at h ⊢
  · simp [SetTable.mem_get_add, hb, and_comm]
  · -- the head's set got no longer, so no set changed
    have hhead : (bodyPass t p).get p.head = t.get p.head :=
      grows_bodyPass.get_eq_of_length_le (by simpa using h)
    by_cases hk : k = p.head
    · subst hk
      simp [hhead, hb]
    · simp [get_bodyPass_of_ne hk, hb]

/-- A turn that counts growth adds a new member to its head's set. -/
theorem firstStep_exists_new (h : (firstStep t p).2 = true) (hnd : t.NodupSets) :
    ∃ m ∈ (firstStep t p).1.get p.head, m ∉ t.get p.head := by
  rcases firstStep_cases t p with ⟨-, hs⟩ | ⟨-, hs⟩ <;> rw [hs] at h ⊢
  · exact absurd h Bool.false_ne_true
  · refine grows_bodyPass.exists_new ?_ (by simpa using h)
    rw [← show (firstStep t p).1 = bodyPass t p by rw [hs]]
    exact nodupSets_firstStep hnd

/-- A turn that changes no set met its production closed. -/
theorem firstStep_closed (hfix : ∀ k m, m ∈ (firstStep t p).1.get k → m ∈ t.get k) : FirstClosedAt t p := by
  rcases firstStep_cases t p with ⟨hb, hs⟩ | ⟨hb, hs⟩
  · refine ⟨fun pre x post hsplit => by simp [hb] at hsplit, fun _ => ?_⟩
    exact hfix _ _ (empty_mem_firstStep hb)
  · rw [hs] at hfix
    have hwalk := grows_firstOfBody p.head p.body (t.touch p.head)
    have hpass : (firstOfBody p.head p.body (t.touch p.head)).1.Grows (bodyPass t p) := by
      unfold bodyPass
      split
      · exact SetTable.grows_addAll _ _ _
      · exact SetTable.Grows.refl _
    refine ⟨fun pre x post hsplit hpre m hm hne => ?_, fun hall => ?_⟩
    · rw [← SetTable.get_touch t p.head p.head]
      refine firstOfBody_closed p.head p.body (t.touch p.head) (fun m hm => ?_) pre x post hsplit
        (fun y hy => by rw [SetTable.get_touch]; exact hpre y hy) (by rwa [SetTable.get_touch])
        hne
      rw [SetTable.get_touch]
      exact hfix _ _ (hpass.mem hm)
    · -- every body symbol can vanish, so the walk reached the end and the head got `""`
      have hend := firstOfBody_true p.head p.body (t.touch p.head)
        (fun y hy => by rw [SetTable.get_touch]; exact hall y hy)
      apply hfix
      rw [bodyPass, if_pos hend, SetTable.mem_get_add]
      exact Or.inr ⟨rfl, rfl⟩

end Turn

/-! ### One scan -/

theorem firstScan_cons (p : Production) (ps : List Production) (t : SetTable) :
    firstScan (p :: ps) t = ((firstScan ps (firstStep t p).1).1,
      (firstStep t p).2 || (firstScan ps (firstStep t p).1).2) := by
  -- a scan started with its flag raised keeps it raised
  have hflag : ∀ (qs : List Production) (u : SetTable) (b : Bool),
      qs.foldl (fun (acc : SetTable × Bool) q =>
        let r := firstStep acc.1 q
        (r.1, acc.2 || r.2)) (u, b) = ((firstScan qs u).1, b || (firstScan qs u).2) := by
    intro qs
    induction qs with
    | nil => intro u b; simp [firstScan]
    | cons q qs ih =>
      intro u b
      simp only [firstScan, List.foldl_cons, Bool.false_or] at ih ⊢
      rw [ih, ih ((firstStep u q).1) (firstStep u q).2, Bool.or_assoc]
  unfold firstScan
  rw [List.foldl_cons]
  exact (hflag ps _ _).trans (by simp [firstScan])

section Scan

variable {ps : List Production} {t : SetTable} {k m : String}

theorem grows_firstScan (ps : List Production) (t : SetTable) : t.Grows (firstScan ps t).1 := by
  induction ps generalizing t with
  | nil => exact SetTable.Grows.refl t
  | cons p ps ih =>
    rw [firstScan_cons]
    exact grows_firstStep.trans (ih _)

theorem nodupSets_firstScan (ps : List Production) (t : SetTable) (h : t.NodupSets) :
    (firstScan ps t).1.NodupSets := by
  induction ps generalizing t with
  | nil => exact h
  | cons p ps ih =>
    rw [firstScan_cons]
    exact ih _ (nodupSets_firstStep h)

theorem firstSound_firstScan (hps : ∀ p ∈ ps, p ∈ g.productions) (ht : g.FirstSound t) :
    g.FirstSound (firstScan ps t).1 := by
  induction ps generalizing t with
  | nil => exact ht
  | cons p ps ih =>
    rw [firstScan_cons]
    exact ih (fun q hq => hps q (List.mem_cons_of_mem _ hq))
      (firstSound_firstStep g (hps p List.mem_cons_self) ht)

theorem empty_mem_firstScan {p : Production} (hp : p ∈ ps) (hb : p.body = []) :
    "" ∈ (firstScan ps t).1.get p.head := by
  induction ps generalizing t with
  | nil => simp at hp
  | cons q ps ih =>
    rw [firstScan_cons]
    rcases List.mem_cons.mp hp with rfl | hp
    · exact (grows_firstScan _ _).mem (empty_mem_firstStep hb)
    · exact ih hp

/-- A scan that counts no growth adds `""` to the heads of empty bodies, and nothing else. -/
theorem firstScan_idle (h : (firstScan ps t).2 = false) :
    m ∈ (firstScan ps t).1.get k ↔ m ∈ t.get k ∨ (m = "" ∧ ∃ p ∈ ps, p.head = k ∧ p.body = []) := by
  induction ps generalizing t with
  | nil => simp [firstScan]
  | cons p ps ih =>
    rw [firstScan_cons] at h ⊢
    obtain ⟨hstep, hrest⟩ := Bool.or_eq_false_iff.mp h
    rw [ih hrest, firstStep_idle hstep]
    constructor
    · rintro ((hm | ⟨rfl, rfl, hb⟩) | ⟨rfl, q, hq, rfl, hb⟩)
      · exact Or.inl hm
      · exact Or.inr ⟨rfl, p, List.mem_cons_self, rfl, hb⟩
      · exact Or.inr ⟨rfl, q, List.mem_cons_of_mem _ hq, rfl, hb⟩
    · rintro (hm | ⟨rfl, q, hq, rfl, hb⟩)
      · exact Or.inl (Or.inl hm)
      · rcases List.mem_cons.mp hq with rfl | hq
        · exact Or.inl (Or.inr ⟨rfl, rfl, hb⟩)
        · exact Or.inr ⟨rfl, q, hq, rfl, hb⟩

/-- A scan that counts growth adds a new member to the set of some production's head. -/
theorem firstScan_exists_new (h : (firstScan ps t).2 = true) (hnd : t.NodupSets) :
    ∃ p ∈ ps, ∃ m ∈ (firstScan ps t).1.get p.head, m ∉ t.get p.head := by
  induction ps generalizing t with
  | nil => simp [firstScan] at h
  | cons p ps ih =>
    rw [firstScan_cons] at h ⊢
    by_cases hstep : (firstStep t p).2 = true
    · obtain ⟨m, hm, hnew⟩ := firstStep_exists_new hstep hnd
      exact ⟨p, List.mem_cons_self, m, (grows_firstScan _ _).mem hm, hnew⟩
    · rw [Bool.not_eq_true] at hstep
      rw [hstep, Bool.false_or] at h
      obtain ⟨q, hq, m, hm, hnew⟩ := ih h (nodupSets_firstStep hnd)
      exact ⟨q, List.mem_cons_of_mem _ hq, m, hm, fun hm' => hnew (grows_firstStep.mem hm')⟩

/-- A scan that changes no set met every production closed. -/
theorem firstScan_closed (hfix : ∀ k m, m ∈ (firstScan ps t).1.get k → m ∈ t.get k) :
    ∀ p ∈ ps, FirstClosedAt t p := by
  induction ps generalizing t with
  | nil => simp
  | cons p ps ih =>
    rw [firstScan_cons] at hfix
    -- the first turn changed no set either, since the later ones only add
    have hfix₁ : ∀ k m, m ∈ (firstStep t p).1.get k → m ∈ t.get k :=
      fun k m hm => hfix k m ((grows_firstScan _ _).mem hm)
    have hsame : ∀ k m, m ∈ (firstStep t p).1.get k ↔ m ∈ t.get k :=
      fun k m => ⟨hfix₁ k m, grows_firstStep.mem⟩
    intro q hq
    rcases List.mem_cons.mp hq with rfl | hq
    · exact firstStep_closed hfix₁
    · exact (ih (fun k m hm => grows_firstStep.mem (hfix k m hm)) q hq).of_mem_iff hsame

end Scan

/-! ### The loop -/

/-- The pairs of a symbol of the grammar and a member of its set: a scan that counts growth adds
one, and there are at most as many as pairs of symbols. -/
def firstCount (t : SetTable) : Nat :=
  ((g.symbols.toFinset ×ˢ g.symbols.toFinset).filter fun e => e.2 ∈ t.get e.1).card

theorem firstCount_le (t : SetTable) :
    g.firstCount t ≤ g.symbols.length * g.symbols.length :=
  calc g.firstCount t ≤ (g.symbols.toFinset ×ˢ g.symbols.toFinset).card := Finset.card_filter_le _ _
    _ = g.symbols.toFinset.card * g.symbols.toFinset.card := Finset.card_product _ _
    _ ≤ g.symbols.length * g.symbols.length :=
      Nat.mul_le_mul (List.toFinset_card_le _) (List.toFinset_card_le _)

theorem firstCount_lt {t t' : SetTable} (hg : t.Grows t') {k m : String} (hk : k ∈ g.symbols)
    (hm : m ∈ g.symbols) (hnew : m ∉ t.get k) (hm' : m ∈ t'.get k) :
    g.firstCount t < g.firstCount t' := by
  apply Finset.card_lt_card
  rw [Finset.ssubset_iff_of_subset]
  · refine ⟨(k, m), ?_, ?_⟩
    · simp [hk, hm, hm']
    · simp [hnew]
  · intro e he
    simp only [Finset.mem_filter] at he ⊢
    exact ⟨he.1, hg.mem he.2⟩

theorem firstLoop_succ (ps : List Production) (n : Nat) (t : SetTable) :
    firstLoop ps (n + 1) t =
      if (firstScan ps t).2 then firstLoop ps n (firstScan ps t).1 else (firstScan ps t).1 := rfl

theorem firstSound_firstLoop (n : Nat) (t : SetTable) (ht : g.FirstSound t) :
    g.FirstSound (firstLoop g.productions n t) := by
  induction n generalizing t with
  | zero => exact ht
  | succ n ih =>
    have hscan := firstSound_firstScan g (fun _ h => h) ht
    rw [firstLoop_succ]
    split
    · exact ih _ hscan
    · exact hscan

/-- From a table of members of the family that holds the `""` of every empty body, the scans end,
within the fuel left, with a scan that counts no growth and leaves its table as it is. -/
theorem firstLoop_fixed (n : Nat) (t : SetTable) (hs : g.FirstSound t) (hnd : t.NodupSets)
    (hempty : ∀ p ∈ g.productions, p.body = [] → "" ∈ t.get p.head)
    (hfuel : g.symbols.length * g.symbols.length < n + g.firstCount t) :
    ∃ u, t.Grows u ∧ (∀ k m, m ∈ (firstScan g.productions u).1.get k → m ∈ u.get k) ∧
      firstLoop g.productions n t = (firstScan g.productions u).1 := by
  induction n generalizing t with
  | zero =>
    have := g.firstCount_le t
    omega
  | succ n ih =>
    rw [firstLoop_succ]
    cases hflag : (firstScan g.productions t).2 with
    | false =>
      -- a scan that counts no growth adds only the `""` of empty bodies, there already
      refine ⟨t, .refl t, fun k m hm => ?_, rfl⟩
      rcases (firstScan_idle hflag).mp hm with hm | ⟨rfl, p, hp, rfl, hb⟩
      · exact hm
      · exact hempty p hp hb
    | true =>
      -- a scan that counts growth adds a pair of a symbol and a member
      have hscan := firstSound_firstScan g (fun _ h => h) hs
      obtain ⟨p, hp, m, hm, hnew⟩ := firstScan_exists_new hflag hnd
      have hlt : g.firstCount t < g.firstCount (firstScan g.productions t).1 :=
        g.firstCount_lt (grows_firstScan _ _) (g.head_mem_symbols hp) (hscan.mem_symbols g hm)
          hnew hm
      obtain ⟨u, hgu, hu⟩ := ih _ hscan (nodupSets_firstScan _ _ hnd)
        (fun p hp hb => empty_mem_firstScan hp hb) (by omega)
      exact ⟨u, (grows_firstScan _ _).trans hgu, hu⟩

theorem mul_self_lt_fuel : g.symbols.length * g.symbols.length < Nat.pow (g.symbols.length + 1) 2 := by
  have hpow : Nat.pow (g.symbols.length + 1) 2 = 1 * (g.symbols.length + 1) * (g.symbols.length + 1) := rfl
  rw [hpow, Nat.one_mul]
  exact Nat.mul_self_lt_mul_self (Nat.lt_succ_self _)

/-- **What the FIRST loop computes.** Its sets hold members of the FIRST family only. When the
first scan counts growth, they hold the whole family: the loop ends at its least fixpoint. When
the first scan counts none, the loop stops after it, with each terminal in its own set and `""` in
the sets of the heads of empty bodies, and nothing else. -/
theorem firstSets_least_unless_first_scan_idle :
    (∀ k m, m ∈ g.firstSets.get k → g.InFirst k m) ∧
    ((firstScan g.productions g.firstSeed).2 = true →
      ∀ k m, g.InFirst k m → m ∈ g.firstSets.get k) ∧
    ((firstScan g.productions g.firstSeed).2 = false → ∀ k m, m ∈ g.firstSets.get k ↔
      (k ∈ g.terminals ∧ m = k) ∨ (m = "" ∧ ∃ p ∈ g.productions, p.head = k ∧ p.body = [])) := by
  have hfuel : g.fuel = Nat.pow (g.symbols.length + 1) 2 + 1 := rfl
  refine ⟨g.firstSound_firstLoop _ _ g.firstSound_firstSeed, fun hgrow => ?_, fun hidle => ?_⟩
  · -- after a scan that grew, the loop ends at a table closed under every production
    obtain ⟨u, hgu, hfix, hloop⟩ := g.firstLoop_fixed _ _
      (firstSound_firstScan g (fun _ h => h) g.firstSound_firstSeed)
      (nodupSets_firstScan _ _ g.nodupSets_firstSeed) (fun p hp hb => empty_mem_firstScan hp hb)
      (Nat.lt_add_right _ g.mul_self_lt_fuel)
    have hres : g.firstSets = (firstScan g.productions u).1 := by
      rw [firstSets_eq, hfuel, firstLoop_succ, if_pos hgrow, hloop]
    intro k m hk
    rw [hres]
    apply (grows_firstScan _ _).mem
    refine mem_of_inFirst (fun x hx => ?_) (firstScan_closed hfix) hk
    exact hgu.mem ((grows_firstScan _ _).mem (g.mem_get_firstSeed.mpr ⟨hx, rfl⟩))
  · intro k m
    rw [firstSets_eq, hfuel, firstLoop_succ, hidle, if_neg Bool.false_ne_true, firstScan_idle hidle,
      mem_get_firstSeed]

/-- `A → A`, `B → A c`, `A → ε`: the empty body of `A` comes after its uses. -/
def nullableAfterUse : Grammar := ⟨[⟨"A", ["A"]⟩, ⟨"B", ["A", "c"]⟩, ⟨"A", []⟩]⟩

/-- In `nullableAfterUse` the first scan grows nothing (the set of `A` is empty when the other
productions read it), so the loop stops after it, and FIRST(B) misses `c` although `A` can
vanish. -/
theorem firstSets_miss_nullable_prefix :
    (firstScan nullableAfterUse.productions nullableAfterUse.firstSeed).2 = false ∧
      nullableAfterUse.InFirst "B" "c" ∧ "c" ∉ nullableAfterUse.firstSets.get "B" := by
  have hidle : (firstScan nullableAfterUse.productions nullableAfterUse.firstSeed).2 = false := by
    cbv
  have hA : nullableAfterUse.InFirst "A" "" := @InFirst.empty _ "A" [] (by decide) (by simp)
  have hc : nullableAfterUse.InFirst "c" "c" := by
    refine .terminal ((mem_terminals_iff _ _).mpr (Or.inr ⟨1, _, rfl, ?_, ?_, ?_⟩)) <;> decide
  refine ⟨hidle, @InFirst.body _ "B" "c" "c" ["A"] [] (by decide) (by simpa using hA) hc
    (by decide), fun hmem => ?_⟩
  -- `B` is no terminal, and `c` is not `""`
  rcases ((firstSets_least_unless_first_scan_idle nullableAfterUse).2.2 hidle "B" "c").mp hmem
    with ⟨hB, -⟩ | ⟨hne, -⟩
  · rcases (mem_terminals_iff _ _).mp hB with hend | ⟨i, p, hp, hx, -⟩
    · exact absurd hend (by decide)
    · have hmem : p ∈ nullableAfterUse.productions := List.mem_of_getElem? hp
      simp only [nullableAfterUse, List.mem_cons, List.not_mem_nil, or_false] at hmem
      rcases hmem with rfl | rfl | rfl <;> simp at hx
  · exact absurd hne (by decide)

end Grammar
end Frontend
