import Mathlib.Data.Finset.Card
import Mathlib.Logic.Relation
import Frontend.Proofs.Grammar.Tables

/-! Item sets of the LR(0) construction: their canonical form, closure and goto.

An item set is kept sorted and free of duplicates, so two sets with the same items are the same
list (`Canonical.eq_of_mem_iff`). The closure of a kernel adds the productions of every
nonterminal reached from one after a dot along first symbols of bodies; `mem_frontReach` says that
`frontReach` finds exactly those nonterminals, each of its rounds reaching one more. So a closure
has the items `mem_closure` names, and closing it again adds nothing (`closure_closure`): it is the
least item set that holds its kernel and the first items of the productions of each symbol after
a dot (`closure_least_expansion_closed`). A state
has a transition on a symbol exactly when the symbol stands after a dot in one of its items
(`goto_ne_nil_iff`). -/
namespace Frontend

/-! ### Canonical item sets -/

theorem eraseDups_sublist_nodup {α : Type} [BEq α] [LawfulBEq α] (l : List α) :
    l.eraseDups.Sublist l ∧ l.eraseDups.Nodup := by
  obtain ⟨n, hn⟩ : ∃ n, l.length = n := ⟨_, rfl⟩
  -- each step drops the first element's later copies, so the induction is on the length
  induction n using Nat.strong_induction_on generalizing l with
  | _ n ih =>
    cases l with
    | nil => simp
    | cons a as =>
      have hlt : (as.filter fun b => !b == a).length < n :=
        hn ▸ Nat.lt_succ_of_le (List.length_filter_le _ as)
      obtain ⟨hsub, hnd⟩ := ih _ hlt _ rfl
      rw [List.eraseDups_cons]
      refine ⟨(hsub.trans List.filter_sublist).cons_cons a, List.nodup_cons.mpr ⟨?_, hnd⟩⟩
      intro h
      simpa using List.mem_eraseDups.mp h

namespace Item

theorem le_trans (a b c : Item) : le a b = true → le b c = true → le a c = true := by
  simp only [le, Bool.or_eq_true, decide_eq_true_eq, Bool.and_eq_true, beq_iff_eq]
  omega

theorem le_total (a b : Item) : (le a b || le b a) = true := by
  simp only [le, Bool.or_eq_true, decide_eq_true_eq, Bool.and_eq_true, beq_iff_eq]
  omega

theorem eq_of_le_of_le {a b : Item} (hab : le a b = true) (hba : le b a = true) : a = b := by
  obtain ⟨r, d⟩ := a
  obtain ⟨r', d'⟩ := b
  simp only [le, Bool.or_eq_true, decide_eq_true_eq, Bool.and_eq_true, beq_iff_eq] at hab hba
  simp only [Item.mk.injEq]
  omega

end Item

/-- An item set in canonical form: sorted and without duplicates. -/
structure Canonical (s : List Item) : Prop where
  sorted : s.Pairwise fun a b => Item.le a b = true
  nodup : s.Nodup

@[simp] theorem mem_normalizeItems {xs : List Item} {it : Item} :
    it ∈ normalizeItems xs ↔ it ∈ xs := by
  simp [normalizeItems, List.mem_mergeSort]

theorem canonical_normalizeItems (xs : List Item) : Canonical (normalizeItems xs) where
  sorted := (List.pairwise_mergeSort Item.le_trans Item.le_total xs).sublist
    (eraseDups_sublist_nodup _).1
  nodup := (eraseDups_sublist_nodup _).2

/-- Two canonical item sets with the same items are the same list. -/
theorem Canonical.eq_of_mem_iff {s₁ s₂ : List Item} (h₁ : Canonical s₁) (h₂ : Canonical s₂)
    (h : ∀ it, it ∈ s₁ ↔ it ∈ s₂) : s₁ = s₂ := by
  refine List.Perm.eq_of_pairwise (fun _ _ _ _ => Item.eq_of_le_of_le) h₁.sorted h₂.sorted ?_
  exact (List.perm_ext_iff_of_nodup h₁.nodup h₂.nodup).mpr h

namespace Grammar

variable (g : Grammar)

/-! ### Productions and their copies -/

theorem production?_firstCopy (i : Nat) : g.production? (g.firstCopy i) = g.production? i := by
  unfold firstCopy
  cases hp : g.production? i with
  | none => simp [hp]
  | some p =>
    have hany : g.productions.any (· == p) = true :=
      List.any_eq_true.mpr ⟨p, List.mem_of_getElem? hp, beq_self_eq_true p⟩
    obtain ⟨j, hj⟩ := Option.isSome_iff_exists.mp (by rw [List.findIdx?_isSome]; exact hany)
    obtain ⟨hjlt, hjp, -⟩ := List.findIdx?_eq_some_iff_getElem.mp hj
    simp only [hj, Option.getD_some, production?, List.getElem?_eq_getElem hjlt]
    exact congrArg some (beq_iff_eq.mp hjp)

/-- The number a reduction reports names the production it reduces by. -/
theorem production?_lastCopy (i : Nat) : g.production? (g.lastCopy i) = g.production? i := by
  unfold lastCopy
  cases hp : g.production? i with
  | none => simp [hp]
  | some p =>
    refine List.foldlRecOn (motive := fun acc => g.production? acc = some p)
      g.productions.zipIdx _ hp ?_
    rintro acc hacc ⟨q, j⟩ hmem
    dsimp only
    split
    · rename_i hq
      rw [List.mem_zipIdx_iff_getElem?] at hmem
      simpa [production?, beq_iff_eq.mp hq] using hmem
    · exact hacc

theorem isNonterminal_iff {x : String} :
    g.isNonterminal x = true ↔ ∃ p ∈ g.productions, p.head = x := by
  simp [isNonterminal, List.any_eq_true]

/-! ### Nonterminals reached along first symbols -/

/-- `a` has a production whose body begins with the nonterminal `b`. -/
def Begins (a b : String) : Prop :=
  ∃ p ∈ g.productions, p.head = a ∧ p.body.head? = some b ∧ g.isNonterminal b = true

theorem mem_frontStep {xs : List String} {y : String} :
    y ∈ g.frontStep xs ↔ y ∈ xs ∨ ∃ x ∈ xs, g.Begins x y := by
  simp only [frontStep, mem_addSymbols, List.mem_filterMap]
  refine or_congr_right ⟨?_, ?_⟩
  · rintro ⟨p, hp, h⟩
    split at h
    · rename_i hx
      simp only [Option.filter_eq_some_iff] at h
      exact ⟨p.head, List.contains_iff_mem.mp hx, p, hp, rfl, h.1, h.2⟩
    · cases h
  · rintro ⟨x, hx, p, hp, rfl, hhead, hnt⟩
    refine ⟨p, hp, ?_⟩
    rw [if_pos (List.contains_iff_mem.mpr hx), hhead]
    simp [hnt]

/-- A round that adds nothing leaves every nonterminal that begins a listed one listed. -/
theorem mem_of_frontStep_length {xs : List String} {y : String}
    (hlen : (g.frontStep xs).length = xs.length) (hy : y ∈ g.frontStep xs) : y ∈ xs := by
  unfold frontStep at hlen hy
  rcases mem_addSymbols.mp hy with hy | hy
  · exact hy
  · exact length_addSymbols_eq_iff.mp hlen y hy

/-- The nonterminals not yet listed: what bounds the rounds of `frontLoop`. -/
def unreached (xs : List String) : Finset String :=
  (g.productions.map (·.head)).toFinset \ xs.toFinset

theorem card_unreached_lt {xs ys : List String} (hsub : ∀ x ∈ xs, x ∈ ys) {y : String}
    (hy : g.isNonterminal y = true) (hyx : y ∉ xs) (hyy : y ∈ ys) :
    (g.unreached ys).card < (g.unreached xs).card := by
  apply Finset.card_lt_card
  rw [Finset.ssubset_iff_of_subset]
  · obtain ⟨p, hp, rfl⟩ := (g.isNonterminal_iff).mp hy
    refine ⟨p.head, ?_, ?_⟩
    · simp only [unreached, Finset.mem_sdiff, List.mem_toFinset, List.mem_map]
      exact ⟨⟨p, hp, rfl⟩, hyx⟩
    · simp [unreached, hyy]
  · intro z hz
    simp only [unreached, Finset.mem_sdiff, List.mem_toFinset] at hz ⊢
    exact ⟨hz.1, fun h => hz.2 (hsub z h)⟩

theorem subset_frontLoop {n : Nat} {xs : List String} {x : String} (hx : x ∈ xs) :
    x ∈ g.frontLoop n xs := by
  induction n generalizing xs with
  | zero => exact hx
  | succ n ih =>
    simp only [frontLoop]
    split
    · exact hx
    · exact ih ((g.mem_frontStep).mpr (Or.inl hx))

theorem frontLoop_sound {n : Nat} {xs : List String} {y : String} (hy : y ∈ g.frontLoop n xs) :
    ∃ x ∈ xs, Relation.ReflTransGen g.Begins x y := by
  induction n generalizing xs with
  | zero => exact ⟨y, hy, .refl⟩
  | succ n ih =>
    simp only [frontLoop] at hy
    split at hy
    · exact ⟨y, hy, .refl⟩
    · obtain ⟨z, hz, hzy⟩ := ih hy
      rcases (g.mem_frontStep).mp hz with hz | ⟨x, hx, hxz⟩
      · exact ⟨z, hz, hzy⟩
      · exact ⟨x, hx, .head hxz hzy⟩

/-- With more rounds than nonterminals left to reach, `frontLoop` ends on a list that holds
everything its members begin with. -/
theorem frontLoop_closed {n : Nat} {xs : List String} (hn : (g.unreached xs).card < n)
    {x y : String} (hx : x ∈ g.frontLoop n xs) (hxy : g.Begins x y) : y ∈ g.frontLoop n xs := by
  induction n generalizing xs with
  | zero => omega
  | succ n ih =>
    simp only [frontLoop] at hx ⊢
    split
    · rename_i hlen
      rw [if_pos hlen] at hx
      exact g.mem_of_frontStep_length (beq_iff_eq.mp hlen)
        ((g.mem_frontStep).mpr (Or.inr ⟨x, hx, hxy⟩))
    · rename_i hlen
      rw [if_neg hlen] at hx
      refine ih ?_ hx
      -- the round added a nonterminal, so one fewer is left
      have hgrew : ∃ z ∈ g.frontStep xs, z ∉ xs := by
        by_contra hnone
        simp only [not_exists, not_and, not_not] at hnone
        refine hlen (beq_iff_eq.mpr ?_)
        unfold frontStep
        exact length_addSymbols_eq_iff.mpr fun z hz => hnone z (mem_addSymbols.mpr (Or.inr hz))
      obtain ⟨z, hz, hzx⟩ := hgrew
      have hzn : g.isNonterminal z = true := by
        rcases (g.mem_frontStep).mp hz with hz' | ⟨_, _, _, _, _, _, hnt⟩
        · exact absurd hz' hzx
        · exact hnt
      have := g.card_unreached_lt (fun w hw => (g.mem_frontStep).mpr (Or.inl hw)) hzn hzx hz
      omega

/-- `frontReach` lists exactly the nonterminals reached from the given ones along first symbols
of bodies. -/
theorem mem_frontReach {xs : List String} {y : String} :
    y ∈ g.frontReach xs ↔ ∃ x ∈ xs, Relation.ReflTransGen g.Begins x y := by
  constructor
  · exact g.frontLoop_sound
  · rintro ⟨x, hx, hxy⟩
    have hn : (g.unreached xs).card < g.productions.length + 1 := by
      have h₁ : (g.unreached xs).card ≤ (g.productions.map (·.head)).toFinset.card :=
        Finset.card_le_card Finset.sdiff_subset
      have h₂ := List.toFinset_card_le (g.productions.map (·.head))
      simp only [List.length_map] at h₂
      omega
    induction hxy with
    | refl => exact g.subset_frontLoop hx
    | tail _ hbc ih => exact g.frontLoop_closed hn ih hbc

/-! ### Closure -/

/-- The nonterminal `a` is expanded in the closure of a kernel: an item of the kernel has a
nonterminal after its dot from which `a` is reached along first symbols of bodies. -/
def Expands (kernel : List Item) (a : String) : Prop :=
  ∃ it ∈ kernel, ∃ x, g.next? it = some x ∧ g.isNonterminal x = true ∧
    Relation.ReflTransGen g.Begins x a

/-- A closure holds its kernel and the first items of the productions of every nonterminal it
expands. -/
theorem mem_closure {kernel : List Item} {it : Item} :
    it ∈ g.closure kernel ↔ it ∈ kernel ∨
      ∃ i p, g.productions[i]? = some p ∧ g.Expands kernel p.head ∧ it = ⟨g.firstCopy i, 0⟩ := by
  simp only [closure, mem_normalizeItems, List.mem_append, List.mem_filterMap,
    List.mem_zipIdx_iff_getElem?]
  refine or_congr_right ⟨?_, ?_⟩
  · rintro ⟨⟨p, i⟩, hpi, h⟩
    split at h
    · rename_i hreach
      cases h
      obtain ⟨x, hx, hxa⟩ := (g.mem_frontReach).mp (List.contains_iff_mem.mp hreach)
      simp only [mem_addSymbols, List.not_mem_nil, false_or, List.mem_filter,
        List.mem_filterMap] at hx
      obtain ⟨⟨it', hit', hnext⟩, hnt⟩ := hx
      exact ⟨i, p, hpi, ⟨it', hit', x, hnext, hnt, hxa⟩, rfl⟩
    · cases h
  · rintro ⟨i, p, hpi, ⟨it', hit', x, hnext, hnt, hxa⟩, rfl⟩
    refine ⟨(p, i), hpi, ?_⟩
    have hreach : p.head ∈ g.frontReach (addSymbols [] ((kernel.filterMap g.next?).filter
        g.isNonterminal)) := by
      refine (g.mem_frontReach).mpr ⟨x, ?_, hxa⟩
      simp only [mem_addSymbols, List.not_mem_nil, false_or, List.mem_filter, List.mem_filterMap]
      exact ⟨⟨it', hit', hnext⟩, hnt⟩
    rw [if_pos (List.contains_iff_mem.mpr hreach)]

theorem canonical_closure (kernel : List Item) : Canonical (g.closure kernel) :=
  canonical_normalizeItems _

theorem subset_closure {kernel : List Item} {it : Item} (h : it ∈ kernel) :
    it ∈ g.closure kernel :=
  (g.mem_closure).mpr (Or.inl h)

/-- The first item of a production has the body's first symbol after its dot. -/
theorem next?_firstCopy_start {i : Nat} {p : Production} (hp : g.productions[i]? = some p) :
    g.next? ⟨g.firstCopy i, 0⟩ = p.body.head? := by
  simp only [next?]
  rw [production?_firstCopy]
  simp [production?, hp, List.head?_eq_getElem?]

/-- What a closure expands, its kernel expands already: an item it adds has its first symbol
reached from its head. -/
theorem expands_of_expands_closure {kernel : List Item} {a : String}
    (h : g.Expands (g.closure kernel) a) : g.Expands kernel a := by
  obtain ⟨it, hit, x, hnext, hnt, hxa⟩ := h
  rcases (g.mem_closure).mp hit with hk | ⟨i, p, hp, ⟨it', hit', y, hnext', hnt', hyh⟩, rfl⟩
  · exact ⟨it, hk, x, hnext, hnt, hxa⟩
  · have hfirst : p.body.head? = some x := (g.next?_firstCopy_start hp).symm.trans hnext
    have hbeg : g.Begins p.head x := ⟨p, List.mem_of_getElem? hp, rfl, hfirst, hnt⟩
    exact ⟨it', hit', y, hnext', hnt', (hyh.tail hbeg).trans hxa⟩

/-- **Closing a closure adds nothing.** -/
theorem closure_closure (kernel : List Item) : g.closure (g.closure kernel) = g.closure kernel := by
  refine (g.canonical_closure _).eq_of_mem_iff (g.canonical_closure _) fun it => ?_
  constructor
  · intro h
    rcases (g.mem_closure).mp h with h | ⟨i, p, hp, hexp, rfl⟩
    · exact h
    · exact (g.mem_closure).mpr (Or.inr ⟨i, p, hp, g.expands_of_expands_closure hexp, rfl⟩)
  · exact g.subset_closure

/-! ### The least closed item set -/

/-- A state has a transition on a symbol exactly when the symbol stands after a dot in it. -/
theorem goto_ne_nil_iff {s : List Item} {x : String} :
    g.goto s x ≠ [] ↔ ∃ it ∈ s, g.next? it = some x := by
  unfold goto
  dsimp only
  split
  · rename_i hk
    simp only [ne_eq, not_true_eq_false, false_iff, not_exists, not_and]
    intro it hit hnext
    have := List.filterMap_eq_nil_iff.mp (List.isEmpty_iff.mp hk) it hit
    simp [hnext] at this
  · rename_i hk
    obtain ⟨it', hit'⟩ := List.exists_mem_of_ne_nil _ (fun h => hk (List.isEmpty_iff.mpr h))
    obtain ⟨it, hit, hmap⟩ := List.mem_filterMap.mp hit'
    have hnext : g.next? it = some x := by
      by_contra hne
      simp [hne] at hmap
    refine iff_of_true ?_ ⟨it, hit, hnext⟩
    exact List.ne_nil_of_mem (g.subset_closure ((mem_normalizeItems).mpr hit'))

/-- A nonempty goto is the closure of the items moved over its symbol. -/
theorem goto_eq_closure {s : List Item} {x : String} (h : g.goto s x ≠ []) :
    ∃ kernel, g.goto s x = g.closure kernel ∧
      ∀ it ∈ kernel, ∃ it' ∈ s, g.next? it' = some x ∧ it = ⟨it'.rule, it'.dot + 1⟩ := by
  unfold goto at h ⊢
  dsimp only at h ⊢
  split at h
  · exact absurd rfl h
  · rw [if_neg ‹_›]
    refine ⟨_, rfl, fun it hit => ?_⟩
    obtain ⟨it', hit', hmap⟩ := List.mem_filterMap.mp ((mem_normalizeItems).mp hit)
    by_cases hnext : g.next? it' = some x
    · simp only [hnext, beq_self_eq_true, if_true, Option.some.injEq] at hmap
      exact ⟨it', hit', hnext, hmap.symm⟩
    · simp [hnext] at hmap

/-- The symbols a state has transitions on are the terminals and nonterminals its goto does not
send to the empty set. -/
theorem mem_transitionSymbols {s : List Item} {x : String} :
    x ∈ g.transitionSymbols s ↔ g.isSymbol x = true ∧ g.goto s x ≠ [] := by
  rw [goto_ne_nil_iff]
  simp only [transitionSymbols, List.mem_filter, mem_sortSymbols, List.mem_filterMap]
  exact and_comm

theorem nodup_transitionSymbols (s : List Item) : (g.transitionSymbols s).Nodup := by
  unfold transitionSymbols sortSymbols
  exact (eraseDups_sublist_nodup _).2.filter _

/-! ### Items of the grammar -/

/-- An item of the grammar: its production exists and its dot stands within the body. -/
def ValidItem (it : Item) : Prop :=
  ∃ p, g.production? it.rule = some p ∧ it.dot ≤ p.body.length

theorem validItem_closure {kernel : List Item} (h : ∀ it ∈ kernel, g.ValidItem it) :
    ∀ it ∈ g.closure kernel, g.ValidItem it := by
  intro it hit
  rcases (g.mem_closure).mp hit with hk | ⟨i, p, hp, -, rfl⟩
  · exact h it hk
  · exact ⟨p, by rw [production?_firstCopy]; exact hp, Nat.zero_le _⟩

theorem validItem_goto {s : List Item} (h : ∀ it ∈ s, g.ValidItem it) (x : String) :
    ∀ it ∈ g.goto s x, g.ValidItem it := by
  by_cases hne : g.goto s x = []
  · simp [hne]
  · obtain ⟨kernel, heq, hk⟩ := g.goto_eq_closure hne
    rw [heq]
    refine g.validItem_closure fun it hit => ?_
    obtain ⟨it', hit', hnext, rfl⟩ := hk it hit
    obtain ⟨p, hp, -⟩ := h it' hit'
    -- a symbol after the dot means the dot is before the end
    have hlt : it'.dot < p.body.length := by
      simp only [next?, hp, Option.bind_some] at hnext
      exact (List.getElem?_eq_some_iff.mp hnext).1
    exact ⟨p, hp, hlt⟩

end Grammar
end Frontend
