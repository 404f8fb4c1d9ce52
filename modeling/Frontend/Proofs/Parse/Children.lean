import Frontend.Parse.Rules

/-! Which built nodes a reduction takes as its children.

A reduction by rule `r` builds a node with no children yet and hands it to `attachChildren`
with the nodes built before it. The numbers `0..71` are the rules, and each takes none, one, two,
or up to three, four or seven children; so the call fails exactly when `r` lies outside `0..71`,
or its rule takes one child and there is no node, or two and there are fewer (`Refuses`). A
failure gives back the error alone, so the node and the list the caller holds stay as they were.
Otherwise the list splits into the nodes left and a suffix, and the suffix, in its own order,
becomes the node's children: no node is lost or taken twice (`attachChildren_splits`). The
suffix holds as many nodes as the rule takes, or all there are when the rule takes up to more. -/
namespace Frontend.Parse

/-- How many of `n` built nodes a reduction whose rule takes `c` children takes, when it takes
them. -/
def Children.taken : Children → Nat → Nat
  | .none, _ => 0
  | .one, _ => 1
  | .two, _ => 2
  | .upTo k, n => min k n

/-- The rules are the numbers up to 71: every one of them takes some children. -/
theorem childrenOf_eq_none_iff (n : Nat) : childrenOf n = none ↔ 71 < n := by
  constructor
  · intro h
    refine Nat.lt_of_not_le fun hn => ?_
    have hall : ∀ m < 72, childrenOf m ≠ none := by decide
    exact hall n (Nat.lt_succ_of_le hn) h
  · intro h
    unfold childrenOf
    repeat rw [if_neg (by simp; omega)]

/-- When a reduction by rule `r` cannot give its node the children the rule takes from
`built`. -/
def Refuses (r : Int) (built : List Node) : Prop :=
  r < 0 ∨ 71 < r ∨ (childrenOf r.toNat = some .one ∧ built = []) ∨
    (childrenOf r.toNat = some .two ∧ built.length < 2)

/-! ### One lemma per kind of rule -/

theorem attachChildren_negative {r : Int} (hr : r < 0) (node : Node) (built : List Node) :
    attachChildren (.int r) node built = .error (.unknownRule (.int r)) := by
  simp [attachChildren, Value.wholeValue?, Int.not_le.mpr hr]

section
variable {r : Int} (hr : 0 ≤ r) (v : Value) (ts : List Token) (cs : List Node)
include hr

theorem attachChildren_unknown (hc : childrenOf r.toNat = none) (built : List Node) :
    attachChildren (.int r) (.mk v ts cs) built = .error (.unknownRule (.int r)) := by
  simp [attachChildren, Value.wholeValue?, hr, hc]

theorem attachChildren_noChildren (hc : childrenOf r.toNat = some .none) (built : List Node) :
    attachChildren (.int r) (.mk v ts cs) built = .ok (.mk v ts cs, built) := by
  simp [attachChildren, Value.wholeValue?, hr, hc]

theorem attachChildren_one (hc : childrenOf r.toNat = some .one) (rest : List Node)
    (last : Node) :
    attachChildren (.int r) (.mk v ts cs) (rest ++ [last]) =
      .ok (.mk v ts (cs ++ [last]), rest) := by
  simp [attachChildren, Value.wholeValue?, hr, hc]

theorem attachChildren_one_nil (hc : childrenOf r.toNat = some .one) :
    attachChildren (.int r) (.mk v ts cs) [] = .error (.noNode (.int r)) := by
  simp [attachChildren, Value.wholeValue?, hr, hc]

/-- Two children are popped last first and then put back in their order. -/
theorem attachChildren_two (hc : childrenOf r.toNat = some .two) (rest : List Node)
    (a b : Node) :
    attachChildren (.int r) (.mk v ts cs) (rest ++ [a, b]) =
      .ok (.mk v ts (cs ++ [b, a]).reverse, rest) := by
  simp [attachChildren, Value.wholeValue?, hr, hc]

theorem attachChildren_two_short (hc : childrenOf r.toNat = some .two) {built : List Node}
    (hlen : built.length < 2) :
    attachChildren (.int r) (.mk v ts cs) built = .error (.tooFewNodes (.int r)) := by
  match built, hlen with
  | [], _ => simp [attachChildren, Value.wholeValue?, hr, hc]
  | [_], _ => simp [attachChildren, Value.wholeValue?, hr, hc]

theorem attachChildren_upTo {k : Nat} (hc : childrenOf r.toNat = some (.upTo k))
    (built : List Node) :
    attachChildren (.int r) (.mk v ts cs) built =
      .ok (.mk v ts (cs ++ built.drop (built.length - min k built.length)),
        built.take (built.length - min k built.length)) := by
  simp [attachChildren, Value.wholeValue?, hr, hc]

end

/-! ### Failure and success -/

theorem attachChildren_refuses {r : Int} {built : List Node} (v : Value) (ts : List Token)
    (h : Refuses r built) : ∃ e, attachChildren (.int r) (.mk v ts []) built = .error e := by
  rcases Int.lt_or_le r 0 with hneg | hr
  · exact ⟨_, attachChildren_negative hneg _ _⟩
  rcases h with hneg | hbig | ⟨hc, rfl⟩ | ⟨hc, hlen⟩
  · exact absurd hr (Int.not_le.mpr hneg)
  · have hnone : childrenOf r.toNat = none := (childrenOf_eq_none_iff _).mpr (by omega)
    exact ⟨_, attachChildren_unknown hr v ts [] hnone built⟩
  · exact ⟨_, attachChildren_one_nil hr v ts [] hc⟩
  · exact ⟨_, attachChildren_two_short hr v ts [] hc hlen⟩

/-- A list of at least two nodes ends with two of them. -/
theorem exists_append_pair {built : List Node} (hlen : 2 ≤ built.length) :
    ∃ rest a b, built = rest ++ [a, b] := by
  rcases List.eq_nil_or_concat built with rfl | ⟨front, b, rfl⟩
  · simp at hlen
  rcases List.eq_nil_or_concat front with rfl | ⟨rest, a, rfl⟩
  · simp at hlen
  exact ⟨rest, a, b, by simp⟩

theorem attachChildren_takes {r : Int} {built : List Node} (v : Value) (ts : List Token)
    (h : ¬ Refuses r built) :
    ∃ c rest taken, childrenOf r.toNat = some c ∧ built = rest ++ taken ∧
      taken.length = c.taken built.length ∧
      attachChildren (.int r) (.mk v ts []) built = .ok (.mk v ts taken, rest) := by
  simp only [Refuses, not_or, not_and, Int.not_lt] at h
  obtain ⟨hr, hle, hone, htwo⟩ := h
  -- a number from 0 to 71 is a rule, so it takes some children
  obtain ⟨c, hc⟩ : ∃ c, childrenOf r.toNat = some c :=
    Option.ne_none_iff_exists'.mp fun hnone => by
      have := (childrenOf_eq_none_iff _).mp hnone
      omega
  refine ⟨c, ?_⟩
  cases c with
  | none =>
    refine ⟨built, [], hc, by simp, rfl, ?_⟩
    simpa using attachChildren_noChildren hr v ts [] hc built
  | one =>
    obtain ⟨rest, last, rfl⟩ := (List.eq_nil_or_concat built).resolve_left (hone hc)
    refine ⟨rest, [last], hc, by simp, rfl, ?_⟩
    simpa using attachChildren_one hr v ts [] hc rest last
  | two =>
    obtain ⟨rest, a, b, rfl⟩ := exists_append_pair (Nat.le_of_not_lt (htwo hc))
    refine ⟨rest, [a, b], hc, rfl, rfl, ?_⟩
    simpa using attachChildren_two hr v ts [] hc rest a b
  | upTo k =>
    refine ⟨_, _, hc, (List.take_append_drop (built.length - min k built.length) built).symm,
      ?_, ?_⟩
    · simp only [List.length_drop, Children.taken]
      omega
    · simpa using attachChildren_upTo hr v ts [] hc built

/-- A reduction by rule `r` hands its childless node and the built nodes to `attachChildren`.
It fails exactly when `r` is no rule, or the rule takes one child and there is no node, or two
and there are fewer. Otherwise the built nodes split into those left and a suffix of as many as
the rule takes, and that suffix, in its order, becomes the node's children. -/
theorem attachChildren_splits (r : Int) (v : Value) (ts : List Token) (built : List Node) :
    ((∃ e, attachChildren (.int r) (.mk v ts []) built = .error e) ↔ Refuses r built) ∧
    (¬ Refuses r built → ∃ c rest taken, childrenOf r.toNat = some c ∧
      built = rest ++ taken ∧ taken.length = c.taken built.length ∧
      attachChildren (.int r) (.mk v ts []) built = .ok (.mk v ts taken, rest)) := by
  refine ⟨⟨fun ⟨e, he⟩ => Classical.byContradiction fun h => ?_, attachChildren_refuses v ts⟩,
    attachChildren_takes v ts⟩
  obtain ⟨_, _, _, _, _, _, hok⟩ := attachChildren_takes v ts h
  rw [hok] at he
  cases he

end Frontend.Parse
