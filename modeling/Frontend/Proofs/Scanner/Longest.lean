import Frontend.Proofs.Scanner.Patterns

/-! First match and longest match.

A scanner that tries its rules in order and takes the first that matches can differ from one that
takes the longest piece at the front of the text that any rule's set holds (`longestMatch`). The
two agree when every rule's pattern recognizes its set and every rule *outranks* the rules after
it: no later set holds a text that extends a text the earlier set holds (`Outranks`). Then the
first match is the longest match, taken by the first class whose set holds it
(`findSome_eq_longestMatch`). -/
namespace Frontend.Scanner

section
variable {α : Type} (holds : α → List Char → Bool) (classes : List α)

/-- The longest piece, at most `n` characters long, at the front of a text that some class
holds, with the first class that holds it. -/
def longestUpTo (input : List Char) : Nat → Option (α × Nat)
  | 0 => none
  | n + 1 =>
    match classes.find? (holds · (input.take (n + 1))) with
    | some a => some (a, n + 1)
    | none => longestUpTo input n

/-- The longest piece at the front of a text that some class holds: the first class that holds
it, and its length. -/
def longestMatch (input : List Char) : Option (α × Nat) :=
  longestUpTo holds classes input input.length

/-- A class outranks another when the other holds no text that extends a text the first holds. -/
def Outranks (a b : α) : Prop :=
  ∀ q t, holds a q = true → holds b (q ++ t) = true → t = []

/-- Where a class holds a piece at the front of a text, a class it outranks holds nothing longer
there. -/
theorem Outranks.length_le {a b : α} (hout : Outranks holds a b) {input p q : List Char}
    (hp : p <+: input) (hq : q <+: input) (ha : holds a p = true) (hb : holds b q = true) :
    q.length ≤ p.length := by
  rcases List.prefix_or_prefix_of_prefix hq hp with h | ⟨t, rfl⟩
  · exact h.length_le
  · rw [hout _ t ha hb]
    simp

theorem longestUpTo_pos {input : List Char} {n m : Nat} {a : α}
    (h : longestUpTo holds classes input n = some (a, m)) : 0 < m := by
  induction n with
  | zero => cases h
  | succ n ih =>
    unfold longestUpTo at h
    split at h
    · cases h
      omega
    · exact ih h

/-- Lengths at which no class holds the text's prefix are passed over. -/
theorem longestUpTo_skip (input : List Char) {m n : Nat} (hmn : m ≤ n)
    (hnone : ∀ j, m < j → j ≤ n → classes.find? (holds · (input.take j)) = none) :
    longestUpTo holds classes input n = longestUpTo holds classes input m := by
  induction n with
  | zero => rw [Nat.le_zero.mp hmn]
  | succ n ih =>
    rcases Nat.lt_or_eq_of_le hmn with hlt | rfl
    · rw [longestUpTo, hnone (n + 1) hlt (Nat.le_refl _)]
      exact ih (by omega) fun j hj hjn => hnone j hj (by omega)
    · rfl

end

section
variable {α : Type} {holds : α → List Char → Bool} {classes : List α}

/-- Where no class holds a nonempty prefix of the text, there is no longest match. -/
theorem longestMatch_eq_none {input : List Char}
    (hnone : ∀ a ∈ classes, ∀ q, q ≠ [] → q <+: input → holds a q = false) :
    longestMatch holds classes input = none := by
  unfold longestMatch
  rw [longestUpTo_skip holds classes input (Nat.zero_le _) fun j hj hjn => ?_]
  · rfl
  · refine List.find?_eq_none.mpr fun a ha => ?_
    have hne : input.take j ≠ [] :=
      List.ne_nil_of_length_pos (by rw [List.length_take]; omega)
    simp [hnone a ha _ hne (List.take_prefix _ _)]

/-- Where a prefix of the text is held by a class, no class before it holds a nonempty prefix
and no class holds a longer one, the longest match is that prefix with that class. -/
theorem longestMatch_eq_some {input : List Char} {l₁ l₂ : List α} {a : α} {q : List Char}
    (hcl : classes = l₁ ++ a :: l₂) (hq : q <+: input) (hne : q ≠ []) (ha : holds a q = true)
    (hbefore : ∀ b ∈ l₁, ∀ q, q ≠ [] → q <+: input → holds b q = false)
    (hlonger : ∀ b ∈ classes, ∀ q', q' <+: input → holds b q' = true → q'.length ≤ q.length) :
    longestMatch holds classes input = some (a, q.length) := by
  have hqlen : 0 < q.length := List.length_pos_iff.mpr hne
  have htake : input.take q.length = q := (List.prefix_iff_eq_take.mp hq).symm
  unfold longestMatch
  rw [longestUpTo_skip holds classes input hq.length_le fun j hj hjn => ?_]
  · -- at the length of `q`, the classes before `a` hold nothing, and `a` holds `q`
    obtain ⟨m, hm⟩ : ∃ m, q.length = m + 1 := ⟨q.length - 1, by omega⟩
    have hfind : classes.find? (holds · (input.take q.length)) = some a := by
      rw [hcl, List.find?_append, List.find?_eq_none.mpr fun b hb => ?_, Option.none_or,
        List.find?_cons_of_pos]
      · rwa [htake]
      · simp [htake, hbefore b hb q hne hq]
    rw [hm] at hfind ⊢
    simp [longestUpTo, hfind]
  · -- longer prefixes are held by no class
    refine List.find?_eq_none.mpr fun b hb hbj => ?_
    have := hlonger b hb _ (List.take_prefix _ _) hbj
    simp at this
    omega

/-- **First match is longest match.** When every class's pattern recognizes its set and every
class outranks the classes after it, the first class whose pattern matches takes the longest
piece that any class holds, and is the first class that holds it. -/
theorem findSome_eq_longestMatch (pattern : α → Pattern)
    (hrec : ∀ a ∈ classes, Recognizes (pattern a) (holds a))
    (hord : classes.Pairwise (Outranks holds)) (input : List Char) :
    (classes.findSome? fun a => (pattern a input).map fun k => (a, k)).map
      (fun r => (r.1, r.2.piece.length)) = longestMatch holds classes input := by
  cases hfirst : classes.findSome? (fun a => (pattern a input).map fun k => (a, k)) with
  | none =>
    have hnone : ∀ a ∈ classes, pattern a input = none := fun a ha => by
      simpa using List.findSome?_eq_none_iff.mp hfirst a ha
    exact (longestMatch_eq_none fun a ha _ hne hq =>
      (hrec a ha).holds_eq_false (hnone a ha) hne hq).symm
  | some r =>
    obtain ⟨a, k⟩ := r
    obtain ⟨l₁, b, l₂, hcl, hb, hl₁⟩ := List.findSome?_eq_some_iff.mp hfirst
    obtain ⟨k', hk', hbk⟩ := Option.map_eq_some_iff.mp hb
    obtain ⟨rfl, rfl⟩ := Prod.mk.inj hbk
    have hmem : b ∈ classes := by simp [hcl]
    -- the classes before the first match hold no nonempty prefix
    have hbefore : ∀ c ∈ l₁, ∀ q, q ≠ [] → q <+: input → holds c q = false :=
      fun c hc _ hne hq => (hrec c (by simp [hcl, hc])).holds_eq_false
        (by simpa using hl₁ c hc) hne hq
    -- every class holds nothing longer than the match: the earlier ones nothing at all, the
    -- matching one by its pattern, the later ones because the matching one outranks them
    have hlonger : ∀ c ∈ classes, ∀ q, q <+: input → holds c q = true →
        q.length ≤ k'.piece.length := by
      intro c hc q hq hcq
      rw [hcl, List.mem_append, List.mem_cons] at hc
      rcases hc with hc | rfl | hc
      · cases q with
        | nil => simp
        | cons _ _ => simp [hbefore c hc _ (List.cons_ne_nil _ _) hq] at hcq
      · exact (hrec c hmem).longest hk' hq hcq
      · have hout : Outranks holds b c := by
          rw [hcl] at hord
          exact (List.pairwise_cons.mp (List.pairwise_append.mp hord).2.1).1 c hc
        exact hout.length_le holds k'.piece_isPrefix hq ((hrec b hmem).sound hk') hcq
    rw [longestMatch_eq_some hcl k'.piece_isPrefix k'.piece_ne ((hrec b hmem).sound hk') hbefore
      hlonger]
    rfl

end

end Frontend.Scanner
