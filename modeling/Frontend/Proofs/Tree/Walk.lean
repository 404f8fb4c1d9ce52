import Frontend.Tree

/-! What a walk does to a tree.

A walk reverses the children of every node it visits before it lists them and descends into
them, and it visits every node of the tree once. The tree it leaves is therefore the tree's
*mirror image* (`Node.mirror`): the same rules and tokens everywhere, with the children of every
node in reverse order. What it prints is the *text* of that mirror image (`Node.text`): a node's
header, then the texts of its children in the order the node holds them (`walk_eq`).

Mirroring twice gives the tree back (`mirror_mirror`), so a second walk restores the tree and
prints the text of the tree as it first was. Two walks in a row print the same text exactly when
the tree and its mirror image have the same text; a node with two leaf children of different rules
is enough to tell them apart (`walk_forked`).

**`walk_mirrors`**: a walk keeps every node's rule and tokens, leaves the tree's mirror image and
prints its text, and a second walk restores the tree. -/
namespace Frontend.Node

mutual

/-- The mirror image of a tree: the children of every node in reverse order. -/
def mirror : Node → Node
  | mk r ts cs => mk r ts (mirrorReversed cs)

/-- The mirror images of a list of trees, in reverse order. -/
def mirrorReversed : List Node → List Node
  | [] => []
  | n :: ns => mirrorReversed ns ++ [mirror n]

end

mutual

/-- The text of a tree: its header, then the texts of its children in the order the node holds
them. -/
def text : Node → String
  | mk r ts cs => header r ts cs ++ textAll cs

/-- The texts of a list of trees, one after the other. -/
def textAll : List Node → String
  | [] => ""
  | n :: ns => text n ++ textAll ns

end

/-! ### Mirror images -/

theorem mirrorReversed_eq (ns : List Node) : mirrorReversed ns = (ns.map mirror).reverse := by
  induction ns with
  | nil => rfl
  | cons n ns ih => simp [mirrorReversed, ih]

@[simp] theorem mirror_mk (r : Value) (ts : List Token) (cs : List Node) :
    mirror (mk r ts cs) = mk r ts (cs.map mirror).reverse := by
  rw [mirror, mirrorReversed_eq]

@[simp] theorem rule_mirror (n : Node) : n.mirror.rule = n.rule := by
  cases n
  rfl

@[simp] theorem terminals_mirror (n : Node) : n.mirror.terminals = n.terminals := by
  cases n
  rfl

@[simp] theorem children_mirror (n : Node) : n.mirror.children = (n.children.map mirror).reverse := by
  cases n
  simp [children]

mutual

theorem mirror_mirror : (n : Node) → n.mirror.mirror = n
  | mk r ts cs => by
    rw [mirror_mk, mirror_mk, List.map_reverse, List.reverse_reverse, map_mirror_mirror cs]

theorem map_mirror_mirror : (ns : List Node) → (ns.map mirror).map mirror = ns
  | [] => rfl
  | n :: ns => by
    rw [List.map_cons, List.map_cons, mirror_mirror n, map_mirror_mirror ns]

end

/-! ### Texts -/

theorem textAll_append (ns ms : List Node) : textAll (ns ++ ms) = textAll ns ++ textAll ms := by
  induction ns with
  | nil => simp [textAll]
  | cons n ns ih => simp [textAll, ih, String.append_assoc]

/-- A header lists the rules of the children only, so the children's mirror images give the same
header. -/
theorem header_map_mirror (r : Value) (ts : List Token) (cs : List Node) :
    header r ts (cs.map mirror) = header r ts cs := by
  simp [header, Function.comp_def]

/-! ### Walks -/

mutual

/-- **A walk prints the text of the mirror image and leaves the mirror image.** -/
theorem walk_eq : (n : Node) → walk n = (n.mirror.text, n.mirror)
  | mk r ts cs => by
    rw [walk, walkReversed_eq cs, mirror, text, mirrorReversed_eq, ← List.map_reverse,
      header_map_mirror]

theorem walkReversed_eq : (ns : List Node) → walkReversed ns = (textAll (mirrorReversed ns), mirrorReversed ns)
  | [] => rfl
  | n :: ns => by
    rw [walkReversed, walkReversed_eq ns, walk_eq n, mirrorReversed, textAll_append]
    simp [textAll]

end

/-- **What a walk does to a tree.** A walk keeps the rule and the tokens of every node and
reverses the children of every node: it leaves the tree's mirror image, and prints the text of
that mirror image. A second walk restores the tree and prints the tree's own text, so the two
walks print the same text exactly when the tree and its mirror image have the same text. -/
theorem walk_mirrors (n : Node) :
    (walk n).2 = n.mirror ∧ (walk n).1 = n.mirror.text ∧
      (walk (walk n).2).2 = n ∧ (walk (walk n).2).1 = n.text ∧
      ((walk (walk n).2).1 = (walk n).1 ↔ n.text = n.mirror.text) := by
  have hsecond : walk (walk n).2 = (n.text, n) := by
    rw [walk_eq n, walk_eq, mirror_mirror]
  rw [hsecond, walk_eq n]
  exact ⟨rfl, rfl, rfl, rfl, Iff.rfl⟩

/-- A node with two leaf children of different rules. -/
def forked : Node := mk (.int 1) [] [leaf (.int 2), leaf (.int 3)]

/-- A walk of `forked` reverses its children, and a second walk prints another text. -/
theorem walk_forked :
    forked.children.map (·.rule.render) = ["2", "3"] ∧
      (walk forked).2.children.map (·.rule.render) = ["3", "2"] ∧
      (walk (walk forked).2).1 ≠ (walk forked).1 := by
  decide

end Frontend.Node
