import Frontend.Grammar.Basic

/-! Tables of symbol sets.

A `SetTable` gives a set of symbols for each symbol it holds. A symbol is held once it has been
looked up, even when its set stays empty: the table records which symbols an analysis consulted
as well as what it found. Each key appears once; a set is a list without duplicates. -/
namespace Frontend

/-- Sets of symbols keyed by symbols; the entries' order is the order of first lookup. -/
structure SetTable where
  entries : List (String × List String)

namespace SetTable

/-- The empty table. -/
def empty : SetTable := ⟨[]⟩

/-- The set of a symbol; empty when the symbol is not held. -/
def get (t : SetTable) (k : String) : List String :=
  ((t.entries.find? fun e => e.1 == k).map Prod.snd).getD []

/-- Whether the table holds a symbol. -/
def holds (t : SetTable) (k : String) : Bool := t.entries.any fun e => e.1 == k

/-- The table with the symbol held, its set unchanged. -/
def touch (t : SetTable) (k : String) : SetTable :=
  if t.holds k then t else ⟨t.entries ++ [(k, [])]⟩

/-- The table with symbols added to a key's set, the key held. -/
def addAll (t : SetTable) (k : String) (xs : List String) : SetTable :=
  let t := t.touch k
  ⟨t.entries.map fun e => if e.1 == k then (e.1, addSymbols e.2 xs) else e⟩

/-- The table with one symbol added to a key's set. -/
def add (t : SetTable) (k x : String) : SetTable := t.addAll k [x]

/-- The size of a key's set. -/
def size (t : SetTable) (k : String) : Nat := (t.get k).length

/-- The entries sorted by key, each set sorted. -/
def sorted (t : SetTable) : List (String × List String) :=
  (sortSymbols (t.entries.map Prod.fst)).map fun k => (k, sortSymbols (t.get k))

end SetTable
end Frontend
