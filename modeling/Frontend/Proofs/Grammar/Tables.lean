import Frontend.Proofs.Grammar.Classification

/-! The tables the SLR(1) construction keeps: symbol lists grown by `addSymbols`, the symbol-set
tables of FIRST and FOLLOW, and the rows of the parsing table.

Each is read through one function (membership, `SetTable.get`, `List.lookup`), and each operation
gets an equation through it: adding symbols keeps the list and appends the new ones
(`mem_addSymbols`, `length_addSymbols_eq_iff`), touching a key changes no set (`get_touch`), adding
to a key's set changes only that set (`get_addAll`), and setting a cell changes only that cell
(`lookup_setEntry`). Later proofs go through these equations, not through the operations. -/
namespace Frontend

/-! ### Growing a symbol list -/

section AddSymbols

variable {xs ys : List String} {x : String}

theorem addSymbols_nil (xs : List String) : addSymbols xs [] = xs := rfl

theorem addSymbols_cons (xs : List String) (y : String) (ys : List String) :
    addSymbols xs (y :: ys) = addSymbols (if xs.contains y then xs else xs ++ [y]) ys := rfl

theorem mem_addSymbols : x ∈ addSymbols xs ys ↔ x ∈ xs ∨ x ∈ ys := by
  induction ys generalizing xs with
  | nil => simp [addSymbols_nil]
  | cons y ys ih =>
    rw [addSymbols_cons, ih, List.mem_cons]
    by_cases hy : y ∈ xs
    · rw [if_pos (List.contains_iff_mem.mpr hy)]
      constructor
      · rintro (h | h)
        · exact Or.inl h
        · exact Or.inr (Or.inr h)
      · rintro (h | rfl | h)
        · exact Or.inl h
        · exact Or.inl hy
        · exact Or.inr h
    · rw [if_neg (fun h => hy (List.contains_iff_mem.mp h)), List.mem_append,
        List.mem_singleton, or_assoc]

/-- The symbols already there stay, in place; new ones go after them. -/
theorem prefix_addSymbols : xs <+: addSymbols xs ys := by
  induction ys generalizing xs with
  | nil => exact List.prefix_refl xs
  | cons y ys ih =>
    rw [addSymbols_cons]
    split
    · exact ih
    · exact (List.prefix_append xs [y]).trans ih

theorem nodup_addSymbols (h : xs.Nodup) : (addSymbols xs ys).Nodup := by
  induction ys generalizing xs with
  | nil => exact h
  | cons y ys ih =>
    rw [addSymbols_cons]
    split
    · exact ih h
    · rename_i hy
      refine ih (List.nodup_append.mpr ⟨h, List.nodup_singleton y, ?_⟩)
      rintro a ha b hb rfl
      simp only [List.mem_singleton] at hb
      exact hy (List.contains_iff_mem.mpr (hb ▸ ha))

/-- Adding symbols leaves the length as it is exactly when every symbol was there already. -/
theorem length_addSymbols_eq_iff : (addSymbols xs ys).length = xs.length ↔ ∀ y ∈ ys, y ∈ xs := by
  induction ys generalizing xs with
  | nil => simp [addSymbols_nil]
  | cons y ys ih =>
    rw [addSymbols_cons]
    split
    · rename_i hy
      rw [ih]
      simp [List.contains_iff_mem.mp hy]
    · rename_i hy
      have hpre : xs ++ [y] <+: addSymbols (xs ++ [y]) ys := prefix_addSymbols
      have hle := hpre.length_le
      simp only [List.length_append, List.length_singleton] at hle
      constructor
      · intro h
        omega
      · intro h
        exact absurd (List.contains_iff_mem.mpr (h y (List.mem_cons_self ..))) hy

end AddSymbols

/-! ### Symbol-set tables -/

namespace SetTable

variable (t : SetTable) (k k' : String)

/-- Touching a key changes no set. -/
@[simp] theorem get_touch : (t.touch k).get k' = t.get k' := by
  unfold touch
  split
  · rfl
  · rename_i hk
    simp only [get, List.find?_append]
    cases hf : t.entries.find? (fun e => e.1 == k') with
    | some e => rfl
    | none =>
      by_cases hkk : k = k'
      · subst hkk
        simp
      · simp [hkk]

/-- Adding symbols to a key's set adds them to that set and changes no other. -/
theorem get_addAll (xs : List String) :
    (t.addAll k xs).get k' = if k' = k then addSymbols (t.get k) xs else t.get k' := by
  let F : String × List String → String × List String :=
    fun e => if e.1 == k then (e.1, addSymbols e.2 xs) else e
  have hkey : ((fun e : String × List String => e.1 == k') ∘ F) = fun e => e.1 == k' := by
    funext e
    simp only [Function.comp, F]
    split <;> rfl
  have hget : (t.addAll k xs).get k' =
      (((t.touch k).entries.find? fun e => e.1 == k').map fun e => (F e).2).getD [] := by
    simp only [addAll, get]
    rw [List.find?_map, hkey, Option.map_map]
    rfl
  rw [hget]
  cases hf : (t.touch k).entries.find? (fun e => e.1 == k') with
  | none =>
    -- the key just touched is held, so only another key can be missing
    have hkk : k' ≠ k := by
      rintro rfl
      unfold touch at hf
      split at hf
      · rename_i h
        obtain ⟨e, he, hek⟩ := List.any_eq_true.mp h
        exact absurd hf (List.find?_isSome.mpr ⟨e, he, hek⟩ |> Option.isSome_iff_ne_none.mp)
      · simp [List.find?_append] at hf
    rw [← get_touch t k k']
    simp [get, hf, hkk]
  | some e =>
    have hek : e.1 = k' := by simpa using List.find?_some hf
    have hv : e.2 = t.get k' := by
      rw [← get_touch t k k']
      simp [get, hf]
    by_cases hkk : k' = k
    · subst hkk
      simp [F, hek, hv]
    · simp [F, hek, hkk, hv]

theorem get_add (x : String) :
    (t.add k x).get k' = if k' = k then addSymbols (t.get k) [x] else t.get k' :=
  get_addAll t k k' [x]

end SetTable

/-! ### Rows of the parsing table -/

section Rows

variable {α : Type} {row : List (String × α)} {k t : String} {v : α}

theorem lookup_cons_of_ne {a : String} {b : α} (h : t ≠ a) :
    ((a, b) :: row).lookup t = row.lookup t := by
  simp [List.lookup_cons, beq_false_of_ne h]

/-- Overwriting every cell of a key: that key now looks up the new value if it was there. -/
theorem lookup_map_set :
    (row.map fun e => if e.1 == k then (k, v) else e).lookup t =
      if t = k then (if row.any (·.1 == k) then some v else none) else row.lookup t := by
  induction row with
  | nil => simp
  | cons e row ih =>
    obtain ⟨a, b⟩ := e
    rw [List.map_cons, List.any_cons]
    by_cases ha : a = k
    · subst ha
      rw [if_pos (beq_self_eq_true a)]
      by_cases hta : t = a
      · subst hta
        simp
      · rw [lookup_cons_of_ne hta, ih, if_neg hta, if_neg hta, lookup_cons_of_ne hta]
    · rw [beq_false_of_ne ha, if_neg Bool.false_ne_true, Bool.false_or]
      by_cases hta : t = a
      · subst hta
        rw [if_neg ha]
        simp
      · rw [lookup_cons_of_ne hta, ih, lookup_cons_of_ne hta]

/-- Setting a cell changes that cell and no other. -/
theorem lookup_setEntry : (setEntry row k v).lookup t = if t = k then some v else row.lookup t := by
  unfold setEntry
  split
  · rename_i hk
    rw [lookup_map_set, if_pos hk]
  · rename_i hk
    rw [List.lookup_append]
    by_cases htk : t = k
    · subst htk
      have hnone : row.lookup t = none := by
        rw [List.lookup_eq_none_iff]
        intro p hp
        rw [bne_iff_ne]
        intro h
        exact hk (List.any_eq_true.mpr ⟨p, hp, by rw [← h]; exact beq_self_eq_true t⟩)
      simp [hnone]
    · have hnone : List.lookup t [(k, v)] = none := by
        simp [List.lookup_cons, beq_false_of_ne htk]
      rw [if_neg htk, hnone, Option.or_none]

/-- Setting a cell keeps each key in one cell. -/
theorem nodup_keys_setEntry (h : (row.map Prod.fst).Nodup) :
    ((setEntry row k v).map Prod.fst).Nodup := by
  unfold setEntry
  split
  · have hkeys : ((row.map fun e => if e.1 == k then (k, v) else e).map Prod.fst) =
        row.map Prod.fst := by
      rw [List.map_map]
      refine List.map_congr_left fun e _ => ?_
      by_cases he : e.1 = k <;> simp [he]
    rwa [hkeys]
  · rename_i hk
    rw [List.map_append, List.nodup_append]
    refine ⟨h, List.nodup_singleton k, ?_⟩
    rintro a ha b hb rfl
    obtain ⟨e, he, rfl⟩ := List.mem_map.mp ha
    simp only [List.map_cons, List.map_nil, List.mem_singleton] at hb
    exact hk (List.any_eq_true.mpr ⟨e, he, by simp [hb]⟩)

/-- In a row with each key once, a cell holds exactly what its key looks up. -/
theorem mem_iff_lookup (h : (row.map Prod.fst).Nodup) : (t, v) ∈ row ↔ row.lookup t = some v := by
  induction row with
  | nil => simp
  | cons e row ih =>
    obtain ⟨a, b⟩ := e
    simp only [List.map_cons, List.nodup_cons, List.mem_map] at h
    by_cases hta : t = a
    · subst hta
      have hnot : (t, v) ∉ row := fun hm => h.1 ⟨(t, v), hm, rfl⟩
      simp [hnot, eq_comm]
    · rw [lookup_cons_of_ne hta, ← ih h.2, List.mem_cons]
      simp [hta]

end Rows

namespace SlrTable

/-- In a row with each key once, the row shifts on a terminal when that terminal's cell is a
shift. -/
theorem shifts_iff_lookup {row : List (String × SlrAction)} {t : String}
    (h : (row.map Prod.fst).Nodup) :
    shifts row t = true ↔ ∃ j, row.lookup t = some (.shift j) := by
  rw [shifts_iff]
  exact exists_congr fun j => mem_iff_lookup h

end SlrTable
end Frontend
