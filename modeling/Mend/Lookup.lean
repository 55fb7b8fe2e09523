/-!
# Entries by key

What is kept under keys is a list of pairs of which the first one with a key counts. These are the
facts on `List.lookup` that the lists of places, files and cached contents share: entries of other
keys do not matter.
-/

namespace Mend

variable {α β : Type} [BEq α] [LawfulBEq α] {key other : α}

/-- A key that is none of the keys of entries has no value there. -/
theorem lookup_eq_none {entries : List (α × β)} (h : key ∉ entries.map Prod.fst) :
    entries.lookup key = none := by
  rw [List.lookup_eq_none_iff]
  intro e he
  rw [bne_iff_ne]
  rintro rfl
  exact h (List.mem_map_of_mem he)

/-- An entry of another key is passed over. -/
theorem lookup_cons_ne (h : other ≠ key) (b : β) (entries : List (α × β)) :
    ((key, b) :: entries).lookup other = entries.lookup other := by
  have hb : (other == key) = false := by simpa using h
  rw [List.lookup_cons, hb]

/-- Looking up a key is not changed by dropping the entries of another. -/
theorem lookup_filter_ne [DecidableEq α] (h : other ≠ key) (entries : List (α × β)) :
    (entries.filter fun e => e.1 ≠ key).lookup other = entries.lookup other := by
  induction entries with
  | nil => rfl
  | cons e rest ih =>
    obtain ⟨k, b⟩ := e
    by_cases hk : k = key
    · subst hk
      rw [List.filter_cons_of_neg (by simp), ih, lookup_cons_ne h]
    · rw [List.filter_cons_of_pos (by simpa using hk), List.lookup_cons, List.lookup_cons, ih]

end Mend
