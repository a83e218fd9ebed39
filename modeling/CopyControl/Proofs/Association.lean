import Mathlib.Data.List.Basic

/-!
Association lists in which a value is put in the place of the one that was there, as for clipboards
and for files.
-/

namespace CopyControl

variable {α β : Type} [DecidableEq α] [BEq α] [LawfulBEq α] {l : List (α × β)} {a b : α}

/-- Without the pairs of one key, the others are found as before. -/
theorem lookup_filter_ne (hne : b ≠ a) : (l.filter (·.1 ≠ a)).lookup b = l.lookup b := by
  induction l with
  | nil => rfl
  | cons x l ih =>
    obtain ⟨k, v⟩ := x
    by_cases hk : k = a
    · have hbk : (b == k) = false := by simpa [hk] using hne
      rw [List.filter_cons_of_neg (by simpa using hk), ih, List.lookup_cons, hbk]
    · rw [List.filter_cons_of_pos (by simpa using hk), List.lookup_cons, List.lookup_cons, ih]

/-- Nothing is found under a key whose pairs have been taken away. -/
theorem lookup_filter_self : (l.filter (·.1 ≠ a)).lookup a = none :=
  List.lookup_eq_none_iff.mpr fun p hp => by
    have hne : p.1 ≠ a := by simpa using (List.mem_filter.mp hp).2
    exact bne_iff_ne.mpr hne.symm

/-- A value that is put under a key is found there, and the rest as before. -/
theorem lookup_put (v : β) :
    ((a, v) :: l.filter (·.1 ≠ a)).lookup b = if b = a then some v else l.lookup b := by
  rw [List.lookup_cons]
  split
  · rename_i hb
    rw [if_pos (eq_of_beq hb)]
  · rename_i hb
    have hne : b ≠ a := by simpa using hb
    rw [if_neg hne, lookup_filter_ne hne]

end CopyControl
