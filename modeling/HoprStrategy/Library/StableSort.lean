import Mathlib.Data.List.Sort

/-!
# Stable sorting and removal

Insertion sort keeps the order of what its relation does not tell apart.  The
first elements of the sorted list may therefore be taken out of the list
before it is sorted as well as afterwards.
-/

namespace HoprStrategy.Library

variable {α : Type} {r : α → α → Prop} [DecidableRel r]

section

variable [DecidableEq α] [Std.Refl r]

/-- The first element of the sorted list is taken out before sorting. -/
theorem insertionSort_erase_of_cons {list : List α} {first : α}
    {rest : List α} (hsorted : list.insertionSort r = first :: rest) :
    (list.erase first).insertionSort r = rest := by
  induction list generalizing first rest with
  | nil => cases hsorted
  | cons head tail ih =>
      rw [List.insertionSort_cons] at hsorted
      cases htail : tail.insertionSort r with
      | nil =>
          rw [htail, List.orderedInsert_nil, List.cons.injEq] at hsorted
          obtain ⟨hhead, hrest⟩ := hsorted
          rw [← hhead, ← hrest, List.erase_cons_head, htail]
      | cons next later =>
          rw [htail, List.orderedInsert_cons] at hsorted
          split at hsorted
          · rw [List.cons.injEq] at hsorted
            obtain ⟨hhead, hrest⟩ := hsorted
            rw [← hhead, ← hrest, List.erase_cons_head, htail]
          · rename_i hbefore
            rw [List.cons.injEq] at hsorted
            obtain ⟨hnext, hrest⟩ := hsorted
            subst hnext
            have hne : head ≠ next := by
              intro heq
              subst heq
              exact hbefore (Std.Refl.refl head)
            rw [List.erase_cons_tail (by simpa using hne),
              List.insertionSort_cons, ih htail]
            exact hrest

/-- The first elements of the sorted list are taken out before sorting. -/
theorem insertionSort_diff_take (list : List α) (count : ℕ) :
    (list.diff ((list.insertionSort r).take count)).insertionSort r =
      (list.insertionSort r).drop count := by
  induction count generalizing list with
  | zero => rfl
  | succ count ih =>
      cases hsorted : list.insertionSort r with
      | nil => simpa using hsorted
      | cons first rest =>
          have herase := insertionSort_erase_of_cons hsorted
          rw [List.take_succ_cons, List.diff_cons, List.drop_succ_cons,
            ← herase]
          exact ih (list.erase first)

end

theorem insertionSort_diff_take_perm [DecidableEq α] (list : List α)
    (count : ℕ) :
    ((list.insertionSort r).take count ++
      list.diff ((list.insertionSort r).take count)).Perm list := by
  have hsubperm : ((list.insertionSort r).take count).Subperm list :=
    (List.take_sublist count _).subperm.trans
      (List.perm_insertionSort r list).subperm
  exact List.subperm_append_diff_self_of_count_le
    (List.subperm_ext_iff.mp hsubperm)

end HoprStrategy.Library
