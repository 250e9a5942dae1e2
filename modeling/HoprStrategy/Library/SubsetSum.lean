import Mathlib.Tactic

/-!
# Subsets with a given sum

A subset of a list of numbers is a strictly increasing list of positions.  The
positions count from an arbitrary first index, so that the subsets of a list
are those of its tail, with or without the head.
-/

namespace HoprStrategy.Library

/-- Positions of `values`, counted from `index`, whose values sum up to
`target`. -/
structure PicksExactly (index : ℕ) (values : List ℕ) (target : ℕ)
    (indices : List ℕ) : Prop where
  increasing : indices.Pairwise (· < ·)
  inRange : ∀ position ∈ indices,
    index ≤ position ∧ position < index + values.length
  exact : (indices.map fun position =>
    values.getD (position - index) 0).sum = target

namespace PicksExactly

variable {index value target : ℕ} {values indices : List ℕ}

theorem zero (index : ℕ) (values : List ℕ) :
    PicksExactly index values 0 [] :=
  ⟨List.Pairwise.nil, by simp, rfl⟩

theorem target_eq_zero (hpicks : PicksExactly index [] target indices) :
    target = 0 := by
  cases indices with
  | nil => exact hpicks.exact.symm
  | cons position rest =>
      have hrange := hpicks.inRange position (by simp)
      simp at hrange
      omega

/-- Past the head, a position reads the same value of the tail. -/
theorem map_getD_cons (hbeyond : ∀ position ∈ indices, index < position) :
    (indices.map fun position =>
        (value :: values).getD (position - index) 0) =
      indices.map fun position => values.getD (position - (index + 1)) 0 := by
  apply List.map_congr_left
  intro position hposition
  have hpast := hbeyond position hposition
  have hstep : position - index = (position - (index + 1)) + 1 := by omega
  rw [hstep, List.getD_cons_succ]

theorem skip (value : ℕ)
    (hpicks : PicksExactly (index + 1) values target indices) :
    PicksExactly index (value :: values) target indices where
  increasing := hpicks.increasing
  inRange := by
    intro position hposition
    have hrange := hpicks.inRange position hposition
    simp only [List.length_cons]
    omega
  exact := by
    rw [map_getD_cons fun position hposition =>
      (hpicks.inRange position hposition).1]
    exact hpicks.exact

theorem take (value : ℕ)
    (hpicks : PicksExactly (index + 1) values target indices) :
    PicksExactly index (value :: values) (value + target)
      (index :: indices) where
  increasing := by
    rw [List.pairwise_cons]
    exact ⟨fun position hposition => (hpicks.inRange position hposition).1,
      hpicks.increasing⟩
  inRange := by
    intro position hposition
    rw [List.mem_cons] at hposition
    simp only [List.length_cons]
    cases hposition with
    | inl heq => omega
    | inr hrest =>
        have hrange := hpicks.inRange position hrest
        omega
  exact := by
    rw [List.map_cons, List.sum_cons, (skip value hpicks).exact]
    simp

/-- Either the head is picked, and the rest picks what it leaves, or the rest
picks everything. -/
theorem of_cons (hpicks : PicksExactly index (value :: values) target indices) :
    (∃ rest, indices = index :: rest ∧ value ≤ target ∧
        PicksExactly (index + 1) values (target - value) rest) ∨
      PicksExactly (index + 1) values target indices := by
  have hbeyond : ∀ {positions : List ℕ}, positions.Sublist indices →
      (∀ position ∈ positions, index < position) →
      PicksExactly (index + 1) values
        (positions.map fun position =>
          (value :: values).getD (position - index) 0).sum positions := by
    intro positions hsublist hpast
    refine ⟨hpicks.increasing.sublist hsublist, ?_, ?_⟩
    · intro position hposition
      have hrange := hpicks.inRange position (hsublist.subset hposition)
      have hlater := hpast position hposition
      simp only [List.length_cons] at hrange
      omega
    · rw [map_getD_cons hpast]
  cases indices with
  | nil =>
      right
      have hrest := hbeyond (List.Sublist.refl []) (by simp)
      rwa [hpicks.exact] at hrest
  | cons first rest =>
      have hrange := hpicks.inRange first (by simp)
      have hincreasing := List.pairwise_cons.mp hpicks.increasing
      by_cases hfirst : first = index
      · subst hfirst
        left
        have hexact := hpicks.exact
        rw [List.map_cons, List.sum_cons, Nat.sub_self,
          List.getD_cons_zero] at hexact
        have hrest := hbeyond (List.sublist_cons_self first rest)
          hincreasing.1
        have htarget : (rest.map fun position =>
            (value :: values).getD (position - first) 0).sum =
              target - value := by omega
        rw [htarget] at hrest
        exact ⟨rest, rfl, by omega, hrest⟩
      · right
        have hpast : ∀ position ∈ first :: rest, index < position := by
          intro position hposition
          rw [List.mem_cons] at hposition
          cases hposition with
          | inl heq => omega
          | inr hlater =>
              have hafter := hincreasing.1 position hlater
              omega
        have hrest := hbeyond (List.Sublist.refl _) hpast
        rwa [hpicks.exact] at hrest

/-- A subset is worth no more than the list. -/
theorem le_sum (hpicks : PicksExactly index values target indices) :
    target ≤ values.sum := by
  induction values generalizing index target indices with
  | nil => exact Nat.le_of_eq hpicks.target_eq_zero
  | cons value rest ih =>
      rw [List.sum_cons]
      rcases hpicks.of_cons with ⟨later, -, hvalue, hlater⟩ | hlater
      · have hle := ih hlater
        omega
      · have hle := ih hlater
        omega

/-- The items at the positions of a subset. -/
theorem sublist_and_sum {Item : Type} {worth : Item → ℕ} {items : List Item}
    (hpicks : PicksExactly index (items.map worth) target indices) :
    (indices.filterMap fun position => items[position - index]?).Sublist
        items ∧
      ((indices.filterMap fun position =>
        items[position - index]?).map worth).sum = target := by
  induction items generalizing index target indices with
  | nil =>
      have htarget := hpicks.target_eq_zero
      have hnone : indices.filterMap
          (fun position => ([] : List Item)[position - index]?) = [] := by
        simp
      rw [hnone, htarget]
      exact ⟨List.Sublist.refl [], rfl⟩
  | cons item rest ih =>
      have htail : ∀ {positions : List ℕ},
          (∀ position ∈ positions, index + 1 ≤ position) →
          positions.filterMap
              (fun position => (item :: rest)[position - index]?) =
            positions.filterMap
              (fun position => rest[position - (index + 1)]?) := by
        intro positions hpast
        apply List.filterMap_congr
        intro position hposition
        have hlater := hpast position hposition
        have hstep : position - index = (position - (index + 1)) + 1 := by
          omega
        rw [hstep, List.getElem?_cons_succ]
      rw [List.map_cons] at hpicks
      rcases hpicks.of_cons with ⟨later, rfl, hvalue, hlater⟩ | hlater
      · obtain ⟨hsublist, hsum⟩ := ih hlater
        rw [List.filterMap_cons_some (b := item) (by simp),
          htail fun position hposition => (hlater.inRange position hposition).1]
        refine ⟨hsublist.cons_cons item, ?_⟩
        rw [List.map_cons, List.sum_cons, hsum]
        omega
      · obtain ⟨hsublist, hsum⟩ := ih hlater
        rw [htail fun position hposition =>
          (hlater.inRange position hposition).1]
        exact ⟨hsublist.cons item, hsum⟩

/-- Every sublist is read off at the positions of a subset. -/
theorem exists_of_sublist {Item : Type} (worth : Item → ℕ)
    {items chosen : List Item} (hsublist : chosen.Sublist items) (index : ℕ) :
    ∃ indices, PicksExactly index (items.map worth) (chosen.map worth).sum
      indices := by
  induction hsublist generalizing index with
  | slnil => exact ⟨[], zero index []⟩
  | cons item hrest ih =>
      obtain ⟨indices, hpicks⟩ := ih (index + 1)
      exact ⟨indices, hpicks.skip _⟩
  | cons_cons item hrest ih =>
      obtain ⟨indices, hpicks⟩ := ih (index + 1)
      exact ⟨index :: indices, hpicks.take _⟩

end PicksExactly

end HoprStrategy.Library
