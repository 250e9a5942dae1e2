import Mathlib.Data.List.Basic

/-!
# Computations which may fail

The inversion rule for a sequence of fallible steps: what succeeded as a whole
succeeded step by step.
-/

namespace HoprStrategy.Library

variable {Error α β : Type}

theorem bind_eq_ok {first : Except Error α} {rest : α → Except Error β}
    {result : β} :
    (do let value ← first; rest value) = .ok result ↔
      ∃ value, first = .ok value ∧ rest value = .ok result := by
  cases first with
  | error error =>
      refine ⟨fun h => (by cases h), ?_⟩
      rintro ⟨value, hvalue, _⟩
      cases hvalue
  | ok value =>
      refine ⟨fun h => ⟨value, rfl, h⟩, ?_⟩
      rintro ⟨_, hvalue, hrest⟩
      cases hvalue
      exact hrest

/-- A traversal which succeeds collects the results of the items. -/
theorem mem_of_mapM_eq_ok {step : α → Except Error β} {items : List α}
    {results : List β} (hmap : items.mapM step = .ok results) (result : β) :
    result ∈ results ↔ ∃ item ∈ items, step item = .ok result := by
  induction items generalizing results with
  | nil =>
      cases hmap
      simp
  | cons item rest ih =>
      rw [List.mapM_cons] at hmap
      obtain ⟨first, hfirst, hmap⟩ := bind_eq_ok.mp hmap
      obtain ⟨others, hothers, hmap⟩ := bind_eq_ok.mp hmap
      cases hmap
      rw [List.mem_cons, ih hothers]
      constructor
      · intro hmem
        rcases hmem with rfl | ⟨other, hin, hother⟩
        · exact ⟨item, List.mem_cons_self, hfirst⟩
        · exact ⟨other, List.mem_cons_of_mem item hin, hother⟩
      · intro hmem
        obtain ⟨other, hin, hother⟩ := hmem
        rcases List.mem_cons.mp hin with rfl | hin
        · rw [hfirst, Except.ok.injEq] at hother
          exact Or.inl hother.symm
        · exact Or.inr ⟨other, hin, hother⟩

theorem exists_of_mapM_eq_ok {step : α → Except Error β} {items : List α}
    {results : List β} (hmap : items.mapM step = .ok results) {item : α}
    (hmem : item ∈ items) : ∃ result ∈ results, step item = .ok result := by
  induction items generalizing results with
  | nil => cases hmem
  | cons first rest ih =>
      rw [List.mapM_cons] at hmap
      obtain ⟨value, hvalue, hmap⟩ := bind_eq_ok.mp hmap
      obtain ⟨others, hothers, hmap⟩ := bind_eq_ok.mp hmap
      cases hmap
      rcases List.mem_cons.mp hmem with rfl | hin
      · exact ⟨value, List.mem_cons_self, hvalue⟩
      · obtain ⟨result, hresult, hstep⟩ := ih hothers hin
        exact ⟨result, List.mem_cons_of_mem value hresult, hstep⟩

/-- What every step keeps of its item, a traversal keeps of the items. -/
theorem map_eq_map_of_mapM_eq_ok {Key : Type} {step : α → Except Error β}
    {keyOf : β → Key} {keyFrom : α → Key}
    (hstep : ∀ item result, step item = .ok result →
      keyOf result = keyFrom item)
    {items : List α} {results : List β}
    (hmap : items.mapM step = .ok results) :
    results.map keyOf = items.map keyFrom := by
  induction items generalizing results with
  | nil =>
      cases hmap
      rfl
  | cons item rest ih =>
      rw [List.mapM_cons] at hmap
      obtain ⟨first, hfirst, hmap⟩ := bind_eq_ok.mp hmap
      obtain ⟨others, hothers, hmap⟩ := bind_eq_ok.mp hmap
      cases hmap
      rw [List.map_cons, List.map_cons, hstep item first hfirst, ih hothers]

/-- A traversal whose steps compute a function maps that function. -/
theorem eq_map_of_mapM_eq_ok {step : α → Except Error β} {function : α → β}
    (hstep : ∀ item result, step item = .ok result → result = function item)
    {items : List α} {results : List β}
    (hmap : items.mapM step = .ok results) : results = items.map function := by
  rw [← map_eq_map_of_mapM_eq_ok hstep hmap, List.map_id']

/-- The error of a traversal is the error of one of its steps. -/
theorem exists_of_mapM_eq_error {step : α → Except Error β} {items : List α}
    {error : Error} (hmap : items.mapM step = .error error) :
    ∃ item ∈ items, step item = .error error := by
  induction items with
  | nil => cases hmap
  | cons item rest ih =>
      rw [List.mapM_cons] at hmap
      cases hfirst : step item with
      | error firstError =>
          rw [hfirst] at hmap
          cases hmap
          exact ⟨item, List.mem_cons_self, hfirst⟩
      | ok first =>
          rw [hfirst] at hmap
          cases hothers : rest.mapM step with
          | error laterError =>
              rw [hothers] at hmap
              cases hmap
              obtain ⟨later, hlater, herror⟩ := ih hothers
              exact ⟨later, List.mem_cons_of_mem item hlater, herror⟩
          | ok others =>
              rw [hothers] at hmap
              cases hmap

end HoprStrategy.Library
