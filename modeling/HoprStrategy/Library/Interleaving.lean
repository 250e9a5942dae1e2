import HoprStrategy.Library.TransitionSystem
import Mathlib.Tactic

/-!
# Systems side by side

Any number of copies of a system, each with a state of its own, take steps in
any order.  The runs of all of them together are exactly the interleavings of
runs of each of them alone.
-/

namespace HoprStrategy.Library

variable {State Action : Type}

namespace TransitionSystem

/-- Copies of a system which know nothing of each other.  A step names the
copy which takes it. -/
def interleaved (system : TransitionSystem State Action) :
    TransitionSystem (List State) (ℕ × Action) where
  init states := ∀ state ∈ states, system.init state
  next states step := do
    let state ← states[step.1]?
    let after ← system.next state step.2
    some (states.set step.1 after)

theorem run_append {system : TransitionSystem State Action}
    {state after : State} {first rest : List Action} :
    system.run state (first ++ rest) = some after ↔
      ∃ middle, system.run state first = some middle ∧
        system.run middle rest = some after := by
  induction first generalizing state with
  | nil => simp [run]
  | cons action first ih =>
      simp only [List.cons_append, run_cons, ih]
      constructor
      · rintro ⟨next, hnext, middle, hfirst, hrest⟩
        exact ⟨middle, ⟨next, hnext, hfirst⟩, hrest⟩
      · rintro ⟨middle, ⟨next, hnext, hfirst⟩, hrest⟩
        exact ⟨next, hnext, middle, hfirst, hrest⟩

end TransitionSystem

/-- The steps which one copy takes. -/
def stepsOf (index : ℕ) (steps : List (ℕ × Action)) : List Action :=
  steps.filterMap fun step => if step.1 = index then some step.2 else none

variable {system : TransitionSystem State Action} {index : ℕ} {action : Action}
  {steps : List (ℕ × Action)} {states after : List State}

@[simp] theorem stepsOf_nil :
    stepsOf index ([] : List (ℕ × Action)) = [] := rfl

@[simp] theorem stepsOf_cons_self :
    stepsOf index ((index, action) :: steps) =
      action :: stepsOf index steps := by
  simp [stepsOf]

theorem stepsOf_cons_of_ne {other : ℕ} (hne : other ≠ index) :
    stepsOf index ((other, action) :: steps) = stepsOf index steps := by
  simp [stepsOf, hne]

theorem next_interleaved_iff :
    system.interleaved.next states (index, action) = some after ↔
      ∃ state acted, states[index]? = some state ∧
        system.next state action = some acted ∧
          after = states.set index acted := by
  simp only [TransitionSystem.interleaved, Option.bind_eq_bind,
    Option.bind_eq_some_iff, Option.some.injEq]
  constructor
  · rintro ⟨state, hat, acted, hnext, rfl⟩
    exact ⟨state, acted, hat, hnext, rfl⟩
  · rintro ⟨state, acted, hat, hnext, rfl⟩
    exact ⟨state, hat, acted, hnext, rfl⟩

/-- Together the copies run exactly as each of them runs alone. -/
theorem run_interleaved_iff :
    system.interleaved.run states steps = some after ↔
      after.length = states.length ∧
        (∀ step ∈ steps, step.1 < states.length) ∧
          ∀ index state later, states[index]? = some state →
            after[index]? = some later →
              system.run state (stepsOf index steps) = some later := by
  induction steps generalizing states with
  | nil =>
      simp only [TransitionSystem.run, Option.some.injEq, stepsOf_nil]
      constructor
      · rintro rfl
        refine ⟨rfl, by simp, ?_⟩
        intro index state later hstate hlater
        exact Option.some.inj (hstate.symm.trans hlater)
      · rintro ⟨hlength, _, hsame⟩
        refine List.ext_getElem hlength.symm ?_
        intro index hstate hlater
        exact hsame index _ _ (List.getElem?_eq_getElem hstate)
          (List.getElem?_eq_getElem hlater)
  | cons step rest ih =>
      obtain ⟨acting, action⟩ := step
      rw [TransitionSystem.run_cons]
      constructor
      · rintro ⟨middle, hnext, hrest⟩
        obtain ⟨state, acted, hat, hacted, rfl⟩ :=
          next_interleaved_iff.mp hnext
        have hlt := (List.getElem?_eq_some_iff.mp hat).1
        obtain ⟨hlength, hrange, hruns⟩ := ih.mp hrest
        rw [List.length_set] at hlength hrange
        refine ⟨hlength, ?_, ?_⟩
        · intro step hstep
          rcases List.mem_cons.mp hstep with rfl | hin
          · exact hlt
          · exact hrange step hin
        · intro index before later hbefore hlater
          by_cases heq : acting = index
          · subst heq
            obtain rfl : before = state :=
              Option.some.inj (hbefore.symm.trans hat)
            rw [stepsOf_cons_self, TransitionSystem.run_cons]
            exact ⟨acted, hacted,
              hruns acting acted later (by simp [hlt]) hlater⟩
          · rw [stepsOf_cons_of_ne heq]
            exact hruns index before later
              ((List.getElem?_set_ne heq).trans hbefore) hlater
      · rintro ⟨hlength, hrange, hruns⟩
        have hlt : acting < states.length :=
          hrange (acting, action) List.mem_cons_self
        have hat := List.getElem?_eq_getElem hlt
        have hlater := List.getElem?_eq_getElem (hlength ▸ hlt)
        have hrun := hruns acting _ _ hat hlater
        rw [stepsOf_cons_self, TransitionSystem.run_cons] at hrun
        obtain ⟨acted, hacted, hrest⟩ := hrun
        refine ⟨states.set acting acted,
          next_interleaved_iff.mpr ⟨_, acted, hat, hacted, rfl⟩, ?_⟩
        refine ih.mpr ⟨by rw [List.length_set, hlength], ?_, ?_⟩
        · intro step hstep
          rw [List.length_set]
          exact hrange step (List.mem_cons_of_mem _ hstep)
        · intro index before later hbefore hlater'
          by_cases heq : acting = index
          · subst heq
            have hacting : (states.set acting acted)[acting]? = some acted := by
              simp [hlt]
            obtain rfl : before = acted :=
              Option.some.inj (hbefore.symm.trans hacting)
            obtain rfl : after[acting] = later :=
              Option.some.inj (hlater.symm.trans hlater')
            exact hrest
          · rw [List.getElem?_set_ne heq] at hbefore
            have hrun := hruns index before later hbefore hlater'
            rwa [stepsOf_cons_of_ne heq] at hrun

end HoprStrategy.Library
