import Mathlib.Algebra.BigOperators.Group.List.Basic
import Mathlib.Tactic

/-!
# Running tasks, and what they hold together

Concurrent tasks are a list: a new one is appended, and a step replaces the
task at its position.  `held` adds up a quantity over all of them, so a step
changes the total by exactly what it changes in the one task.
-/

namespace HoprStrategy.Library

variable {Task : Type}

/-- The total of `amount` over all tasks. -/
def held (amount : Task → ℕ) (tasks : List Task) : ℕ :=
  (tasks.map amount).sum

variable {amount : Task → ℕ} {tasks : List Task} {index : ℕ}
  {before after : Task}

@[simp] theorem held_nil : held amount [] = 0 := rfl

@[simp] theorem held_append (tasks more : List Task) :
    held amount (tasks ++ more) = held amount tasks + held amount more := by
  simp [held]

@[simp] theorem held_singleton (task : Task) :
    held amount [task] = amount task := by
  simp [held]

theorem held_set (amount : Task → ℕ) (after : Task)
    (hbefore : tasks[index]? = some before) :
    held amount (tasks.set index after) + amount before =
      held amount tasks + amount after := by
  induction tasks generalizing index with
  | nil => simp at hbefore
  | cons head rest ih =>
      cases index with
      | zero =>
          simp only [List.getElem?_cons_zero, Option.some.injEq] at hbefore
          subst hbefore
          simp only [held, List.set_cons_zero, List.map_cons, List.sum_cons]
          omega
      | succ index =>
          have := ih (by simpa using hbefore)
          simp only [held, List.set_cons_succ, List.map_cons,
            List.sum_cons] at this ⊢
          omega

theorem le_held (amount : Task → ℕ) (htask : before ∈ tasks) :
    amount before ≤ held amount tasks :=
  List.le_sum_of_mem (List.mem_map_of_mem htask)

theorem held_mono {amount' : Task → ℕ}
    (hle : ∀ task, amount task ≤ amount' task) (tasks : List Task) :
    held amount tasks ≤ held amount' tasks :=
  List.sum_le_sum fun task _ => hle task

theorem count_flatMap_eq_held {Item : Type} [DecidableEq Item]
    (items : Task → List Item) (item : Item) (tasks : List Task) :
    (tasks.flatMap items).count item =
      held (fun task => (items task).count item) tasks :=
  List.count_flatMap

/-- A task is either the one which took the step or was there before. -/
theorem mem_set_of_mem {task : Task} (after : Task)
    (hbefore : tasks[index]? = some before) (htask : task ∈ tasks) :
    task = before ∨ task ∈ tasks.set index after := by
  obtain ⟨position, hposition⟩ := List.mem_iff_getElem?.mp htask
  by_cases heq : index = position
  · subst heq
    left
    rw [hbefore, Option.some.injEq] at hposition
    exact hposition.symm
  · right
    refine List.mem_iff_getElem?.mpr ⟨position, ?_⟩
    rw [List.getElem?_set_ne heq]
    exact hposition

theorem mem_set_self (hbefore : tasks[index]? = some before) :
    after ∈ tasks.set index after := by
  obtain ⟨hlt, _⟩ := List.getElem?_eq_some_iff.mp hbefore
  exact List.mem_set hlt after

end HoprStrategy.Library
