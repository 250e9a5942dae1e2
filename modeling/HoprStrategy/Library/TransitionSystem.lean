import Mathlib.Order.Basic
import Mathlib.Data.Nat.Init

/-!
# Transition systems with named actions

A system is a set of initial states and a partial transition function.  All
nondeterminism is carried by the action, so a run is a list of actions and can
be evaluated.  `ReachableWithin` restricts a run to the steps which satisfy a
condition on the state before the step; plain reachability is the case without
a condition.  The invariant rule is the only induction over runs that the
developments on top need.
-/

namespace HoprStrategy.Library

structure TransitionSystem (State Action : Type) where
  init : State → Prop
  next : State → Action → Option State

namespace TransitionSystem

variable {State Action : Type}

/-- States reached from an initial state by finitely many enabled actions,
each taken in a state which allows it. -/
inductive ReachableWithin (system : TransitionSystem State Action)
    (allowed : State → Action → Prop) : State → Prop
  | init {state : State} (hinit : system.init state) :
      ReachableWithin system allowed state
  | step {state after : State} {action : Action}
      (hreach : ReachableWithin system allowed state)
      (hallowed : allowed state action)
      (hnext : system.next state action = some after) :
      ReachableWithin system allowed after

/-- States reached by any finite run. -/
def Reachable (system : TransitionSystem State Action) : State → Prop :=
  system.ReachableWithin fun _ _ => True

/-- Evaluation of a list of actions, stopping at the first disabled one. -/
def run (system : TransitionSystem State Action) :
    State → List Action → Option State
  | state, [] => some state
  | state, action :: rest =>
      match system.next state action with
      | none => none
      | some after => system.run after rest

/-- Every step of a run keeps what `Keeps` says about it. -/
def Throughout (system : TransitionSystem State Action)
    (Keeps : State → Action → State → Prop) : State → List Action → Prop
  | _, [] => True
  | state, action :: rest =>
      ∀ after, system.next state action = some after →
        Keeps state action after ∧ system.Throughout Keeps after rest

variable {system : TransitionSystem State Action}
  {allowed : State → Action → Prop}

/-- A property which holds initially and is kept by every allowed step from a
reachable state holds in every state reached by allowed steps. -/
theorem ReachableWithin.invariant {Inv : State → Prop} {state : State}
    (hreach : system.ReachableWithin allowed state)
    (hinit : ∀ start, system.init start → Inv start)
    (hstep : ∀ before action after, Inv before → allowed before action →
      system.next before action = some after → Inv after) :
    Inv state := by
  induction hreach with
  | init hstart => exact hinit _ hstart
  | step _ hallowed hnext ih => exact hstep _ _ _ ih hallowed hnext

/-- What every step keeps, every run keeps, from any state. -/
theorem run_invariant {Inv : State → Prop}
    (hstep : ∀ before action after, Inv before →
      system.next before action = some after → Inv after)
    {state after : State} (actions : List Action) (hstate : Inv state)
    (hrun : system.run state actions = some after) : Inv after := by
  induction actions generalizing state with
  | nil =>
      simp only [TransitionSystem.run, Option.some.injEq] at hrun
      exact hrun ▸ hstate
  | cons action rest ih =>
      simp only [TransitionSystem.run] at hrun
      cases hnext : system.next state action with
      | none => simp [hnext] at hrun
      | some middle =>
          rw [hnext] at hrun
          exact ih (hstep _ _ _ hstate hnext) hrun

theorem run_cons {state after : State} {action : Action}
    {rest : List Action} :
    system.run state (action :: rest) = some after ↔
      ∃ middle, system.next state action = some middle ∧
        system.run middle rest = some after := by
  rw [TransitionSystem.run]
  cases system.next state action with
  | none => simp
  | some middle => simp

/-- A run splits at the last action of a kind. -/
theorem run_last (Kind : Action → Prop) {state after : State}
    {actions : List Action} (hrun : system.run state actions = some after) :
    (∀ action ∈ actions, ¬ Kind action) ∨
      ∃ before last rest start read, actions = before ++ last :: rest ∧
        Kind last ∧ (∀ action ∈ rest, ¬ Kind action) ∧
        system.run state before = some start ∧
        system.next start last = some read ∧
        system.run read rest = some after := by
  induction actions generalizing state with
  | nil =>
      apply Or.inl
      intro action hmem
      cases hmem
  | cons action rest ih =>
      obtain ⟨middle, hnext, hrest⟩ := run_cons.mp hrun
      rcases ih hrest with hnone | hlast
      · by_cases hkind : Kind action
        · exact Or.inr ⟨[], action, rest, state, middle, rfl, hkind, hnone,
            rfl, hnext, hrest⟩
        · apply Or.inl
          intro other hmem
          rcases List.mem_cons.mp hmem with rfl | hin
          · exact hkind
          · exact hnone other hin
      · obtain ⟨before, last, after', start, read, heq, hkind, hnone, hstart,
          hread, hafter⟩ := hlast
        refine Or.inr ⟨action :: before, last, after', start, read, ?_, hkind,
          hnone, run_cons.mpr ⟨middle, hnext, hstart⟩, hread, hafter⟩
        rw [heq, List.cons_append]

/-- Where every step keeps a property exactly as long as it keeps to a rule, a
run does so as well.  `Live` is lost for good. -/
theorem run_throughout {Inv Live Good : State → Prop}
    {Keeps : State → Action → State → Prop} {Usual : Action → Prop}
    (hstep : ∀ before action after, Inv before → Usual action →
      system.next before action = some after →
      Inv after ∧ (Live after → Live before ∧
        (Good after ↔ Good before ∧ Keeps before action after)))
    {state after : State} {actions : List Action} (hstate : Inv state)
    (husual : ∀ action ∈ actions, Usual action)
    (hrun : system.run state actions = some after) (hlive : Live after) :
    Live state ∧ (Good after ↔
      Good state ∧ system.Throughout Keeps state actions) := by
  induction actions generalizing state with
  | nil =>
      simp only [TransitionSystem.run, Option.some.injEq] at hrun
      subst hrun
      exact ⟨hlive, by simp [Throughout]⟩
  | cons action rest ih =>
      obtain ⟨middle, hnext, hrest⟩ := run_cons.mp hrun
      obtain ⟨hmiddle, hcloser⟩ :=
        hstep _ _ _ hstate (husual action List.mem_cons_self) hnext
      obtain ⟨hlive', hgood'⟩ := ih hmiddle
        (fun other hmem => husual other (List.mem_cons_of_mem action hmem))
        hrest
      obtain ⟨hlive, hgood⟩ := hcloser hlive'
      refine ⟨hlive, ?_⟩
      have hthroughout : system.Throughout Keeps state (action :: rest) ↔
          Keeps state action middle ∧ system.Throughout Keeps middle rest := by
        constructor
        · intro hall
          exact hall middle hnext
        · intro hboth after hafter
          rw [hnext, Option.some.injEq] at hafter
          rw [← hafter]
          exact hboth
      rw [hgood', hgood, hthroughout, and_assoc]

theorem throughout_of_forall {Keeps : State → Action → State → Prop}
    {state : State} {actions : List Action}
    (hkeeps : ∀ before, ∀ action ∈ actions, ∀ after,
      Keeps before action after) :
    system.Throughout Keeps state actions := by
  induction actions generalizing state with
  | nil => trivial
  | cons action rest ih =>
      intro after hnext
      refine ⟨hkeeps state action List.mem_cons_self after, ih ?_⟩
      intro before other hother
      exact hkeeps before other (List.mem_cons_of_mem action hother)

/-- Over a given run, a condition on its steps can be checked. -/
instance decidableThroughout {Keeps : State → Action → State → Prop}
    [∀ before action after, Decidable (Keeps before action after)] :
    ∀ (state : State) (actions : List Action),
      Decidable (system.Throughout Keeps state actions)
  | _, [] => isTrue trivial
  | state, action :: rest =>
      match hnext : system.next state action with
      | none => isTrue fun _ hafter => by rw [hnext] at hafter; cases hafter
      | some middle =>
          have : Decidable (system.Throughout Keeps middle rest) :=
            decidableThroughout middle rest
          decidable_of_iff
            (Keeps state action middle ∧ system.Throughout Keeps middle rest)
            ⟨fun hboth _ hafter =>
              Option.some.inj (hnext.symm.trans hafter) ▸ hboth,
            fun hall => hall middle hnext⟩

/-- What every allowed step keeps, a run of allowed steps keeps. -/
theorem Throughout.invariant {Inv : State → Prop}
    (hstep : ∀ before action after, Inv before → allowed before action →
      system.next before action = some after → Inv after)
    {state after : State} {actions : List Action}
    (hallowed : system.Throughout (fun before action _ =>
      allowed before action) state actions)
    (hstate : Inv state)
    (hrun : system.run state actions = some after) : Inv after := by
  induction actions generalizing state with
  | nil =>
      simp only [TransitionSystem.run, Option.some.injEq] at hrun
      exact hrun ▸ hstate
  | cons action rest ih =>
      obtain ⟨middle, hnext, hrest⟩ := run_cons.mp hrun
      obtain ⟨hfirst, hothers⟩ := hallowed middle hnext
      exact ih hothers (hstep _ _ _ hstate hfirst hnext) hrest

/-- A run whose steps are all allowed stays within them. -/
theorem ReachableWithin.throughout {state after : State}
    {actions : List Action} (hreach : system.ReachableWithin allowed state)
    (hallowed : system.Throughout (fun before action _ =>
      allowed before action) state actions)
    (hrun : system.run state actions = some after) :
    system.ReachableWithin allowed after := by
  induction actions generalizing state with
  | nil =>
      simp only [TransitionSystem.run, Option.some.injEq] at hrun
      exact hrun ▸ hreach
  | cons action rest ih =>
      obtain ⟨middle, hnext, hrest⟩ := run_cons.mp hrun
      obtain ⟨hfirst, hothers⟩ := hallowed middle hnext
      exact ih (hreach.step hfirst hnext) hothers hrest

theorem ReachableWithin.run {state after : State}
    (hreach : system.ReachableWithin allowed state) (actions : List Action)
    (hallowed : ∀ before, ∀ action ∈ actions, allowed before action)
    (hrun : system.run state actions = some after) :
    system.ReachableWithin allowed after :=
  hreach.throughout (throughout_of_forall fun before action hmem _ =>
    hallowed before action hmem) hrun

theorem Reachable.init {state : State} (hinit : system.init state) :
    system.Reachable state :=
  ReachableWithin.init hinit

theorem Reachable.step {state after : State} {action : Action}
    (hreach : system.Reachable state)
    (hnext : system.next state action = some after) :
    system.Reachable after :=
  ReachableWithin.step hreach trivial hnext

theorem Reachable.invariant {Inv : State → Prop} {state : State}
    (hreach : system.Reachable state)
    (hinit : ∀ start, system.init start → Inv start)
    (hstep : ∀ before action after, Inv before →
      system.next before action = some after → Inv after) :
    Inv state :=
  ReachableWithin.invariant hreach hinit
    fun before action after hbefore _ hnext =>
      hstep before action after hbefore hnext

theorem Reachable.run {state after : State}
    (hreach : system.Reachable state) (actions : List Action)
    (hrun : system.run state actions = some after) :
    system.Reachable after :=
  ReachableWithin.run hreach actions (fun _ _ _ => trivial) hrun

/-- Where one action brings every state of a kind closer to its end, taking it
again and again reaches the end. -/
theorem exists_run_to_end (system : TransitionSystem State Action)
    (action : Action) (Kind : State → Prop) (left : State → ℕ)
    (hcloser : ∀ state, Kind state → left state ≠ 0 →
      ∃ after, system.next state action = some after ∧ Kind after ∧
        left after < left state)
    (state : State) (hkind : Kind state) :
    ∃ steps after,
      system.run state (List.replicate steps action) = some after ∧
        Kind after ∧ left after = 0 := by
  induction hleft : left state using Nat.strong_induction_on
    generalizing state with
  | _ bound ih =>
      by_cases hzero : left state = 0
      · exact ⟨0, state, rfl, hkind, hzero⟩
      · rcases hcloser state hkind hzero with ⟨middle, hnext, hmiddle, hlt⟩
        rcases ih (left middle) (hleft ▸ hlt) middle hmiddle rfl with
          ⟨steps, after, hrun, hafter⟩
        refine ⟨steps + 1, after, ?_, hafter⟩
        rw [List.replicate_succ, TransitionSystem.run, hnext]
        exact hrun

end TransitionSystem

end HoprStrategy.Library
