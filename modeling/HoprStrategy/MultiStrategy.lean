import HoprStrategy.Library.Interleaving

/-!
# Strategies side by side

A `MultiStrategy` spawns its strategies as tasks and waits for all of them.
One which fails or panics is warned of, and the others go on.  Where the whole
is dropped, its tasks are aborted: a task which runs notices so before it is
polled again.
-/

namespace HoprStrategy.Multi

open Library

/-! ## Tasks and their supervisor -/

section

variable (State Action Error : Type)

inductive TaskStatus where
  | running
  | finished (result : Except Error Unit)
  | panicked
  | aborted
  deriving DecidableEq

/-- A spawned strategy.  `aborting` is the flag which its abort handle sets. -/
structure SubTask where
  strategy : State
  status : TaskStatus Error
  aborting : Bool

/-- How far `run` has come.  `pending` are the tasks which it has not joined. -/
inductive MultiPhase where
  /-- Without strategies it waits for ever. -/
  | passive
  | waiting (pending : List ℕ)
  | returned
  | dropped
  deriving DecidableEq

/-- `warnings` are the tasks which it has warned of. -/
structure MultiStrategy where
  tasks : List (SubTask State Error)
  phase : MultiPhase
  warnings : List ℕ

inductive MultiAction where
  /-- A strategy takes a step of its own. -/
  | step (index : ℕ) (action : Action)
  | finish (index : ℕ)
  | panic (index : ℕ)
  | abort (index : ℕ)
  | join (index : ℕ)
  | drop

end

variable {State Action Error : Type}

namespace SubTask

def spawn (strategy : State) : SubTask State Error :=
  ⟨strategy, .running, false⟩

def ended (task : SubTask State Error) : Bool :=
  match task.status with
  | .running => false
  | _ => true

/-- A task which was aborted is not warned of. -/
def warns (task : SubTask State Error) : Bool :=
  match task.status with
  | .finished (.error _) | .panicked => true
  | _ => false

/-- The task is polled as long as its flag is not set. -/
def polled (task : SubTask State Error) : Bool :=
  match task.status with
  | .running => !task.aborting
  | _ => false

end SubTask

namespace MultiStrategy

def run (strategies : List State) : MultiStrategy State Error where
  tasks := strategies.map .spawn
  phase := if strategies.isEmpty then .passive
    else .waiting (List.range strategies.length)
  warnings := []

def set (state : MultiStrategy State Error) (index : ℕ)
    (task : SubTask State Error) : MultiStrategy State Error :=
  { state with tasks := state.tasks.set index task }

/-- The guard aborts every task. -/
def abortAll (state : MultiStrategy State Error) (phase : MultiPhase) :
    MultiStrategy State Error :=
  { state with
    tasks := state.tasks.map ({ · with aborting := true })
    phase := phase }

def next (system : TransitionSystem State Action)
    (outcome : State → Option (Except Error Unit))
    (state : MultiStrategy State Error) :
    MultiAction Action → Option (MultiStrategy State Error)
  | .step index action => do
      let task ← state.tasks[index]?
      guard (task.polled ∧ (outcome task.strategy).isNone)
      let strategy ← system.next task.strategy action
      some (state.set index { task with strategy := strategy })
  | .finish index => do
      let task ← state.tasks[index]?
      guard task.polled
      let result ← outcome task.strategy
      some (state.set index { task with status := .finished result })
  | .panic index => do
      let task ← state.tasks[index]?
      guard task.polled
      some (state.set index { task with status := .panicked })
  | .abort index => do
      let task ← state.tasks[index]?
      guard (!task.ended && task.aborting)
      some (state.set index { task with status := .aborted })
  | .join index =>
      match state.phase with
      | .waiting pending => do
          let task ← state.tasks[index]?
          guard (index ∈ pending ∧ task.ended)
          let joined := { state with
            warnings :=
              if task.warns then state.warnings ++ [index]
              else state.warnings }
          match pending.erase index with
          | [] => some (joined.abortAll .returned)
          | rest => some { joined with phase := .waiting rest }
      | _ => none
  | .drop =>
      match state.phase with
      | .passive | .waiting _ => some (state.abortAll .dropped)
      | _ => none

/-- Where the strategies stand. -/
def strategies (state : MultiStrategy State Error) : List State :=
  state.tasks.map (·.strategy)

end MultiStrategy

/-- The strategies' own steps among the actions of a run. -/
def innerSteps (actions : List (MultiAction Action)) : List (ℕ × Action) :=
  actions.filterMap fun
    | .step index action => some (index, action)
    | _ => none

def multiSystem (system : TransitionSystem State Action)
    (outcome : State → Option (Except Error Unit)) (strategies : List State) :
    TransitionSystem (MultiStrategy State Error) (MultiAction Action) where
  init state := state = .run strategies
  next := MultiStrategy.next system outcome

/-! ## What one step does -/

/-- The changes of a task, but for its flag. -/
inductive Alters (system : TransitionSystem State Action)
    (outcome : State → Option (Except Error Unit)) (index : ℕ)
    (task : SubTask State Error) :
    MultiAction Action → SubTask State Error → Prop
  | step (action : Action) (strategy : State) (hpolled : task.polled = true)
      (houtcome : outcome task.strategy = none)
      (hnext : system.next task.strategy action = some strategy) :
      Alters system outcome index task (.step index action)
        { task with strategy := strategy }
  | finish (result : Except Error Unit) (hpolled : task.polled = true)
      (houtcome : outcome task.strategy = some result) :
      Alters system outcome index task (.finish index)
        { task with status := .finished result }
  | panic (hpolled : task.polled = true) :
      Alters system outcome index task (.panic index)
        { task with status := .panicked }
  | abort (hrunning : task.ended = false) (haborting : task.aborting = true) :
      Alters system outcome index task (.abort index)
        { task with status := .aborted }

/-- The steps of the whole. -/
inductive Supervises (system : TransitionSystem State Action)
    (outcome : State → Option (Except Error Unit))
    (state : MultiStrategy State Error) :
    MultiAction Action → MultiStrategy State Error → Prop
  | alter (index : ℕ) (action : MultiAction Action)
      (task after : SubTask State Error)
      (hat : state.tasks[index]? = some task)
      (halters : Alters system outcome index task action after) :
      Supervises system outcome state action (state.set index after)
  | join (index : ℕ) (pending : List ℕ) (task : SubTask State Error)
      (hphase : state.phase = .waiting pending)
      (hat : state.tasks[index]? = some task) (hpending : index ∈ pending)
      (hended : task.ended = true) (hmore : pending.erase index ≠ []) :
      Supervises system outcome state (.join index)
        { state with
          warnings :=
            if task.warns then state.warnings ++ [index] else state.warnings
          phase := .waiting (pending.erase index) }
  | joinLast (index : ℕ) (pending : List ℕ) (task : SubTask State Error)
      (hphase : state.phase = .waiting pending)
      (hat : state.tasks[index]? = some task) (hpending : index ∈ pending)
      (hended : task.ended = true) (hlast : pending.erase index = []) :
      Supervises system outcome state (.join index)
        (MultiStrategy.abortAll { state with
          warnings :=
            if task.warns then state.warnings ++ [index]
            else state.warnings } .returned)
  | drop (hphase : state.phase = .passive ∨
        ∃ pending, state.phase = .waiting pending) :
      Supervises system outcome state .drop (state.abortAll .dropped)

section

variable {system : TransitionSystem State Action}
  {outcome : State → Option (Except Error Unit)}
  {state after : MultiStrategy State Error} {action : MultiAction Action}

theorem supervises_of_next
    (hnext : state.next system outcome action = some after) :
    Supervises system outcome state action after := by
  cases action with
  | step index action =>
      simp only [MultiStrategy.next, Option.bind_eq_bind,
        Option.bind_eq_some_iff, Option.guard_eq_some', Option.some.injEq]
        at hnext
      obtain ⟨task, hat, _, ⟨hpolled, houtcome⟩, strategy, hinner, rfl⟩ := hnext
      exact .alter index _ task _ hat
        (.step action strategy hpolled (Option.isNone_iff_eq_none.mp houtcome)
          hinner)
  | finish index =>
      simp only [MultiStrategy.next, Option.bind_eq_bind,
        Option.bind_eq_some_iff, Option.guard_eq_some', Option.some.injEq]
        at hnext
      obtain ⟨task, hat, _, hpolled, result, houtcome, rfl⟩ := hnext
      exact .alter index _ task _ hat (.finish result hpolled houtcome)
  | panic index =>
      simp only [MultiStrategy.next, Option.bind_eq_bind,
        Option.bind_eq_some_iff, Option.guard_eq_some', Option.some.injEq]
        at hnext
      obtain ⟨task, hat, _, hpolled, rfl⟩ := hnext
      exact .alter index _ task _ hat (.panic hpolled)
  | abort index =>
      simp only [MultiStrategy.next, Option.bind_eq_bind,
        Option.bind_eq_some_iff, Option.guard_eq_some', Option.some.injEq,
        Bool.and_eq_true, Bool.not_eq_true'] at hnext
      obtain ⟨task, hat, _, ⟨hrunning, haborting⟩, rfl⟩ := hnext
      exact .alter index _ task _ hat (.abort hrunning haborting)
  | join index =>
      simp only [MultiStrategy.next] at hnext
      split at hnext
      · case h_1 pending hphase =>
          simp only [Option.bind_eq_bind, Option.bind_eq_some_iff,
            Option.guard_eq_some'] at hnext
          obtain ⟨task, hat, _, ⟨hpending, hended⟩, hjoined⟩ := hnext
          split at hjoined
          · case h_1 hlast =>
              cases hjoined
              exact .joinLast index pending task hphase hat hpending hended
                hlast
          · case h_2 rest hmore =>
              cases hjoined
              exact .join index pending task hphase hat hpending hended hmore
      · cases hnext
  | drop =>
      simp only [MultiStrategy.next] at hnext
      split at hnext
      · cases hnext
        exact .drop (.inl ‹_›)
      · case h_2 pending hphase =>
          cases hnext
          exact .drop (.inr ⟨pending, hphase⟩)
      · cases hnext

/-- Only a task which has not ended changes, and its flag stays. -/
theorem Alters.unended {index : ℕ} {task changed : SubTask State Error}
    (halters : Alters system outcome index task action changed) :
    task.ended = false ∧ changed.aborting = task.aborting := by
  have hpolled : task.polled = true → task.ended = false := by
    unfold SubTask.polled SubTask.ended
    cases task.status <;> simp
  cases halters with
  | step _ _ h | finish _ h | panic h => exact ⟨hpolled h, rfl⟩
  | abort hrunning => exact ⟨hrunning, rfl⟩

/-! ## The supervisor's books -/

/-- The task is over, and was warned of if it failed. -/
structure SubTask.Joined (warnings : List ℕ) (index : ℕ)
    (task : SubTask State Error) : Prop where
  ended : task.ended = true
  kept : task.status ≠ .aborted
  warned : warnings.count index = if task.warns then 1 else 0

/-- As long as it waits, no task is aborted, and it has joined the others. -/
structure MultiStrategy.Awaits (pending : List ℕ)
    (state : MultiStrategy State Error) : Prop where
  nonempty : pending ≠ []
  distinct : pending.Nodup
  within : ∀ index ∈ pending, index < state.tasks.length
  unwarned : ∀ index ∈ pending, state.warnings.count index = 0
  unaborted : ∀ task ∈ state.tasks,
    task.aborting = false ∧ task.status ≠ .aborted
  joined : ∀ index task, state.tasks[index]? = some task →
    index ∉ pending → task.Joined state.warnings index

def MultiStrategy.Accounts (state : MultiStrategy State Error) : Prop :=
  match state.phase with
  | .passive => state.tasks = []
  | .waiting pending => state.Awaits pending
  | .returned => state.tasks ≠ [] ∧
      ∀ (index : ℕ) (task : SubTask State Error),
        state.tasks[index]? = some task → task.Joined state.warnings index
  | .dropped => ∀ task ∈ state.tasks, task.aborting = true

theorem run_accounts (strategies : List State) :
    (MultiStrategy.run strategies : MultiStrategy State Error).Accounts := by
  unfold MultiStrategy.Accounts MultiStrategy.run
  cases strategies with
  | nil => rfl
  | cons strategy rest =>
      refine ⟨?_, List.nodup_range, ?_, ?_, ?_, ?_⟩
      · simp [List.range_succ]
      · intro index hindex
        simpa using hindex
      · intro index _
        rfl
      · intro task hmem
        obtain ⟨own, _, rfl⟩ := List.mem_map.mp hmem
        exact ⟨rfl, by simp [SubTask.spawn]⟩
      · intro index task hat hpending
        have hlt := (List.getElem?_eq_some_iff.mp hat).1
        rw [List.length_map] at hlt
        exact absurd (List.mem_range.mpr hlt) hpending

theorem awaits_alter {pending : List ℕ} {index : ℕ}
    {task changed : SubTask State Error} (hawaits : state.Awaits pending)
    (hat : state.tasks[index]? = some task)
    (halters : Alters system outcome index task action changed) :
    (state.set index changed).Awaits pending := by
  obtain ⟨hunended, hflag⟩ := halters.unended
  have hmem := List.mem_of_getElem? hat
  obtain ⟨hunset, hkept⟩ := hawaits.unaborted task hmem
  have hchanged : changed.status ≠ .aborted := by
    cases halters with
    | step => exact hkept
    | finish | panic => simp
    | abort _ haborting =>
        rw [hunset] at haborting
        cases haborting
  refine ⟨hawaits.nonempty, hawaits.distinct, ?_, hawaits.unwarned, ?_, ?_⟩
  · intro other hother
    rw [MultiStrategy.set, List.length_set]
    exact hawaits.within other hother
  · intro other hother
    rcases List.mem_or_eq_of_mem_set hother with hold | rfl
    · exact hawaits.unaborted other hold
    · exact ⟨hflag.trans hunset, hchanged⟩
  · intro position other hother hpending
    by_cases heq : index = position
    · -- a task which has been joined does not change
      subst heq
      have hjoined := (hawaits.joined index task hat hpending).ended
      rw [hunended] at hjoined
      cases hjoined
    · rw [MultiStrategy.set, List.getElem?_set_ne heq] at hother
      exact hawaits.joined position other hother hpending

/-- Joining a task settles it, and leaves the other books alone. -/
theorem awaits_join {pending : List ℕ} {index : ℕ}
    {task : SubTask State Error} (hawaits : state.Awaits pending)
    (hat : state.tasks[index]? = some task) (hpending : index ∈ pending)
    (hended : task.ended = true) :
    ∀ position other, state.tasks[position]? = some other →
      position ∉ pending.erase index →
        other.Joined (if task.warns then state.warnings ++ [index]
          else state.warnings) position := by
  intro position other hother hgone
  by_cases heq : position = index
  · subst heq
    obtain rfl : other = task := Option.some.inj (hother.symm.trans hat)
    have hkept := (hawaits.unaborted other (List.mem_of_getElem? hat)).2
    have hzero := hawaits.unwarned position hpending
    refine ⟨hended, hkept, ?_⟩
    cases hwarns : other.warns with
    | true => simp [hzero]
    | false => simpa using hzero
  · have hnot : position ∉ pending := by
      intro hin
      exact hgone ((List.mem_erase_of_ne heq).mpr hin)
    have hjoined := hawaits.joined position other hother hnot
    refine ⟨hjoined.ended, hjoined.kept, ?_⟩
    rw [← hjoined.warned]
    split
    · rw [List.count_append, List.count_singleton]
      simp [Ne.symm heq]
    · rfl

theorem accounts_step (haccounts : state.Accounts)
    (hnext : state.next system outcome action = some after) :
    after.Accounts := by
  have hsupervises := supervises_of_next hnext
  cases hsupervises with
  | alter index action task changed hat halters =>
      obtain ⟨hunended, hflag⟩ := halters.unended
      unfold MultiStrategy.Accounts at haccounts ⊢
      cases hphase : state.phase with
      | passive =>
          simp only [hphase] at haccounts
          rw [haccounts] at hat
          cases hat
      | waiting pending =>
          have hsame : (state.set index changed).phase = .waiting pending :=
            hphase
          simp only [hphase] at haccounts
          rw [hsame]
          exact awaits_alter haccounts hat halters
      | returned =>
          simp only [hphase] at haccounts
          have hended := (haccounts.2 index task hat).ended
          rw [hunended] at hended
          cases hended
      | dropped =>
          simp only [hphase, MultiStrategy.set] at haccounts ⊢
          intro other hother
          rcases List.mem_or_eq_of_mem_set hother with hold | rfl
          · exact haccounts other hold
          · exact hflag.trans (haccounts task (List.mem_of_getElem? hat))
  | join index pending task hphase hat hpending hended hmore =>
      unfold MultiStrategy.Accounts at haccounts ⊢
      simp only [hphase] at haccounts
      refine ⟨hmore, haccounts.distinct.erase index, ?_, ?_,
        haccounts.unaborted, awaits_join haccounts hat hpending hended⟩
      · intro other hother
        exact haccounts.within other (List.mem_of_mem_erase hother)
      · intro other hother
        have hne : other ≠ index :=
          ((haccounts.distinct.mem_erase_iff).mp hother).1
        have hzero := haccounts.unwarned other (List.mem_of_mem_erase hother)
        simp only
        split
        · rw [List.count_append, hzero, List.count_singleton]
          simp [Ne.symm hne]
        · exact hzero
  | joinLast index pending task hphase hat hpending hended hlast =>
      unfold MultiStrategy.Accounts at haccounts ⊢
      simp only [hphase] at haccounts
      have hjoined := awaits_join haccounts hat hpending hended
      rw [hlast] at hjoined
      refine ⟨?_, ?_⟩
      · intro hnil
        have htasks := List.map_eq_nil_iff.mp hnil
        simp only at htasks
        rw [htasks] at hat
        cases hat
      · intro position other hother
        simp only [MultiStrategy.abortAll, List.getElem?_map,
          Option.map_eq_some_iff] at hother
        obtain ⟨before, hbefore, rfl⟩ := hother
        have hsettled := hjoined position before hbefore List.not_mem_nil
        exact ⟨hsettled.ended, hsettled.kept, hsettled.warned⟩
  | drop =>
      unfold MultiStrategy.Accounts
      intro task hmem
      obtain ⟨before, _, rfl⟩ := List.mem_map.mp hmem
      rfl

/-! ## Whole runs -/

/-- A strategy's own step is a step of the strategies side by side, and any
other leaves them as they are. -/
theorem strategies_step
    (hnext : state.next system outcome action = some after) :
    system.interleaved.run state.strategies (innerSteps [action]) =
      some after.strategies := by
  have hsupervises := supervises_of_next hnext
  cases hsupervises with
  | alter index action task changed hat halters =>
      have hstrategy : state.strategies[index]? = some task.strategy := by
        simp [MultiStrategy.strategies, hat]
      cases halters with
      | step own strategy hpolled houtcome hinner =>
          have hacted : system.interleaved.next state.strategies (index, own) =
              some (state.strategies.set index strategy) :=
            next_interleaved_iff.mpr ⟨_, strategy, hstrategy, hinner, rfl⟩
          have hsteps : innerSteps [MultiAction.step index own] =
              [(index, own)] := rfl
          rw [hsteps, TransitionSystem.run, hacted]
          simp [TransitionSystem.run, MultiStrategy.strategies,
            MultiStrategy.set, List.map_set]
      | finish | panic | abort =>
          have hsame : state.strategies.set index task.strategy =
              state.strategies := by
            obtain ⟨hlt, heq⟩ := List.getElem?_eq_some_iff.mp hstrategy
            rw [← heq, List.set_getElem_self]
          simp only [innerSteps, List.filterMap_cons, List.filterMap_nil,
            TransitionSystem.run, MultiStrategy.strategies, MultiStrategy.set,
            List.map_set, Option.some.injEq]
          exact hsame.symm
  | join | joinLast | drop =>
      simp [innerSteps, TransitionSystem.run, MultiStrategy.strategies,
        MultiStrategy.abortAll]

/-- What the strategies do is an interleaving of what each does alone. -/
theorem strategies_run {strategies : List State}
    {actions : List (MultiAction Action)} {start : MultiStrategy State Error}
    (hrun : (multiSystem system outcome strategies).run start actions =
      some after) :
    system.interleaved.run start.strategies (innerSteps actions) =
      some after.strategies := by
  induction actions generalizing start with
  | nil =>
      obtain rfl : start = after := Option.some.inj hrun
      rfl
  | cons action rest ih =>
      obtain ⟨middle, hnext, hrest⟩ := TransitionSystem.run_cons.mp hrun
      have hsplit : innerSteps (action :: rest) =
          innerSteps [action] ++ innerSteps rest := by
        rw [innerSteps, innerSteps, innerSteps, ← List.filterMap_append]
        rfl
      rw [hsplit]
      exact TransitionSystem.run_append.mpr
        ⟨middle.strategies, strategies_step hnext, ih hrest⟩

theorem accounts_run {strategies : List State}
    {actions : List (MultiAction Action)} (haccounts : state.Accounts)
    (hrun : (multiSystem system outcome strategies).run state actions =
      some after) : after.Accounts := by
  have hstep : ∀ before action next, MultiStrategy.Accounts before →
      (multiSystem system outcome strategies).next before action = some next →
      MultiStrategy.Accounts next := by
    intro before action next hbefore hnext
    exact accounts_step hbefore hnext
  exact TransitionSystem.run_invariant hstep actions haccounts hrun

/-- Until the whole is dropped, a running strategy can do what it could do
alone. -/
theorem next_step_isSome (haccounts : state.Accounts)
    (hkept : state.phase ≠ .dropped) {index : ℕ} {task : SubTask State Error}
    (hat : state.tasks[index]? = some task) (hrunning : task.status = .running)
    (action : Action) :
    (state.next system outcome (.step index action)).isSome ↔
      outcome task.strategy = none ∧
        (system.next task.strategy action).isSome := by
  have hunset : task.aborting = false := by
    unfold MultiStrategy.Accounts at haccounts
    cases hphase : state.phase with
    | passive =>
        simp only [hphase] at haccounts
        rw [haccounts] at hat
        cases hat
    | waiting pending =>
        simp only [hphase] at haccounts
        exact (haccounts.unaborted task (List.mem_of_getElem? hat)).1
    | returned =>
        simp only [hphase] at haccounts
        have hended := (haccounts.2 index task hat).ended
        simp [SubTask.ended, hrunning] at hended
    | dropped => exact absurd hphase hkept
  have hpolled : task.polled = true := by
    simp [SubTask.polled, hrunning, hunset]
  simp only [MultiStrategy.next, hat, hpolled, Option.bind_eq_bind,
    Option.bind_some, true_and]
  cases houtcome : outcome task.strategy with
  | some result => simp [guard]
  | none => cases system.next task.strategy action <;> simp [guard]

/-- Once the whole is dropped, its strategies do nothing any more. -/
theorem strategies_dropped {strategies : List State}
    {actions : List (MultiAction Action)} (haccounts : state.Accounts)
    (hdropped : state.phase = .dropped)
    (hrun : (multiSystem system outcome strategies).run state actions =
      some after) :
    after.strategies = state.strategies := by
  have hstep : ∀ before action next,
      (before.Accounts ∧ before.phase = .dropped ∧
        before.strategies = state.strategies) →
      (multiSystem system outcome strategies).next before action = some next →
      next.Accounts ∧ next.phase = .dropped ∧
        next.strategies = state.strategies := by
    rintro before action next ⟨hbooks, hphase, hsame⟩ hnext
    have hsupervises := supervises_of_next hnext
    refine ⟨accounts_step hbooks hnext, ?_⟩
    cases hsupervises with
    | alter index action task changed hat halters =>
        refine ⟨hphase, ?_⟩
        have hinterleaved := strategies_step hnext
        cases halters with
        | step own strategy hpolled =>
            unfold MultiStrategy.Accounts at hbooks
            simp only [hphase] at hbooks
            have haborting := hbooks task (List.mem_of_getElem? hat)
            unfold SubTask.polled at hpolled
            rw [haborting] at hpolled
            split at hpolled <;> cases hpolled
        | finish | panic | abort =>
            exact (Option.some.inj hinterleaved).symm.trans hsame
    | join _ _ _ hwaiting | joinLast _ _ _ hwaiting =>
        rw [hphase] at hwaiting
        cases hwaiting
    | drop hwaiting =>
        rw [hphase] at hwaiting
        rcases hwaiting with hwaiting | ⟨pending, hwaiting⟩ <;> cases hwaiting
  exact (TransitionSystem.run_invariant hstep actions
    ⟨haccounts, hdropped, rfl⟩ hrun).2.2

/-- When every task is over, the supervisor can join those it waits for, and
return. -/
theorem returns_of_ended {strategies : List State} {pending : List ℕ}
    (hphase : state.phase = .waiting pending) (hnonempty : pending ≠ [])
    (hwithin : ∀ index ∈ pending, index < state.tasks.length)
    (hended : ∀ task ∈ state.tasks, task.ended = true) :
    ∃ finish, (multiSystem system outcome strategies).run state
        (pending.map .join) = some finish ∧ finish.phase = .returned := by
  induction pending generalizing state with
  | nil => exact absurd rfl hnonempty
  | cons index rest ih =>
      have hlt := hwithin index List.mem_cons_self
      have hat := List.getElem?_eq_getElem hlt
      have hjoinable : state.tasks[index].ended = true :=
        hended _ (List.getElem_mem hlt)
      have hjoin : ∀ joined, state.next system outcome (.join index) =
          some joined → (multiSystem system outcome strategies).run state
            ((index :: rest).map .join) =
              (multiSystem system outcome strategies).run joined
                (rest.map .join) := by
        intro joined hnext
        rw [List.map_cons, TransitionSystem.run]
        simp only [multiSystem, hnext]
      cases rest with
      | nil =>
          have hnext : ∃ joined, state.next system outcome (.join index) =
              some joined ∧ joined.phase = .returned := by
            simp [MultiStrategy.next, hphase, hat, hjoinable, guard,
              MultiStrategy.abortAll]
          obtain ⟨joined, hnext, hreturned⟩ := hnext
          exact ⟨joined, (hjoin joined hnext).trans rfl, hreturned⟩
      | cons following others =>
          have hnext : ∃ joined, state.next system outcome (.join index) =
              some joined ∧ joined.phase = .waiting (following :: others) ∧
                joined.tasks = state.tasks := by
            simp [MultiStrategy.next, hphase, hat, hjoinable, guard]
          obtain ⟨joined, hnext, hwaiting, htasks⟩ := hnext
          obtain ⟨finish, hrun, hreturned⟩ := ih hwaiting (by simp)
            (fun other hother => htasks ▸
              hwithin other (List.mem_cons_of_mem index hother))
            (by rwa [htasks])
          exact ⟨finish, (hjoin joined hnext).trans hrun, hreturned⟩

theorem strategies_length {strategies : List State}
    {actions : List (MultiAction Action)}
    (hrun : (multiSystem system outcome strategies).run (.run strategies)
      actions = some after) :
    after.tasks.length = strategies.length := by
  have hlength := (run_interleaved_iff.mp (strategies_run hrun)).1
  simpa [MultiStrategy.strategies, MultiStrategy.run] using hlength

/-- Strategies run side by side as each would alone: none is held up by what
becomes of another.  The whole returns when all are over, having warned of
those which failed, and takes them all along where it is dropped. -/
theorem ranApart {strategies : List State}
    {actions : List (MultiAction Action)}
    (hrun : (multiSystem system outcome strategies).run (.run strategies)
      actions = some state) :
    (∀ index strategy task, strategies[index]? = some strategy →
      state.tasks[index]? = some task →
        system.run strategy (stepsOf index (innerSteps actions)) =
          some task.strategy) ∧
    (state.phase ≠ .dropped → ∀ index task action,
      state.tasks[index]? = some task → task.status = .running →
        ((state.next system outcome (.step index action)).isSome ↔
          outcome task.strategy = none ∧
            (system.next task.strategy action).isSome)) ∧
    (state.phase = .returned → strategies ≠ [] ∧
      ∀ (index : ℕ) (task : SubTask State Error),
        state.tasks[index]? = some task →
          task.Joined state.warnings index) ∧
    (∀ pending, state.phase = .waiting pending →
      (∀ task ∈ state.tasks, task.ended = true) →
        ∃ finish, (multiSystem system outcome strategies).run state
          (pending.map .join) = some finish ∧ finish.phase = .returned) ∧
    (state.phase = .dropped →
      (∀ task ∈ state.tasks, task.aborting = true) ∧
        ∀ later finish, (multiSystem system outcome strategies).run state
          later = some finish → finish.strategies = state.strategies) := by
  have haccounts := accounts_run (run_accounts strategies) hrun
  have hbooks := haccounts
  unfold MultiStrategy.Accounts at hbooks
  refine ⟨?_, ?_, ?_, ?_, ?_⟩
  · intro index strategy task hstrategy hat
    have hruns := (run_interleaved_iff.mp (strategies_run hrun)).2.2
    refine hruns index strategy task.strategy ?_ ?_
    · simp [MultiStrategy.strategies, MultiStrategy.run, hstrategy,
        SubTask.spawn]
    · simp [MultiStrategy.strategies, hat]
  · intro hkept index task action hat hrunning
    exact next_step_isSome haccounts hkept hat hrunning action
  · intro hreturned
    simp only [hreturned] at hbooks
    refine ⟨?_, hbooks.2⟩
    rintro rfl
    exact hbooks.1 (List.length_eq_zero_iff.mp (strategies_length hrun))
  · intro pending hwaiting hended
    simp only [hwaiting] at hbooks
    exact returns_of_ended hwaiting hbooks.nonempty hbooks.within hended
  · intro hdropped
    simp only [hdropped] at hbooks
    exact ⟨hbooks, fun later finish hlater =>
      strategies_dropped haccounts hdropped hlater⟩

end

/-! ## One fails and the other goes on -/

/-- A strategy with some steps to take, which may fail in the end. -/
def countdown : TransitionSystem (ℕ × Bool) Unit where
  init _ := True
  next state _ := match state with
    | (left + 1, fails) => some (left, fails)
    | (0, _) => none

def atZero : ℕ × Bool → Option (Except Unit Unit)
  | (0, fails) => some (if fails then .error () else .ok ())
  | _ => none

def failsFirst : List (MultiAction Unit) :=
  [.step 0 (), .finish 1, .join 1, .step 0 (), .finish 0, .join 0]

theorem ranApart_failsFirst :
    ∃ state, (multiSystem countdown atZero [(2, false), (0, true)]).run
        (.run [(2, false), (0, true)]) failsFirst = some state ∧
      state.warnings = [1] ∧
      countdown.run (2, false) [(), ()] = some (0, false) ∧
      ∀ (index : ℕ) (task : SubTask (ℕ × Bool) Unit),
        state.tasks[index]? = some task →
          task.Joined state.warnings index := by
  have hrun : (multiSystem countdown atZero [(2, false), (0, true)]).run
      (.run [(2, false), (0, true)]) failsFirst = some _ := rfl
  obtain ⟨halone, _, hreturned, _, _⟩ := ranApart hrun
  exact ⟨_, hrun, rfl, halone 0 _ _ rfl rfl, (hreturned rfl).2⟩

end HoprStrategy.Multi
