import HoprStrategy.DepositOnce
import HoprStrategy.Library.ExclusiveClaims

/-!
# The destination guard

A destination is marked when its deposit is buffered and released by the flush
which owns the deposit.  So the marked destinations are exactly those which the
handler, the buffer and the running flushes hold, each once.
-/

namespace HoprStrategy.Pix

open Library

variable {Id Addr Wire Payload Data Cause : Type}
  [DecidableEq Id] [DecidableEq Addr]

namespace DepositState

variable {cfg : PixStrategyConfig}
  {pool : DepositPool Id Addr Wire Payload Data Cause}
  {state after : DepositState Id Addr Wire Payload Data Cause}

/-- What a step does with the marked destinations and those which are held. -/
inductive GuardMove
    (state after : DepositState Id Addr Wire Payload Data Cause) : Prop
  | kept (hheld : ∀ dest, after.destsHeld dest = state.destsHeld dest)
      (hguard : after.inFlightDestinations = state.inFlightDestinations)
  | claimed {id : Id} {dest : Addr} {target : HoprBalance} {data : Data}
      (hcleared : state.handler = .cleared id dest target data)
      (hheld : ∀ other, after.destsHeld other =
        state.destsHeld other + [dest].count other)
      (hguard : after.inFlightDestinations =
        insert dest state.inFlightDestinations)
      (hclaimed : after.handler = .claimed id dest target data)
  | released {dest : Addr}
      (hheld : ∀ other, after.destsHeld other + [dest].count other =
        state.destsHeld other)
      (hguard : after.inFlightDestinations =
        state.inFlightDestinations.erase dest)

/-- An event which stands before its claim has found its destination free. -/
def ClearsFree (state after : DepositState Id Addr Wire Payload Data Cause) :
    Prop :=
  ∀ id dest target data, after.handler = .cleared id dest target data →
    state.handler = .cleared id dest target data ∨
      dest ∉ state.inFlightDestinations

omit [DecidableEq Id] in
/-- A step of the handler between two phases which hold the same. -/
theorem GuardMove.ofHandler
    (hbuffer : after.depositBuffer = state.depositBuffer)
    (hflushes : after.flushes = state.flushes)
    (hguard : after.inFlightDestinations = state.inFlightDestinations)
    (hdests : after.handler.dests = state.handler.dests) :
    GuardMove state after := by
  refine .kept (fun dest => ?_) hguard
  simp only [destsHeld, hbuffer, hflushes, hdests]

theorem receive_move (hidle : state.handler = .idle)
    (event : NewDepositAddress Id Wire Payload) :
    GuardMove state (state.receive cfg event) ∧
      ClearsFree state (state.receive cfg event) := by
  have hdests : state.handler.dests = [] := by
    rw [hidle]
    rfl
  unfold receive
  split
  · exact ⟨.ofHandler rfl rfl rfl hdests.symm, by rintro _ _ _ _ ⟨⟩⟩
  · dsimp only
    split
    · exact ⟨.ofHandler rfl rfl rfl hdests.symm, by rintro _ _ _ _ ⟨⟩⟩
    · exact ⟨.ofHandler rfl rfl rfl hdests.symm, by rintro _ _ _ _ ⟨⟩⟩

omit [DecidableEq Id] in
theorem checkSpend_move {event : NewDepositAddress Id Wire Payload}
    {target : HoprBalance} (hpriced : state.handler = .priced event target)
    (now : ℕ) :
    GuardMove state (state.checkSpend cfg event target now) ∧
      ClearsFree state (state.checkSpend cfg event target now) := by
  have hdests : state.handler.dests = [] := by
    rw [hpriced]
    rfl
  unfold checkSpend
  dsimp only
  split
  · exact ⟨.ofHandler rfl rfl rfl hdests.symm, by rintro _ _ _ _ ⟨⟩⟩
  · exact ⟨.ofHandler rfl rfl rfl hdests.symm, by rintro _ _ _ _ ⟨⟩⟩

theorem checkDestination_move {event : NewDepositAddress Id Wire Payload}
    {target : HoprBalance}
    (hwithin : state.handler = .withinLimit event target) :
    GuardMove state (state.checkDestination pool event target) ∧
      ClearsFree state (state.checkDestination pool event target) := by
  have hdests : state.handler.dests = [] := by
    rw [hwithin]
    rfl
  unfold checkDestination
  split
  · exact ⟨.ofHandler rfl rfl rfl hdests.symm, by rintro _ _ _ _ ⟨⟩⟩
  · rename_i dest _
    split
    · exact ⟨.ofHandler rfl rfl rfl hdests.symm, by rintro _ _ _ _ ⟨⟩⟩
    · rename_i hfree
      split
      · exact ⟨.ofHandler rfl rfl rfl hdests.symm, by rintro _ _ _ _ ⟨⟩⟩
      · split
        · exact ⟨.ofHandler rfl rfl rfl hdests.symm, by rintro _ _ _ _ ⟨⟩⟩
        · refine ⟨.ofHandler rfl rfl rfl hdests.symm, ?_⟩
          rintro _ _ _ _ ⟨⟩
          exact Or.inr hfree

theorem answer_move {index : ℕ}
    {batch : List (BufferedDeposit Id Addr Data)} {reply : PoolReply Id Cause}
    {task : FlushTask Id Addr Data Cause}
    (htask : state.flushes[index]? = some (.calling batch))
    (hanswered : answered batch reply = some task) :
    GuardMove state { state with
      flushes := state.flushes.set index task
      funded := state.funded ++ fundedBy batch reply } := by
  refine .kept (fun dest => ?_) rfl
  have hset := held_set (fun task : FlushTask Id Addr Data Cause =>
    task.unreleased.count dest) task htask
  rw [(answered_spec hanswered).2.1, FlushTask.unreleased_calling] at hset
  simp only [destsHeld]
  omega

theorem settle_move {index : ℕ} {task task' : FlushTask Id Addr Data Cause}
    {settled : DepositState Id Addr Wire Payload Data Cause}
    (htask : state.flushes[index]? = some task)
    (hsettle : state.settleTask pool task = some (settled, task')) :
    GuardMove state
      { settled with flushes := settled.flushes.set index task' } := by
  have hstep := settleTask_step hsettle
  rw [hstep.flushes]
  rcases hstep.released with ⟨hguard, hsame⟩ | ⟨dest, hguard, hrest⟩
  · refine .kept (fun dest => ?_) hguard
    have hset := held_set (fun task : FlushTask Id Addr Data Cause =>
      task.unreleased.count dest) task' htask
    rw [hsame] at hset
    simp only [destsHeld, hstep.buffer, hstep.handler]
    omega
  · refine .released (fun other => ?_) hguard
    have hset := held_set (fun task : FlushTask Id Addr Data Cause =>
      task.unreleased.count other) task' htask
    rw [hrest, List.count_cons] at hset
    simp only [destsHeld, hstep.buffer, hstep.handler, List.count_cons,
      List.count_nil]
    omega

theorem next_move {action : DepositAction Id Wire Payload Cause}
    (hnext : state.next cfg pool action = some after) :
    GuardMove state after ∧ ClearsFree state after := by
  cases action with
  | receive event =>
      cases hhandler : state.handler with
      | idle =>
          simp only [next, hhandler, Option.some.injEq] at hnext
          exact hnext ▸ receive_move hhandler event
      | _ => simp [next, hhandler] at hnext
  | checkSpend now =>
      cases hhandler : state.handler with
      | priced event target =>
          simp only [next, hhandler, Option.some.injEq] at hnext
          exact hnext ▸ checkSpend_move hhandler now
      | _ => simp [next, hhandler] at hnext
  | checkDestination =>
      cases hhandler : state.handler with
      | withinLimit event target =>
          simp only [next, hhandler, Option.some.injEq] at hnext
          exact hnext ▸ checkDestination_move hhandler
      | _ => simp [next, hhandler] at hnext
  | claim =>
      cases hhandler : state.handler with
      | cleared id dest target data =>
          simp only [next, hhandler, Option.some.injEq] at hnext
          subst hnext
          refine ⟨.claimed hhandler (fun other => ?_) rfl rfl,
            by rintro _ _ _ _ ⟨⟩⟩
          simp only [destsHeld, hhandler, HandlerPhase.dests, List.count_nil]
          omega
      | _ => simp [next, hhandler] at hnext
  | reserve now =>
      cases hhandler : state.handler with
      | claimed id dest target data =>
          simp only [next, hhandler, Option.some.injEq] at hnext
          subst hnext
          refine ⟨.ofHandler rfl rfl rfl ?_, by rintro _ _ _ _ ⟨⟩⟩
          rw [hhandler]
          rfl
      | _ => simp [next, hhandler] at hnext
  | push =>
      cases hhandler : state.handler with
      | reserved deposit =>
          simp only [next, hhandler, Option.some.injEq] at hnext
          subst hnext
          refine ⟨.kept (fun dest => ?_) rfl, by rintro _ _ _ _ ⟨⟩⟩
          simp only [destsHeld, hhandler, HandlerPhase.dests, List.map_append,
            List.count_append, List.map_cons, List.map_nil, List.count_nil]
          omega
      | _ => simp [next, hhandler] at hnext
  | flush =>
      cases hhandler : state.handler with
      | idle =>
          cases hbuffer : state.depositBuffer with
          | nil => simp [next, hhandler, hbuffer] at hnext
          | cons deposit rest =>
              simp only [next, hhandler, hbuffer, Option.some.injEq] at hnext
              subst hnext
              refine ⟨.kept (fun dest => ?_) rfl, fun _ _ _ _ h => ?_⟩
              · simp only [destsHeld, hhandler, hbuffer, held_append,
                  held_singleton, FlushTask.unreleased, List.map_nil,
                  List.count_nil]
                omega
              · cases h
      | _ => simp [next, hhandler] at hnext
  | answer index reply =>
      simp only [next] at hnext
      split at hnext
      · rename_i batch htask
        split at hnext
        · rename_i task hanswered
          simp only [Option.some.injEq] at hnext
          subst hnext
          exact ⟨answer_move htask hanswered, fun _ _ _ _ h => Or.inl h⟩
        · cases hnext
      · cases hnext
  | settle index =>
      simp only [next] at hnext
      split at hnext
      · rename_i task htask
        split at hnext
        · rename_i settled task' hsettle
          simp only [Option.some.injEq] at hnext
          subst hnext
          refine ⟨settle_move htask hsettle, fun _ _ _ _ h => Or.inl ?_⟩
          rw [← (settleTask_step hsettle).handler]
          exact h
        · cases hnext
      · cases hnext

/-! ## The guard is what is held -/

structure DestinationInvariant
    (state : DepositState Id Addr Wire Payload Data Cause) : Prop where
  exclusive : Exclusive state.destsHeld state.inFlightDestinations
  cleared : ∀ id dest target data,
    state.handler = .cleared id dest target data →
      dest ∉ state.inFlightDestinations

omit [DecidableEq Id] in
theorem DestinationInvariant.initial :
    DestinationInvariant (DepositState.initial :
      DepositState Id Addr Wire Payload Data Cause) where
  exclusive := Exclusive.nothing
  cleared := by rintro _ _ _ _ ⟨⟩

theorem DestinationInvariant.next
    {action : DepositAction Id Wire Payload Cause}
    (hinv : state.DestinationInvariant)
    (hnext : state.next cfg pool action = some after) :
    after.DestinationInvariant := by
  rcases next_move hnext with ⟨hmove, hfree⟩
  have hclearedFree : ∀ id dest target data,
      after.handler = .cleared id dest target data →
        dest ∉ state.inFlightDestinations := by
    intro id dest target data hhandler
    rcases hfree id dest target data hhandler with hbefore | hunmarked
    · exact hinv.cleared id dest target data hbefore
    · exact hunmarked
  cases hmove with
  | kept hheld hguard =>
      constructor
      · rw [hguard]
        exact hinv.exclusive.keep hheld
      · rw [hguard]
        exact hclearedFree
  | @claimed id dest target data hcleared hheld hguard hclaimed =>
      constructor
      · rw [hguard]
        exact hinv.exclusive.claim (hinv.cleared id dest target data hcleared)
          hheld
      · intro _ _ _ _ h
        rw [hclaimed] at h
        cases h
  | released hheld hguard =>
      constructor
      · rw [hguard]
        exact hinv.exclusive.release hheld
      · intro id other target data hhandler hmarked
        rw [hguard] at hmarked
        exact hclearedFree id other target data hhandler
          (Finset.mem_of_mem_erase hmarked)

theorem destinationInvariant_of_reachable
    (hreach : (depositSystem cfg pool).Reachable state) :
    state.DestinationInvariant := by
  refine hreach.invariant ?_ ?_
  · rintro start rfl
    exact .initial
  · intro before action after hinv hnext
    exact hinv.next hnext

/-! ## What one flush gives back -/

/-- The steps of one flush. -/
def stepOf (index : ℕ) : DepositAction Id Wire Payload Cause → Bool
  | .settle task => task == index
  | _ => false

/-- The destinations which the steps of one flush unmark in a run. -/
def releasedBy (cfg : PixStrategyConfig)
    (pool : DepositPool Id Addr Wire Payload Data Cause) (index : ℕ) :
    DepositState Id Addr Wire Payload Data Cause →
      List (DepositAction Id Wire Payload Cause) → Finset Addr
  | _, [] => ∅
  | state, action :: rest =>
      match state.next cfg pool action with
      | none => ∅
      | some after =>
          (if stepOf index action
            then state.inFlightDestinations \ after.inFlightDestinations
            else ∅) ∪
          releasedBy cfg pool index after rest

/-- A step of the flush itself unmarks what it takes off its list. -/
theorem unreleased_of_settle (hinv : state.DestinationInvariant) {index : ℕ}
    {task task' : FlushTask Id Addr Data Cause}
    {settled : DepositState Id Addr Wire Payload Data Cause}
    (htask : state.flushes[index]? = some task)
    (hsettle : state.settleTask pool task = some (settled, task')) :
    (state.inFlightDestinations \ settled.inFlightDestinations) ∪
      task'.unreleased.toFinset = task.unreleased.toFinset := by
  rcases (settleTask_step hsettle).released with
    ⟨hguard, hsame⟩ | ⟨dest, hguard, hrest⟩
  · rw [hguard, hsame, Finset.sdiff_self, Finset.empty_union]
  · have hheld := le_held (fun task : FlushTask Id Addr Data Cause =>
      task.unreleased.count dest) (List.mem_of_getElem? htask)
    have hmarked : dest ∈ state.inFlightDestinations := by
      rw [hinv.exclusive.marked, destsHeld]
      rw [hrest, List.count_cons_self] at hheld
      omega
    rw [hguard, hrest, Finset.sdiff_erase hmarked, List.toFinset_cons,
      Finset.sdiff_self]
    rfl

/-- A step of anything else leaves the flush with the same destinations. -/
theorem flush_of_other {index : ℕ} {task : FlushTask Id Addr Data Cause}
    {action : DepositAction Id Wire Payload Cause}
    (htask : state.flushes[index]? = some task)
    (hother : stepOf index action = false)
    (hnext : state.next cfg pool action = some after) :
    ∃ task', after.flushes[index]? = some task' ∧
      task'.unreleased = task.unreleased := by
  have hkept : after.flushes = state.flushes →
      ∃ task', after.flushes[index]? = some task' ∧
        task'.unreleased = task.unreleased := fun hflushes =>
    ⟨task, hflushes ▸ htask, rfl⟩
  cases action with
  | receive event =>
      simp only [next] at hnext
      split at hnext
      · simp only [Option.some.injEq] at hnext
        subst hnext
        apply hkept
        unfold receive
        dsimp only
        split_ifs <;> rfl
      · cases hnext
  | checkSpend now =>
      simp only [next] at hnext
      split at hnext
      · simp only [Option.some.injEq] at hnext
        subst hnext
        apply hkept
        unfold checkSpend
        dsimp only
        split_ifs <;> rfl
      · cases hnext
  | checkDestination =>
      simp only [next] at hnext
      split at hnext
      · simp only [Option.some.injEq] at hnext
        subst hnext
        apply hkept
        unfold checkDestination
        split
        · rfl
        · split_ifs
          · rfl
          · rfl
          · split <;> rfl
      · cases hnext
  | claim | reserve now | push =>
      simp only [next] at hnext
      split at hnext
      · simp only [Option.some.injEq] at hnext
        subst hnext
        exact hkept rfl
      · cases hnext
  | flush =>
      simp only [next] at hnext
      split at hnext
      · simp only [Option.some.injEq] at hnext
        subst hnext
        refine ⟨task, ?_, rfl⟩
        rw [List.getElem?_append_left
          (List.getElem?_eq_some_iff.mp htask).1]
        exact htask
      · cases hnext
  | answer position reply =>
      simp only [next] at hnext
      split at hnext
      · rename_i batch hcalling
        split at hnext
        · rename_i answeredTask hanswered
          simp only [Option.some.injEq] at hnext
          subst hnext
          by_cases hsame : position = index
          · subst hsame
            rw [hcalling, Option.some.injEq] at htask
            subst htask
            exact ⟨answeredTask, by rw [List.getElem?_set_self
              (List.getElem?_eq_some_iff.mp hcalling).1],
              (answered_spec hanswered).2.1⟩
          · exact ⟨task, by rw [List.getElem?_set_ne hsame, htask], rfl⟩
        · cases hnext
      · cases hnext
  | settle position =>
      have hne : position ≠ index := by simpa [stepOf] using hother
      simp only [next] at hnext
      split at hnext
      · split at hnext
        · rename_i settled running hsettle
          simp only [Option.some.injEq] at hnext
          subst hnext
          refine ⟨task, ?_, rfl⟩
          rw [List.getElem?_set_ne hne, (settleTask_step hsettle).flushes]
          exact htask
        · cases hnext
      · cases hnext

/-- What a flush still has to unmark and what it has unmarked are its batch. -/
theorem releasedBy_run {index : ℕ}
    {actions : List (DepositAction Id Wire Payload Cause)}
    {task task' : FlushTask Id Addr Data Cause}
    (hinv : state.DestinationInvariant)
    (htask : state.flushes[index]? = some task)
    (hrun : (depositSystem cfg pool).run state actions = some after)
    (hafter : after.flushes[index]? = some task') :
    releasedBy cfg pool index state actions ∪ task'.unreleased.toFinset =
      task.unreleased.toFinset := by
  induction actions generalizing state task with
  | nil =>
      simp only [TransitionSystem.run, Option.some.injEq] at hrun
      subst hrun
      rw [htask, Option.some.injEq] at hafter
      rw [hafter, releasedBy, Finset.empty_union]
  | cons action rest ih =>
      cases hnext : state.next cfg pool action with
      | none => simp [TransitionSystem.run, depositSystem, hnext] at hrun
      | some middle =>
          have hrest : (depositSystem cfg pool).run middle rest =
              some after := by
            simpa [TransitionSystem.run, depositSystem, hnext] using hrun
          have hmiddle := hinv.next hnext
          simp only [releasedBy, hnext]
          cases hown : stepOf index action with
          | false =>
              rcases flush_of_other htask hown hnext with
                ⟨running, hrunning, hsame⟩
              have hind := ih hmiddle hrunning hrest
              rw [hsame] at hind
              simpa using hind
          | true =>
              cases action with
              | settle position =>
                  have hsame : position = index := by
                    simpa [stepOf] using hown
                  subst hsame
                  simp only [next, htask] at hnext
                  split at hnext
                  · rename_i settled running hsettle
                    simp only [Option.some.injEq] at hnext
                    subst hnext
                    have hset : (settled.flushes.set position running)[position]? =
                        some running := by
                      rw [(settleTask_step hsettle).flushes]
                      exact List.getElem?_set_self
                        (List.getElem?_eq_some_iff.mp htask).1
                    have hown := unreleased_of_settle hinv htask hsettle
                    rw [Finset.union_assoc, ih hmiddle hset hrest]
                    exact hown
                  · cases hnext
              | _ => cases hown

/-! ## An answered flush comes to its end -/

end DepositState

namespace FlushTask

/-- The number of steps a flush has left. -/
def stepsLeft : FlushTask Id Addr Data Cause → ℕ
  | .calling _ => 0
  | .singleFunded _ => 2
  | .singleRecorded _ => 1
  | .singleFailed _ _ => 3
  | .releasing batch remaining outcomes =>
      remaining.length + outcomes.length + batch.length + 3
  | .recording batch _ outcomes _ => outcomes.length + batch.length + 2
  | .failedReleasing batch remaining _ =>
      remaining.length + batch.length + 2
  | .refunding remaining => remaining.length + 1
  | .done => 0

end FlushTask

namespace DepositState

variable {cfg : PixStrategyConfig}
  {pool : DepositPool Id Addr Wire Payload Data Cause}
  {state after : DepositState Id Addr Wire Payload Data Cause}

/-- A flush which is neither waiting for the pool nor done has a next step,
and it brings it closer to its end. -/
theorem settleTask_closer (pool : DepositPool Id Addr Wire Payload Data Cause)
    (state : DepositState Id Addr Wire Payload Data Cause)
    {task : FlushTask Id Addr Data Cause}
    (hcalling : ∀ batch, task ≠ .calling batch) (hdone : task ≠ .done) :
    ∃ settled task', state.settleTask pool task = some (settled, task') ∧
      (∀ batch, task' ≠ .calling batch) ∧
      task'.stepsLeft < task.stepsLeft := by
  cases task with
  | calling batch => exact absurd rfl (hcalling batch)
  | singleFunded deposit =>
      exact ⟨_, _, rfl, by rintro _ ⟨⟩, Nat.lt_succ_self 1⟩
  | singleRecorded deposit =>
      exact ⟨_, _, rfl, by rintro _ ⟨⟩, Nat.lt_succ_self 0⟩
  | singleFailed deposit error =>
      refine ⟨_, _, rfl, ?_, ?_⟩
      · split <;> rintro _ ⟨⟩
      · split <;> simp [FlushTask.stepsLeft]
  | releasing batch remaining outcomes =>
      cases remaining with
      | nil => exact ⟨_, _, rfl, by rintro _ ⟨⟩, by simp [FlushTask.stepsLeft]⟩
      | cons deposit remaining =>
          exact ⟨_, _, rfl, by rintro _ ⟨⟩, by simp [FlushTask.stepsLeft]⟩
  | recording batch outcomesLen outcomes tally =>
      cases outcomes with
      | nil =>
          refine ⟨_, _, rfl, by rintro _ ⟨⟩, ?_⟩
          have hrefunds : (batchRefunds batch outcomesLen tally).length ≤
              batch.length := by
            unfold batchRefunds
            split
            · exact List.length_filter_le _ _
            · exact Nat.zero_le _
          simp only [FlushTask.stepsLeft, List.length_nil]
          omega
      | cons outcome outcomes =>
          exact ⟨_, _, rfl, by rintro _ ⟨⟩, by simp [FlushTask.stepsLeft]⟩
  | failedReleasing batch remaining error =>
      cases remaining with
      | nil =>
          refine ⟨_, _, rfl, ?_, ?_⟩
          · split <;> rintro _ ⟨⟩
          · split <;> simp [FlushTask.stepsLeft]
      | cons deposit remaining =>
          exact ⟨_, _, rfl, by rintro _ ⟨⟩, by simp [FlushTask.stepsLeft]⟩
  | refunding remaining =>
      cases remaining with
      | nil => exact ⟨_, _, rfl, by rintro _ ⟨⟩, by simp [FlushTask.stepsLeft]⟩
      | cons deposit remaining =>
          exact ⟨_, _, rfl, by rintro _ ⟨⟩, by simp [FlushTask.stepsLeft]⟩
  | done => exact absurd rfl hdone

/-- Left to itself, an answered flush reaches its end. -/
theorem settles (cfg : PixStrategyConfig)
    (pool : DepositPool Id Addr Wire Payload Data Cause) {index : ℕ}
    {task : FlushTask Id Addr Data Cause}
    (htask : state.flushes[index]? = some task)
    (hcalling : ∀ batch, task ≠ .calling batch) :
    ∃ steps after, (depositSystem cfg pool).run state
        (List.replicate steps (.settle index)) = some after ∧
      after.flushes[index]? = some .done := by
  let Answered := fun state : DepositState Id Addr Wire Payload Data Cause =>
    ∃ task, state.flushes[index]? = some task ∧ ∀ batch, task ≠ .calling batch
  let left := fun state : DepositState Id Addr Wire Payload Data Cause =>
    (state.flushes[index]?.map FlushTask.stepsLeft).getD 0
  have hcloser : ∀ before, Answered before → left before ≠ 0 →
      ∃ after, (depositSystem cfg pool).next before (.settle index) =
        some after ∧ Answered after ∧ left after < left before := by
    rintro before ⟨running, hrunning, hanswered⟩ hleft
    have hdone : running ≠ .done := by
      rintro rfl
      simp [left, hrunning, FlushTask.stepsLeft] at hleft
    rcases settleTask_closer pool before hanswered hdone with
      ⟨settled, running', hsettle, hanswered', hcloser⟩
    have hset : (settled.flushes.set index running')[index]? =
        some running' := by
      rw [(settleTask_step hsettle).flushes]
      exact List.getElem?_set_self (List.getElem?_eq_some_iff.mp hrunning).1
    refine ⟨{ settled with flushes := settled.flushes.set index running' },
      ?_, ⟨running', hset, hanswered'⟩, ?_⟩
    · simp only [depositSystem, next, hrunning, hsettle]
    · simpa [left, hrunning, hset] using hcloser
  rcases (depositSystem cfg pool).exists_run_to_end (.settle index) Answered
    left hcloser state ⟨task, htask, hcalling⟩ with
    ⟨steps, after, hrun, ⟨last, hlast, hanswered⟩, hzero⟩
  refine ⟨steps, after, hrun, ?_⟩
  have hnone : last.stepsLeft = 0 := by simpa [left, hlast] using hzero
  rw [hlast]
  cases last with
  | calling batch => exact absurd rfl (hanswered batch)
  | done => rfl
  | _ => simp [FlushTask.stepsLeft] at hnone

end DepositState

/-- No destination is held twice, the marked destinations are those which are
held, and a flush unmarks the destinations of its own batch and comes to its
end once the pool has answered. -/
theorem destinationGuard (cfg : PixStrategyConfig)
    (pool : DepositPool Id Addr Wire Payload Data Cause)
    {state : DepositState Id Addr Wire Payload Data Cause}
    (hreach : (depositSystem cfg pool).Reachable state) :
    (∀ dest, state.destsHeld dest ≤ 1) ∧
    (∀ dest, dest ∈ state.inFlightDestinations ↔
      0 < state.destsHeld dest) ∧
    (∀ index batch actions after,
      state.flushes[index]? = some (.calling batch) →
      (depositSystem cfg pool).run state actions = some after →
      after.flushes[index]? = some .done →
        DepositState.releasedBy cfg pool index state actions =
          (batch.map (·.destAddr)).toFinset) ∧
    (∀ index task, state.flushes[index]? = some task →
      (∀ batch, task ≠ .calling batch) →
      ∃ steps after, (depositSystem cfg pool).run state
          (List.replicate steps (.settle index)) = some after ∧
        after.flushes[index]? = some .done) := by
  have hinv := DepositState.destinationInvariant_of_reachable hreach
  refine ⟨hinv.exclusive.once, hinv.exclusive.marked, ?_,
    fun _ _ => DepositState.settles cfg pool⟩
  intro index batch actions after htask hrun hdone
  have hreleased := DepositState.releasedBy_run hinv htask hrun hdone
  simpa [FlushTask.unreleased] using hreleased

/-- The run of two deposits into one batch, which the pool answers. -/
theorem destinationGuard_unitPrice :
    ∃ state : DepositState ℕ ℕ ℕ Unit Unit Unit,
      state.inFlightDestinations = {1, 2} ∧
      (∀ dest, dest ∈ state.inFlightDestinations ↔
        0 < state.destsHeld dest) := by
  have hinit : (depositSystem unitPrice openPool).Reachable
      DepositState.initial := .init rfl
  have hboth := hinit.run
    ([.receive (depositTo 7 1), .checkSpend 0, .checkDestination] ++ buffering ++
      [.receive (depositTo 8 2), .checkSpend 0, .checkDestination] ++ buffering ++
      [.flush]) rfl
  exact ⟨_, by decide, (destinationGuard unitPrice openPool hboth).2.1⟩

end HoprStrategy.Pix
