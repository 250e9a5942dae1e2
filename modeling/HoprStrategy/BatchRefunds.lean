import HoprStrategy.DepositOnce

/-!
# The refunds of a flush

A batch answer names its successes only, so the failed deposits are found by
elimination: the reservations of the deposits without a success are handed
back when every failure is fund-free and the failures account for exactly
those deposits.
-/

namespace HoprStrategy.Pix

open Library

variable {Id Addr Wire Payload Data Cause : Type}
  [DecidableEq Id] [DecidableEq Addr]

/-! ## The answer of the pool -/

/-- The failures of an answer. -/
def failuresOf (outcomes : List (Except (StrategyError Cause) Id)) :
    List (StrategyError Cause) :=
  outcomes.filterMap fun outcome =>
    match outcome with
    | .ok _ => none
    | .error error => some error

section

variable {id : Id} {error : StrategyError Cause}
  {outcomes : List (Except (StrategyError Cause) Id)}

omit [DecidableEq Id]

theorem okIds_ok : okIds (.ok id :: outcomes) = id :: okIds outcomes := rfl

theorem okIds_error : okIds (.error error :: outcomes) = okIds outcomes := rfl

theorem failuresOf_ok :
    failuresOf (.ok id :: outcomes) = failuresOf outcomes := rfl

theorem failuresOf_error :
    failuresOf (.error error :: outcomes) = error :: failuresOf outcomes := rfl

end

/-- The outcomes of an answer: a failure of the whole batch is one for each of
its deposits. -/
def PoolReply.outcomes (batch : List (BufferedDeposit Id Addr Data)) :
    PoolReply Id Cause → List (Except (StrategyError Cause) Id)
  | .single (.ok ()) => batch.map fun deposit => .ok deposit.id
  | .single (.error error) => batch.map fun _ => .error error
  | .multiple (.ok outcomes) => outcomes
  | .multiple (.error error) => batch.map fun _ => .error error

def withoutSuccess (batch : List (BufferedDeposit Id Addr Data))
    (outcomes : List (Except (StrategyError Cause) Id)) :
    List (BufferedDeposit Id Addr Data) :=
  batch.filter fun deposit => deposit.id ∉ okIds outcomes

/-- The answer proves that the deposits without a success moved no funds. -/
structure ProvesFundFree
    (pool : DepositPool Id Addr Wire Payload Data Cause)
    (batch : List (BufferedDeposit Id Addr Data))
    (outcomes : List (Except (StrategyError Cause) Id)) : Prop where
  fundFree : ∀ error ∈ failuresOf outcomes,
    error.movedNoFunds pool.errorMovedNoFunds = true
  paired : (failuresOf outcomes).length =
    (withoutSuccess batch outcomes).length

/-! ## The refunds of a task -/

namespace FlushTask

variable (pool : DepositPool Id Addr Wire Payload Data Cause)

/-- The deposits whose reservations the task is still to hand back. -/
def owed : FlushTask Id Addr Data Cause → List (BufferedDeposit Id Addr Data)
  | .singleFailed deposit error =>
      if error.movedNoFunds pool.errorMovedNoFunds then [deposit] else []
  | .releasing batch _ outcomes =>
      DepositState.batchRefunds batch outcomes.length
        (outcomes.foldl (DepositState.tallyOutcome pool batch) ⟨∅, 0, true⟩)
  | .recording batch outcomesLen outcomes tally =>
      DepositState.batchRefunds batch outcomesLen
        (outcomes.foldl (DepositState.tallyOutcome pool batch) tally)
  | .failedReleasing batch _ error =>
      if error.movedNoFunds pool.errorMovedNoFunds then batch else []
  | .refunding remaining => remaining
  | _ => []

omit [DecidableEq Id] [DecidableEq Addr] in
def IsAnswered : FlushTask Id Addr Data Cause → Prop
  | .calling _ => False
  | _ => True

omit [DecidableEq Id] [DecidableEq Addr] in
/-- The deposit whose reservation the next step of the task hands back. -/
def refunded : FlushTask Id Addr Data Cause →
    List (BufferedDeposit Id Addr Data)
  | .refunding (deposit :: _) => [deposit]
  | _ => []

omit [DecidableEq Id] [DecidableEq Addr] in
/-- The reported successes which the task is still to record. -/
def reported : FlushTask Id Addr Data Cause → List Id
  | .singleFunded deposit => [deposit.id]
  | .releasing _ _ outcomes => okIds outcomes
  | .recording _ _ outcomes _ => okIds outcomes
  | _ => []

end FlushTask

namespace DepositState

variable {cfg : PixStrategyConfig}
  {pool : DepositPool Id Addr Wire Payload Data Cause}
  {state after : DepositState Id Addr Wire Payload Data Cause}

/-- What a step of the task does with the refunds and the successes. -/
structure Refunds (pool : DepositPool Id Addr Wire Payload Data Cause)
    (state after : DepositState Id Addr Wire Payload Data Cause)
    (task task' : FlushTask Id Addr Data Cause) : Prop where
  owed : task.refunded ++ task'.owed pool = task.owed pool
  ledger : after.spendLedger =
    task.refunded.foldl (fun ledger deposit => ledger.release deposit.spend)
      state.spendLedger
  flushes : after.flushes = state.flushes
  processed : state.processedDeposits ⊆ after.processedDeposits
  recorded : ∀ id ∈ task.reported,
    id ∈ after.processedDeposits ∨ id ∈ task'.reported
  answered : task'.IsAnswered

theorem settleTask_refunds {task task' : FlushTask Id Addr Data Cause}
    (hsettle : state.settleTask pool task = some (after, task')) :
    Refunds pool state after task task' := by
  cases task with
  | calling batch => cases hsettle
  | singleFunded deposit =>
      cases hsettle
      refine ⟨rfl, rfl, rfl, Finset.subset_insert _ _, ?_, trivial⟩
      intro id hid
      left
      rw [List.mem_singleton.mp hid]
      exact Finset.mem_insert_self _ _
  | singleRecorded deposit =>
      cases hsettle
      exact ⟨rfl, rfl, rfl, subset_rfl, fun _ hid => Or.inr hid, trivial⟩
  | singleFailed deposit error =>
      simp only [settleTask] at hsettle
      cases hsettle
      cases hfree : error.movedNoFunds pool.errorMovedNoFunds with
      | true =>
          refine ⟨?_, rfl, rfl, subset_rfl, fun _ hid => Or.inr hid, trivial⟩
          simp [FlushTask.owed, FlushTask.refunded, hfree]
      | false =>
          refine ⟨?_, rfl, rfl, subset_rfl, fun _ hid => Or.inr hid, trivial⟩
          simp [FlushTask.owed, FlushTask.refunded, hfree]
  | releasing batch remaining outcomes =>
      cases remaining with
      | nil =>
          cases hsettle
          exact ⟨rfl, rfl, rfl, subset_rfl, fun _ hid => Or.inr hid, trivial⟩
      | cons deposit remaining =>
          cases hsettle
          exact ⟨rfl, rfl, rfl, subset_rfl, fun _ hid => Or.inr hid, trivial⟩
  | recording batch outcomesLen outcomes tally =>
      cases outcomes with
      | nil =>
          cases hsettle
          exact ⟨rfl, rfl, rfl, subset_rfl, fun _ hid => Or.inr hid, trivial⟩
      | cons outcome outcomes =>
          cases hsettle
          cases outcome with
          | error error =>
              exact ⟨rfl, rfl, rfl, subset_rfl, fun _ hid => Or.inr hid,
                trivial⟩
          | ok settled =>
              refine ⟨rfl, rfl, rfl, Finset.subset_insert _ _, ?_, trivial⟩
              intro id hid
              rcases List.mem_cons.mp hid with hsame | hlater
              · left
                rw [hsame]
                exact Finset.mem_insert_self _ _
              · exact Or.inr hlater
  | failedReleasing batch remaining error =>
      cases remaining with
      | nil =>
          simp only [settleTask] at hsettle
          cases hsettle
          cases hfree : error.movedNoFunds pool.errorMovedNoFunds with
          | true =>
              refine ⟨?_, rfl, rfl, subset_rfl, fun _ hid => Or.inr hid, trivial⟩
              simp [FlushTask.owed, FlushTask.refunded, hfree]
          | false =>
              refine ⟨?_, rfl, rfl, subset_rfl, fun _ hid => Or.inr hid, trivial⟩
              simp [FlushTask.owed, FlushTask.refunded, hfree]
      | cons deposit remaining =>
          cases hsettle
          exact ⟨rfl, rfl, rfl, subset_rfl, fun _ hid => Or.inr hid, trivial⟩
  | refunding remaining =>
      cases remaining with
      | nil =>
          cases hsettle
          exact ⟨rfl, rfl, rfl, subset_rfl, fun _ hid => Or.inr hid, trivial⟩
      | cons deposit remaining =>
          cases hsettle
          exact ⟨rfl, rfl, rfl, subset_rfl, fun _ hid => Or.inr hid, trivial⟩
  | done => cases hsettle

/-! ## The tally of an answer -/

omit [DecidableEq Addr] in
theorem foldl_tallyOutcome (pool : DepositPool Id Addr Wire Payload Data Cause)
    (batch : List (BufferedDeposit Id Addr Data))
    (outcomes : List (Except (StrategyError Cause) Id)) (tally : BatchTally Id) :
    outcomes.foldl (tallyOutcome pool batch) tally =
      { settled := tally.settled ∪
          ((okIds outcomes).filter (· ∈ batch.map (·.id))).toFinset
        failures := tally.failures + (failuresOf outcomes).length
        everythingFailedFundFree := tally.everythingFailedFundFree &&
          (failuresOf outcomes).all fun error =>
            error.movedNoFunds pool.errorMovedNoFunds } := by
  induction outcomes generalizing tally with
  | nil => simp [okIds, failuresOf]
  | cons outcome rest ih =>
      rw [List.foldl_cons, ih]
      cases outcome with
      | error error =>
          rw [okIds_error, failuresOf_error, List.length_cons, List.all_cons,
            tallyOutcome, Bool.and_assoc, Nat.add_assoc, Nat.add_comm 1]
      | ok id =>
          rw [okIds_ok, failuresOf_ok]
          by_cases hid : id ∈ batch.map (·.id)
          · rw [List.filter_cons, if_pos (decide_eq_true hid),
              List.toFinset_cons, Finset.union_insert, tallyOutcome,
              if_pos hid, Finset.insert_union]
          · rw [List.filter_cons_of_neg (by simpa using hid), tallyOutcome,
              if_neg hid]

omit [DecidableEq Addr] in
/-- The successes of the batch and the deposits without one make it up. -/
theorem card_settled_add (batch : List (BufferedDeposit Id Addr Data))
    (outcomes : List (Except (StrategyError Cause) Id))
    (hdistinct : (batch.map (·.id)).Nodup) :
    ((okIds outcomes).filter (· ∈ batch.map (·.id))).toFinset.card +
      (withoutSuccess batch outcomes).length = batch.length := by
  have hsettled : ((okIds outcomes).filter
      (· ∈ batch.map (·.id))).toFinset =
        ((batch.map (·.id)).filter (· ∈ okIds outcomes)).toFinset := by
    ext id
    simp only [List.mem_toFinset, List.mem_filter, decide_eq_true_eq]
    exact and_comm
  have hsplit : batch.length =
      (batch.filter fun deposit => deposit.id ∈ okIds outcomes).length +
        (withoutSuccess batch outcomes).length := by
    rw [List.length_eq_length_filter_add (l := batch)
      fun deposit => decide (deposit.id ∈ okIds outcomes)]
    simp [withoutSuccess]
  rw [hsplit, hsettled, List.toFinset_card_of_nodup (hdistinct.filter _),
    List.filter_map, List.length_map]
  rfl

omit [DecidableEq Addr] in
/-- A batch hands reservations back only where the answer proves it. -/
theorem batchRefunds_sound {batch : List (BufferedDeposit Id Addr Data)}
    {outcomes : List (Except (StrategyError Cause) Id)}
    (hdistinct : (batch.map (·.id)).Nodup)
    {deposit : BufferedDeposit Id Addr Data}
    (hdeposit : deposit ∈ batchRefunds batch outcomes.length
      (outcomes.foldl (tallyOutcome pool batch) ⟨∅, 0, true⟩)) :
    deposit.id ∉ okIds outcomes ∧ ProvesFundFree pool batch outcomes := by
  rw [foldl_tallyOutcome] at hdeposit
  unfold batchRefunds at hdeposit
  split at hdeposit
  · next hrefund =>
      simp only [Finset.empty_union, Nat.zero_add, Bool.true_and] at hrefund
      obtain ⟨hfree, -, hpaired⟩ := hrefund
      have hcard := card_settled_add batch outcomes hdistinct
      obtain ⟨hmem, hsettled⟩ := List.mem_filter.mp hdeposit
      refine ⟨?_, ?_, by omega⟩
      · intro hok
        simp only [Finset.empty_union, decide_eq_true_eq, List.mem_toFinset,
          List.mem_filter] at hsettled
        exact hsettled ⟨hok, List.mem_map_of_mem hmem⟩
      · exact List.all_eq_true.mp hfree
  · cases hdeposit

omit [DecidableEq Addr] in
theorem batchRefunds_sublist (batch : List (BufferedDeposit Id Addr Data))
    (outcomesLen : ℕ) (tally : BatchTally Id) :
    (batchRefunds batch outcomesLen tally).Sublist batch := by
  unfold batchRefunds
  split
  · exact List.filter_sublist
  · exact List.nil_sublist batch

/-- The deposits whose reservations a step of the flush hands back. -/
def refundedBy (index : ℕ)
    (state : DepositState Id Addr Wire Payload Data Cause) :
    DepositAction Id Wire Payload Cause → List (BufferedDeposit Id Addr Data)
  | .settle task =>
      if task = index then
        ((state.flushes[index]?).map FlushTask.refunded).getD []
      else []
  | _ => []

variable (cfg pool) in
/-- The deposits whose reservations the flush hands back during a run. -/
def refundsIn (index : ℕ) :
    DepositState Id Addr Wire Payload Data Cause →
      List (DepositAction Id Wire Payload Cause) →
        List (BufferedDeposit Id Addr Data)
  | _, [] => []
  | state, action :: rest =>
      refundedBy index state action ++
        ((state.next cfg pool action).elim [] fun after =>
          refundsIn index after rest)

/-! ## The flush within a run -/

omit [DecidableEq Addr] in
/-- The handler leaves the flushes and the processed deposits alone. -/
theorem receive_kept (event : NewDepositAddress Id Wire Payload) :
    (state.receive cfg event).flushes = state.flushes ∧
      (state.receive cfg event).processedDeposits =
        state.processedDeposits := by
  unfold receive
  split
  · exact ⟨rfl, rfl⟩
  · dsimp only
    split
    · exact ⟨rfl, rfl⟩
    · exact ⟨rfl, rfl⟩

omit [DecidableEq Id] [DecidableEq Addr] in
theorem checkSpend_kept (event : NewDepositAddress Id Wire Payload)
    (target : HoprBalance) (now : ℕ) :
    (state.checkSpend cfg event target now).flushes = state.flushes ∧
      (state.checkSpend cfg event target now).processedDeposits =
        state.processedDeposits := by
  unfold checkSpend
  dsimp only
  split
  · exact ⟨rfl, rfl⟩
  · exact ⟨rfl, rfl⟩

theorem checkDestination_kept (event : NewDepositAddress Id Wire Payload)
    (target : HoprBalance) :
    (state.checkDestination pool event target).flushes = state.flushes ∧
      (state.checkDestination pool event target).processedDeposits =
        state.processedDeposits := by
  unfold checkDestination
  split
  · exact ⟨rfl, rfl⟩
  · split
    · exact ⟨rfl, rfl⟩
    · split
      · exact ⟨rfl, rfl⟩
      · split
        · exact ⟨rfl, rfl⟩
        · exact ⟨rfl, rfl⟩

/-- Where the flush stands after a step, and what the step has done for it. -/
structure Followed (pool : DepositPool Id Addr Wire Payload Data Cause)
    (refunded : List (BufferedDeposit Id Addr Data))
    (state after : DepositState Id Addr Wire Payload Data Cause) (index : ℕ)
    (task task' : FlushTask Id Addr Data Cause) : Prop where
  stands : after.flushes[index]? = some task'
  answered : task'.IsAnswered
  owed : refunded ++ task'.owed pool = task.owed pool
  processed : state.processedDeposits ⊆ after.processedDeposits
  recorded : ∀ id ∈ task.reported,
    id ∈ after.processedDeposits ∨ id ∈ task'.reported

section

variable {index : ℕ} {task : FlushTask Id Addr Data Cause}

omit [DecidableEq Addr] in
/-- A step which does nothing for the flush. -/
theorem Followed.kept (htask : after.flushes[index]? = some task)
    (hanswered : task.IsAnswered)
    (hprocessed : state.processedDeposits ⊆ after.processedDeposits) :
    Followed pool [] state after index task task where
  stands := htask
  answered := hanswered
  owed := rfl
  processed := hprocessed
  recorded := fun _ hid => Or.inr hid

omit [DecidableEq Addr] in
theorem Followed.kept_of_eq (htask : state.flushes[index]? = some task)
    (hanswered : task.IsAnswered)
    (hkept : after.flushes = state.flushes ∧
      after.processedDeposits = state.processedDeposits) :
    Followed pool [] state after index task task := by
  apply Followed.kept _ hanswered
  · rw [hkept.2]
  · rw [hkept.1]
    exact htask

theorem settle_followed {settled : ℕ}
    (htask : state.flushes[index]? = some task)
    (hanswered : task.IsAnswered)
    (hnext : state.next cfg pool (.settle settled) = some after) :
    ∃ task', Followed pool (refundedBy index state
      (.settle settled : DepositAction Id Wire Payload Cause)) state after
        index task task' := by
  simp only [next] at hnext
  split at hnext
  · next running hrunning =>
      split at hnext
      · next middle task' hsettle =>
          cases hnext
          have hstep := settleTask_refunds hsettle
          rw [hstep.flushes]
          by_cases hsame : settled = index
          · subst hsame
            have hequal : running = task :=
              Option.some.inj (hrunning.symm.trans htask)
            rw [hequal] at hstep
            refine ⟨task', ?_, hstep.answered, ?_, hstep.processed,
              hstep.recorded⟩
            · exact List.getElem?_set_self
                (List.getElem?_eq_some_iff.mp htask).1
            · rw [refundedBy, if_pos rfl, htask]
              exact hstep.owed
          · refine ⟨task, ?_⟩
            rw [refundedBy, if_neg hsame]
            refine Followed.kept ?_ hanswered hstep.processed
            rw [List.getElem?_set_ne hsame]
            exact htask
      · cases hnext
  · cases hnext

theorem next_followed {action : DepositAction Id Wire Payload Cause}
    (htask : state.flushes[index]? = some task)
    (hanswered : task.IsAnswered)
    (hnext : state.next cfg pool action = some after) :
    ∃ task', Followed pool (refundedBy index state action) state after index
      task task' := by
  cases action with
  | settle settled => exact settle_followed htask hanswered hnext
  | receive event =>
      simp only [next] at hnext
      split at hnext
      · cases hnext
        exact ⟨task, .kept_of_eq htask hanswered (receive_kept event)⟩
      · cases hnext
  | checkSpend now =>
      simp only [next] at hnext
      split at hnext
      · cases hnext
        exact ⟨task, .kept_of_eq htask hanswered (checkSpend_kept _ _ now)⟩
      · cases hnext
  | checkDestination =>
      simp only [next] at hnext
      split at hnext
      · cases hnext
        exact ⟨task, .kept_of_eq htask hanswered (checkDestination_kept _ _)⟩
      · cases hnext
  | claim =>
      simp only [next] at hnext
      split at hnext
      · cases hnext
        exact ⟨task, .kept_of_eq htask hanswered ⟨rfl, rfl⟩⟩
      · cases hnext
  | reserve now =>
      simp only [next] at hnext
      split at hnext
      · cases hnext
        exact ⟨task, .kept_of_eq htask hanswered ⟨rfl, rfl⟩⟩
      · cases hnext
  | push =>
      simp only [next] at hnext
      split at hnext
      · cases hnext
        exact ⟨task, .kept_of_eq htask hanswered ⟨rfl, rfl⟩⟩
      · cases hnext
  | flush =>
      simp only [next] at hnext
      split at hnext
      · cases hnext
        refine ⟨task, .kept ?_ hanswered subset_rfl⟩
        rw [List.getElem?_append_left (List.getElem?_eq_some_iff.mp htask).1]
        exact htask
      · cases hnext
  | answer answered reply =>
      simp only [next] at hnext
      split at hnext
      · next batch hcalling =>
          split at hnext
          · cases hnext
            refine ⟨task, .kept ?_ hanswered subset_rfl⟩
            have hother : answered ≠ index := by
              intro hsame
              rw [hsame, htask] at hcalling
              rw [Option.some.inj hcalling] at hanswered
              exact hanswered
            rw [List.getElem?_set_ne hother]
            exact htask
          · cases hnext
      · cases hnext

/-- What a run hands back of what the flush owes, and what it records. -/
theorem run_followed {actions : List (DepositAction Id Wire Payload Cause)}
    (htask : state.flushes[index]? = some task)
    (hanswered : task.IsAnswered)
    (hrun : (depositSystem cfg pool).run state actions = some after) :
    ∃ task', Followed pool (refundsIn cfg pool index state actions) state after
      index task task' := by
  induction actions generalizing state task with
  | nil =>
      cases hrun
      exact ⟨task, .kept htask hanswered subset_rfl⟩
  | cons action rest ih =>
      obtain ⟨middle, hnext, hrest⟩ := TransitionSystem.run_cons.mp hrun
      have hstep : state.next cfg pool action = some middle := hnext
      obtain ⟨between, hfirst⟩ := next_followed htask hanswered hstep
      obtain ⟨task', hthen⟩ := ih hfirst.stands hfirst.answered hrest
      refine ⟨task', hthen.stands, hthen.answered, ?_,
        hfirst.processed.trans hthen.processed, ?_⟩
      · rw [refundsIn, hstep, Option.elim_some, List.append_assoc, hthen.owed,
          hfirst.owed]
      · intro id hid
        rcases hfirst.recorded id hid with hdone | hleft
        · exact Or.inl (hthen.processed hdone)
        · exact hthen.recorded id hleft

end

/-! ## The refunds of an answer -/

section

variable {batch : List (BufferedDeposit Id Addr Data)}

omit [DecidableEq Id] [DecidableEq Addr] in
theorem okIds_failures (batch : List (BufferedDeposit Id Addr Data))
    (error : StrategyError Cause) :
    okIds (batch.map fun _ =>
      (.error error : Except (StrategyError Cause) Id)) = [] := by
  rw [okIds, List.filterMap_map]
  exact List.filterMap_eq_nil_iff.mpr fun _ _ => rfl

omit [DecidableEq Id] [DecidableEq Addr] in
theorem failuresOf_failures (batch : List (BufferedDeposit Id Addr Data))
    (error : StrategyError Cause) :
    failuresOf (batch.map fun _ =>
      (.error error : Except (StrategyError Cause) Id)) =
        batch.map fun _ => error := by
  rw [failuresOf, List.filterMap_map]
  exact congrFun List.filterMap_eq_map batch

omit [DecidableEq Addr] in
/-- One fund-free failure for every deposit. -/
theorem provesFundFree_failures {error : StrategyError Cause}
    (hfree : error.movedNoFunds pool.errorMovedNoFunds = true) :
    ProvesFundFree pool batch (batch.map fun _ => .error error) where
  fundFree := by
    intro other hother
    rw [failuresOf_failures] at hother
    obtain ⟨deposit, -, hsame⟩ := List.mem_map.mp hother
    rw [← hsame]
    exact hfree
  paired := by
    rw [failuresOf_failures, withoutSuccess, okIds_failures, List.length_map]
    simp

/-- What a flush owes and what it has to record, once it is answered. -/
structure OwesByAnswer (pool : DepositPool Id Addr Wire Payload Data Cause)
    (batch : List (BufferedDeposit Id Addr Data))
    (outcomes : List (Except (StrategyError Cause) Id))
    (task : FlushTask Id Addr Data Cause) : Prop where
  answered : task.IsAnswered
  sublist : (task.owed pool).Sublist batch
  sound : ∀ deposit ∈ task.owed pool,
    deposit.id ∉ okIds outcomes ∧ ProvesFundFree pool batch outcomes
  reported : okIds outcomes ⊆ task.reported

omit [DecidableEq Addr] in
/-- All deposits of a batch which failed as a whole, or none. -/
theorem owesByAnswer_failures {error : StrategyError Cause}
    {task : FlushTask Id Addr Data Cause}
    (hanswered : task.IsAnswered)
    (howed : task.owed pool =
      if error.movedNoFunds pool.errorMovedNoFunds then batch else []) :
    OwesByAnswer pool batch (batch.map fun _ => .error error) task where
  answered := hanswered
  sublist := by
    rw [howed]
    split
    · exact List.Sublist.refl batch
    · exact List.nil_sublist batch
  sound := by
    intro deposit hdeposit
    rw [howed] at hdeposit
    split at hdeposit
    · next hfree =>
        rw [okIds_failures]
        exact ⟨List.not_mem_nil, provesFundFree_failures hfree⟩
    · cases hdeposit
  reported := by
    rw [okIds_failures]
    exact List.nil_subset _

omit [DecidableEq Addr] in
theorem owesByAnswer_outcomes {outcomes : List (Except (StrategyError Cause) Id)}
    (hdistinct : (batch.map (·.id)).Nodup) :
    OwesByAnswer pool batch outcomes (.releasing batch batch outcomes) where
  answered := trivial
  sublist := batchRefunds_sublist batch _ _
  sound := fun _ hdeposit => batchRefunds_sound hdistinct hdeposit
  reported := List.Subset.refl _

omit [DecidableEq Addr] in
theorem answered_owes (hdistinct : (batch.map (·.id)).Nodup)
    {reply : PoolReply Id Cause} {task : FlushTask Id Addr Data Cause}
    (hanswered : answered batch reply = some task) :
    OwesByAnswer pool batch (reply.outcomes batch) task := by
  cases reply with
  | single result =>
      match batch, result, hanswered with
      | [deposit], .ok (), hanswered =>
          cases hanswered
          refine ⟨trivial, List.nil_sublist _, ?_, List.Subset.refl _⟩
          intro deposit hdeposit
          cases hdeposit
      | [deposit], .error error, hanswered =>
          cases hanswered
          exact owesByAnswer_failures trivial rfl
  | multiple result =>
      match batch, result, hanswered with
      | [], .ok outcomes, hanswered =>
          cases hanswered
          exact owesByAnswer_outcomes hdistinct
      | [], .error error, hanswered =>
          cases hanswered
          exact owesByAnswer_failures trivial rfl
      | _ :: _ :: _, .ok outcomes, hanswered =>
          cases hanswered
          exact owesByAnswer_outcomes hdistinct
      | _ :: _ :: _, .error error, hanswered =>
          cases hanswered
          exact owesByAnswer_failures trivial rfl

end

/-- The ledger of a flush step loses the reservations which are handed back,
and no others. -/
theorem settle_ledger {index : ℕ}
    (hnext : state.next cfg pool (.settle index) = some after) :
    after.spendLedger = (refundedBy index state
      (.settle index : DepositAction Id Wire Payload Cause)).foldl
        (fun ledger deposit => ledger.release deposit.spend)
          state.spendLedger := by
  simp only [next] at hnext
  split at hnext
  · next running hrunning =>
      split at hnext
      · next middle task' hsettle =>
          cases hnext
          rw [refundedBy, if_pos rfl, hrunning]
          exact (settleTask_refunds hsettle).ledger
      · cases hnext
  · cases hnext

/-- A flush hands each reservation back once at most, and only when the answer
proves that its deposit moved no funds; every reported success is recorded. -/
theorem flushRefunds_sound {index : ℕ}
    {batch : List (BufferedDeposit Id Addr Data)} {reply : PoolReply Id Cause}
    {actions : List (DepositAction Id Wire Payload Cause)}
    (hdistinct : (batch.map (·.id)).Nodup)
    (hcalling : state.flushes[index]? = some (.calling batch))
    (hrun : (depositSystem cfg pool).run state
      (.answer index reply :: actions) = some after) :
    (refundsIn cfg pool index state (.answer index reply :: actions)).Sublist
        batch ∧
      ((refundsIn cfg pool index state
        (.answer index reply :: actions)).map (·.id)).Nodup ∧
      (∀ deposit ∈
          refundsIn cfg pool index state (.answer index reply :: actions),
        deposit.id ∉ okIds (reply.outcomes batch) ∧
          ProvesFundFree pool batch (reply.outcomes batch)) ∧
      (after.flushes[index]? = some .done →
        ∀ id ∈ okIds (reply.outcomes batch), id ∈ after.processedDeposits) ∧
      ∀ before next : DepositState Id Addr Wire Payload Data Cause,
        before.next cfg pool (.settle index) = some next →
          next.spendLedger = (refundedBy index before
            (.settle index : DepositAction Id Wire Payload Cause)).foldl
              (fun ledger deposit => ledger.release deposit.spend)
                before.spendLedger := by
  obtain ⟨middle, hanswer, hrest⟩ := TransitionSystem.run_cons.mp hrun
  have hfirst : state.next cfg pool (.answer index reply) = some middle :=
    hanswer
  have hstart : ∃ task, OwesByAnswer pool batch (reply.outcomes batch) task ∧
      middle.flushes[index]? = some task := by
    simp only [next, hcalling] at hfirst
    split at hfirst
    · next task htask =>
        cases hfirst
        exact ⟨task, answered_owes hdistinct htask, List.getElem?_set_self
          (List.getElem?_eq_some_iff.mp hcalling).1⟩
    · cases hfirst
  obtain ⟨task, howes, hstands⟩ := hstart
  obtain ⟨task', hfollowed⟩ := run_followed hstands howes.answered hrest
  have hrefunds :
      refundsIn cfg pool index state (.answer index reply :: actions) =
        refundsIn cfg pool index middle actions := by
    rw [refundsIn, hfirst]
    rfl
  have hmade : refundsIn cfg pool index middle actions <+: task.owed pool :=
    ⟨_, hfollowed.owed⟩
  rw [hrefunds]
  have hpart : (refundsIn cfg pool index middle actions).Sublist batch :=
    hmade.sublist.trans howes.sublist
  refine ⟨hpart, (hpart.map _).nodup hdistinct,
    fun deposit hdeposit => howes.sound deposit (hmade.subset hdeposit), ?_,
    fun _ _ hnext => settle_ledger hnext⟩
  intro hdone id hid
  rcases hfollowed.recorded id (howes.reported hid) with hrecorded | hleft
  · exact hrecorded
  · have hend : task' = .done :=
      Option.some.inj (hfollowed.stands.symm.trans hdone)
    rw [hend] at hleft
    cases hleft

/-- A deposit of one to the destination of its own number. -/
def heldDeposit (id : ℕ) (seq : UInt64) : BufferedDeposit ℕ ℕ Unit :=
  ⟨id, id, HoprBalance.saturating 1, (), ⟨0, HoprBalance.saturating 1, (seq, seq)⟩⟩

/-- Two deposits whose flush waits for the pool. -/
def twoHeld : DepositState ℕ ℕ ℕ Unit Unit Unit :=
  { initial with
    inFlightDestinations := {1, 2}
    flushes := [.calling [heldDeposit 1 0, heldDeposit 2 1]] }

/-- The answer names the first deposit and refuses the other: the reservation
of the other is handed back. -/
theorem flushRefunds_sound_refused :
    ∃ after : DepositState ℕ ℕ ℕ Unit Unit Unit,
      refundsIn unitPrice openPool 0 twoHeld
          (.answer 0 (.multiple (.ok [.error (.generalError .invalidInput),
            .ok 1])) :: List.replicate 8 (.settle 0)) = [heldDeposit 2 1] ∧
        (2 ∉ okIds [.error (.generalError .invalidInput),
          (.ok 1 : Except (StrategyError Unit) ℕ)]) ∧
        1 ∈ after.processedDeposits := by
  obtain ⟨-, -, hrefunded, hrecorded, -⟩ :=
    flushRefunds_sound (by decide : ([heldDeposit 1 0, heldDeposit 2 1].map
      (·.id)).Nodup) (rfl : twoHeld.flushes[0]? = _)
      (rfl : (depositSystem unitPrice openPool).run twoHeld
        (.answer 0 (.multiple (.ok [.error (.generalError .invalidInput),
          .ok 1])) :: List.replicate 8 (.settle 0)) = some _)
  exact ⟨_, rfl, (hrefunded (heldDeposit 2 1) List.mem_cons_self).1,
    hrecorded rfl 1 List.mem_cons_self⟩

end DepositState

end HoprStrategy.Pix
