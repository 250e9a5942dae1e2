import HoprStrategy.CurvyRefundClasses
import HoprStrategy.CurvyRefundRuns

/-!
# Refunds of a call of the pool

The pool's `allocate` funds the pool first and then allocates its deposits;
an attempt which meets a lag is repeated until a deadline.  A call which fails
with an error that proves no funds moved leaves no aggregation of its deposits
which it submitted, resumed or completed: each was given up, on a report that
it was refused or has failed, and not touched again.  The exception is a
journalled aggregation which is refused a new proof while the pool is funded.
-/

namespace HoprStrategy.Curvy

open Library SdkWorld Refund

/-! ## The call -/

/-- Whether the pool is `funded`, or how the call has ended. -/
inductive AllocateState where
  | attempting (funded : Bool)
  | ended (result : Except (StrategyError Cause) Unit)

namespace AllocateState

/-- `ensure_reconciled` comes first. -/
def start : Except Refund.CurvyDepositPoolError Unit → AllocateState
  | .ok _ => .attempting false
  | .error error => .ended (.error (.other (.pool error)))

/-- After an operation of the adapter. -/
def next (result : Except SdkError Unit) (beforeDeadline : Bool) :
    AllocateState → AllocateState
  | .attempting funded =>
      match result with
      | .ok _ => if funded then .ended (.ok ()) else .attempting true
      | .error error =>
          if isRetryableLag error.display && beforeDeadline then
            .attempting funded
          else .ended (.error (.other (.pool (.adapter (.sdk error)))))
  | .ended result => .ended result

end AllocateState

structure CurvyDepositPool (Fr : Type) where
  config : SdkConfig Fr
  initialFunding : HoprBalance
  safeAddress : String

variable {Fr : Type} [DecidableEq Fr]

/-- What the adapter is asked for next. -/
def CurvyDepositPool.operation (pool : CurvyDepositPool Fr)
    (deposits : List Deposit) : Bool → SdkM Fr Unit
  | false =>
      SdkM.ensureFunded pool.config pool.initialFunding pool.safeAddress
  | true => SdkM.allocate pool.config deposits

def outcomeOf {ε α : Type} : Except ε α → Outcome ε α
  | .ok value => .returned value
  | .error error => .failed error

/-- While the deposits are allocated the SDK may refuse any proof. -/
def mayRefuseWhile (refuses : Prop) : Bool → Prop
  | false => refuses
  | true => True

/-- A call of `allocate`, up to any point between two operations.  `refuses`
says whether the SDK may refuse a proof while the pool is funded. -/
inductive Called (pool : CurvyDepositPool Fr) (deposits : List Deposit)
    (refuses : Prop) (reconciled : Except Refund.CurvyDepositPoolError Unit)
    (before : SdkWorld Fr) : SdkWorld Fr → AllocateState → Prop
  | start :
      Called pool deposits refuses reconciled before before (.start reconciled)
  | operated {world after : SdkWorld Fr} {funded : Bool}
      (result : Except SdkError Unit) (beforeDeadline : Bool)
      (hcalled : Called pool deposits refuses reconciled before world
        (.attempting funded))
      (hruns : (pool.operation deposits funded).Runs
        (wordedEnvironment (mayRefuseWhile refuses funded)) world.resumed
        (outcomeOf result) after) :
      Called pool deposits refuses reconciled before after
        ((AllocateState.attempting funded).next result beforeDeadline)

/-- A call begins over a durable state: the journals in memory are the stored
ones, and the attempts of each compete. -/
structure Begins (world : SdkWorld Fr) : Prop where
  halted : Halted world
  relay : world.memory.relayAggregations = world.disk.relayAggregations
  operator :
    world.memory.operatorAggregations = world.disk.operatorAggregations
  competing : world.disk.Competing
  history : world.history = []

/-! ## Between two operations -/

/-- While the pool is funded, a deposit whose aggregation may be refused a
proof is in no journal. -/
def fundingTerms (deposits : List Deposit) (refuses : Prop) : Terms where
  named id := refuses → ∀ deposit ∈ deposits, deposit.id ≠ id
  refuses := refuses
  submits := False

/-- While deposits are allocated every allocation may be named. -/
def allocatingTerms : Terms where
  named _ := True
  refuses := True
  submits := True

section

variable {pool : CurvyDepositPool Fr}
  {deposits : List Deposit} {refuses : Prop} {start : SdkState}
  {world after : SdkWorld Fr}

/-- Between two operations of a call. -/
structure Pending (deposits : List Deposit) (refuses : Prop)
    (start : SdkState) (world : SdkWorld Fr) (funded : Bool) : Prop where
  tracked : Tracked start world
  halted : Halted world
  reported : GivenUpReported start world.history
  funding : funded = false →
    Displays (fundingTerms deposits refuses) start world.resumed

/-- Every aggregation of the allocation which was submitted, resumed or
completed was given up afterwards, and none is left. -/
structure GivenUpSince (start : SdkState) (world : SdkWorld Fr)
    (id : PixAddressId) : Prop where
  givenUp : id ∈ givenUp start world.history
  untouched : id ∉ unreleased start world.history
  notHeld : ¬ Held world id

/-- An error which proves that no funds moved is returned only if every
aggregation of the deposits which was submitted, resumed or completed was given
up, and an aggregation is given up only on a report of it. -/
structure Refunds (deposits : List Deposit) (start : SdkState)
    (world : SdkWorld Fr) (error : StrategyError Cause) : Prop where
  givenUp : error.movedNoFunds errorMovedNoFunds = true →
    ∀ deposit ∈ deposits, deposit.id ∈ touched start world.history →
      GivenUpSince start world deposit.id
  reported : GivenUpReported start world.history

/-- What is known of a call. -/
def CallInvariant (deposits : List Deposit) (refuses : Prop)
    (start : SdkState) (world : SdkWorld Fr) : AllocateState → Prop
  | .attempting funded => Pending deposits refuses start world funded
  | .ended (.error error) => Refunds deposits start world error
  | .ended (.ok _) => True

/-- An operation which obeys its guard is tracked, and gives nothing up without
a report. -/
theorem Tracked.run {program : SdkM Fr Unit} {config : SdkConfig Fr}
    {outcome : Outcome SdkError Unit}
    (htracked : Tracked start world) (hhalted : Halted world)
    (hreported : GivenUpReported start world.history)
    (hobeys : Obeyed config False program
      (fun _ last => last.phase = .settled) (fun _ last => Halted last)
      world.resumed)
    (hruns : program.Runs sdkEnvironment world.resumed outcome after) :
    Tracked start after ∧ GivenUpReported start after.history := by
  refine @Program.Runs.obeyed _ _ _ _ _ _ _ _ _ _ _
    (fun world => Tracked start world ∧ GivenUpReported start world.history)
    _ _ hruns hobeys ⟨htracked.resumed hhalted, hreported⟩ ?_
  rintro before request reply next ⟨hbefore, hgiven⟩ hguard henv
  have hstep := guardedStep_of_guard hguard henv
  exact ⟨hbefore.step hstep, hbefore.reported hgiven hstep⟩

theorem CurvyDepositPool.operation_obeys (funded : Bool) :
    Obeyed pool.config False (pool.operation deposits funded)
      (fun _ last => last.phase = .settled) (fun _ last => Halted last)
      world.resumed := by
  have hphase : world.resumed.phase = .settled := rfl
  cases funded with
  | false => exact ensureFunded_obeys hphase _ _
  | true => exact allocate_obeys hphase (by rintro ⟨⟩)

omit [DecidableEq Fr] in
theorem halted_of_ended {result : Except SdkError Unit}
    (hended : (outcomeOf result).Satisfies
      (fun _ (last : SdkWorld Fr) => last.phase = .settled)
      (fun _ last => Halted last) after) : Halted after := by
  cases result with
  | ok _ => exact Or.inl hended
  | error _ => exact hended

omit [DecidableEq Fr] in
/-- A failed operation is repeated, or ends the call. -/
theorem callInvariant_failed {funded beforeDeadline : Bool} {error : SdkError}
    (hpending : Pending deposits refuses start after funded)
    (hgivenUp : ¬ Steady error → ∀ deposit ∈ deposits,
      deposit.id ∈ touched start after.history →
        GivenUpSince start after deposit.id) :
    CallInvariant deposits refuses start after
      ((AllocateState.attempting funded).next (.error error)
        beforeDeadline) := by
  simp only [AllocateState.next]
  split
  · exact hpending
  · refine ⟨fun hfree => hgivenUp ?_, hpending.reported⟩
    rw [← movedNoFunds_adapter, Bool.not_eq_false]
    exact hfree

theorem fund_invariant {result : Except SdkError Unit} {beforeDeadline : Bool}
    (hbefore : Pending deposits refuses start world false)
    (hruns : (pool.operation deposits false).Runs (wordedEnvironment refuses)
      world.resumed (outcomeOf result) after) :
    CallInvariant deposits refuses start after
      ((AllocateState.attempting false).next result beforeDeadline) := by
  have hobeys : Obeyed pool.config False (pool.operation deposits false) _ _
      world.resumed := CurvyDepositPool.operation_obeys false
  have hplain := sdkEnvironment_of_worded hruns
  have hwatched : Watched (fundingTerms deposits refuses) refuses
      (pool.operation deposits false) fun _ => True :=
    ensureFunded_watched pool.config _ _ id
  obtain ⟨ended, hafter, houtcome⟩ :=
    hwatched.ends False.elim (hbefore.funding rfl) hruns
  obtain ⟨htracked, hreported⟩ :=
    hbefore.tracked.run hbefore.halted hbefore.reported hobeys hplain
  have hpending : Pending deposits refuses start after false :=
    { tracked := htracked
      halted := halted_of_ended (hplain.satisfies hobeys)
      reported := hreported
      funding := fun _ => hafter.begin }
  cases result with
  | ok _ => exact { hpending with funding := by rintro ⟨⟩ }
  | error error =>
      refine callInvariant_failed hpending fun hloose deposit hdeposit
        htouched => ?_
      rcases houtcome with hsteady | hsteady
      · have hrefuses := hsteady.resolve_right hloose
        exact absurd rfl (hafter.named _ htouched hrefuses deposit hdeposit)
      · exact absurd hsteady hloose

omit [DecidableEq Fr] in
theorem Tracked.displays (htracked : Tracked start world) :
    Displays allocatingTerms start world.resumed where
  stored := htracked.stored
  memory := fun _ _ _ _ => trivial
  disk := fun _ _ _ _ => trivial
  named := fun _ _ => trivial

omit [DecidableEq Fr] in
/-- An unfunded deposit is held nowhere. -/
theorem Unfunded.not_held (hunfunded : Unfunded deposits world)
    (htracked : Tracked start world) :
    ∀ deposit ∈ deposits, ¬ Held world deposit.id := by
  obtain ⟨hrelay, hoperator⟩ := htracked.journals (by
    simp [hunfunded.phase])
  rintro deposit hdeposit (hid | hid | hcompleted)
  · simp [SdkState.relayIds, ← hrelay, hunfunded.relay] at hid
  · simp [SdkState.operatorIds, ← hoperator, hunfunded.operator] at hid
  · exact hunfunded.uncompleted deposit hdeposit hcompleted

theorem allocate_invariant {result : Except SdkError Unit}
    {beforeDeadline : Bool}
    (hbefore : Pending deposits refuses start world true)
    (hruns : (pool.operation deposits true).Runs (wordedEnvironment True)
      world.resumed (outcomeOf result) after) :
    CallInvariant deposits refuses start after
      ((AllocateState.attempting true).next result beforeDeadline) := by
  have hobeys : Obeyed pool.config False (pool.operation deposits true) _ _
      world.resumed := CurvyDepositPool.operation_obeys true
  have hplain := sdkEnvironment_of_worded hruns
  have hnamed : ∀ id, allocatingTerms.named id := fun _ => trivial
  have hwatched : Watched allocatingTerms True (pool.operation deposits true)
      fun _ => True := allocate_watched hnamed trivial pool.config deposits
  have hdisplays := hbefore.tracked.displays
  obtain ⟨ended, hafter, houtcome⟩ :=
    hwatched.ends (fun _ => hnamed) hdisplays hruns
  obtain ⟨htracked, hreported⟩ :=
    hbefore.tracked.run hbefore.halted hbefore.reported hobeys hplain
  have hpending : Pending deposits refuses start after true :=
    { tracked := htracked
      halted := halted_of_ended (hplain.satisfies hobeys)
      reported := hreported
      funding := by rintro ⟨⟩ }
  cases result with
  | ok _ => trivial
  | error error =>
      refine callInvariant_failed hpending fun hloose deposit hdeposit
        htouched => ?_
      have hunfunded : Unfunded deposits after :=
        allocate_unfunded hnamed trivial hdisplays hloose rfl hruns
      have hleft := hunfunded.not_held htracked deposit hdeposit
      have hunreleased : deposit.id ∉ unreleased start after.history :=
        fun hid => hleft (htracked.held _ hid)
      exact
        { givenUp :=
            (mem_unreleased_or_givenUp htouched).resolve_left hunreleased
          untouched := hunreleased
          notHeld := hleft }

/-! ## A whole call -/

omit [DecidableEq Fr] in
theorem Begins.pending (hbegins : Begins world)
    (hrefuses : refuses →
      ∀ deposit ∈ deposits, deposit.id ∉ world.disk.relayIds) :
    Pending deposits refuses world.disk world false where
  tracked :=
    { stored := by rw [hbegins.history]; rfl
      journals := fun _ => ⟨hbegins.relay, hbegins.operator⟩
      competing := hbegins.competing
      held := by rw [hbegins.history]; rintro _ ⟨⟩ }
  halted := hbegins.halted
  reported := by
    rw [hbegins.history]
    trivial
  funding := by
    have hdisk : (fundingTerms deposits refuses).Admits world.disk := by
      rintro attempt hattempt id hid hmay deposit hdeposit rfl
      exact hrefuses hmay deposit hdeposit (List.mem_flatten.mpr
        ⟨_, List.mem_map_of_mem hattempt, hid⟩)
    intro _
    refine ⟨?_, ?_, hdisk, ?_⟩
    · change stored world.disk world.history = world.disk
      rw [hbegins.history]
      rfl
    · change ∀ attempt ∈ world.memory.relayAggregations, _
      rw [hbegins.relay]
      exact hdisk
    · change ∀ id ∈ touched world.disk world.history, _
      rw [hbegins.history]
      rintro _ ⟨⟩

theorem Called.invariant
    {reconciled : Except Refund.CurvyDepositPoolError Unit}
    {before : SdkWorld Fr} {state : AllocateState} (hbegins : Begins before)
    (hrefuses : refuses →
      ∀ deposit ∈ deposits, deposit.id ∉ before.disk.relayIds)
    (hcalled : Called pool deposits refuses reconciled before after state) :
    CallInvariant deposits refuses before.disk after state := by
  induction hcalled with
  | start =>
      cases reconciled with
      | ok _ => exact hbegins.pending hrefuses
      | error error =>
          rw [AllocateState.start, CallInvariant]
          constructor <;> rw [hbegins.history]
          · rintro _ _ _ ⟨⟩
          · trivial
  | @operated world after funded result beforeDeadline _ hruns ih =>
      cases funded with
      | false => exact fund_invariant ih hruns
      | true => exact allocate_invariant ih hruns

theorem Called.ofPool
    {reconciled : Except Refund.CurvyDepositPoolError Unit}
    {before : SdkWorld Fr} {state : AllocateState}
    (hcalled : Called pool deposits refuses reconciled before after state) :
    ∀ error, state = .ended (.error error) →
      ∃ cause, error = .other (.pool cause) := by
  cases hcalled with
  | start =>
      cases reconciled with
      | ok _ => rintro _ ⟨⟩
      | error cause =>
          rintro _ ⟨⟩
          exact ⟨cause, rfl⟩
  | @operated _ _ funded result beforeDeadline =>
      intro error hended
      cases result with
      | ok _ =>
          cases funded <;> cases hended
      | error cause =>
          simp only [AllocateState.next] at hended
          split at hended
          · cases hended
          · cases hended
            exact ⟨_, rfl⟩

/-- A call whose deposits are in no journal, unless no proof is refused while
the pool is funded, refunds only deposits of which no aggregation is left: all
it touched were given up, each on a report of it.  The copies of its error are
in the same class. -/
theorem refundClassification {texts : ErrorTexts}
    {reconciled : Except Refund.CurvyDepositPoolError Unit}
    {before : SdkWorld Fr} {error : StrategyError Cause}
    (hbegins : Begins before)
    (hrefuses : refuses →
      ∀ deposit ∈ deposits, deposit.id ∉ before.disk.relayIds)
    (hcalled : Called pool deposits refuses reconciled before after
      (.ended (.error error))) :
    Refunds deposits before.disk after error ∧
      (cloneError texts error).movedNoFunds errorMovedNoFunds =
        error.movedNoFunds errorMovedNoFunds := by
  constructor
  · exact hcalled.invariant hbegins hrefuses
  · obtain ⟨cause, rfl⟩ := hcalled.ofPool error rfl
    exact movedNoFunds_cloneError cause

end

/-! ## Where a call begins -/

omit [DecidableEq Fr] in
theorem Begins.agreeing {state : SdkState} (hcompeting : state.Competing)
    (records : AllocationTable) :
    Begins (SdkWorld.agreeing state records : SdkWorld Fr) :=
  ⟨Or.inl rfl, rfl, rfl, hcompeting, rfl⟩

/-! ## A submission which fails in a pool which is drained -/

theorem competing_fresh (spender : Option StoredSpender) :
    (SdkState.fresh spender).Competing :=
  ⟨by rintro _ ⟨⟩, by rintro _ ⟨⟩⟩

theorem worded_refusingAnswer (world : SdkWorld (Fin 10))
    (call : SdkCall (Fin 10)) :
    wordedEnvironment True world call (refusingAnswer world call).1
      (refusingAnswer world call).2 := by
  refine ⟨permits_refusingAnswer world call, fun text hfailure hrefusal => ?_⟩
  cases call with
  | buildPixAggregation => exact ⟨rfl, trivial⟩
  | _ => cases hfailure <;> exact absurd hrefusal (by decide)

def gasLag : String := "operator note does not cover the gas cost"

/-- The same chain, and an SDK which proves an aggregation and fails to submit
it. -/
def failingAnswer (world : SdkWorld (Fin 10)) (call : SdkCall (Fin 10)) :
    call.Reply × SdkWorld (Fin 10) :=
  let reply : call.Reply := match call with
    | .pixMinimumInput _ _ => .ok (1 : ℕ)
    | .buildPixAggregation _ _ _ _ =>
        .ok ⟨2, ⟨[], [], []⟩, [], "key", "spend", digitNote (digit 2) (digit 5),
          [digitNote (digit 3) (digit 4)], ⟨"pix", 1⟩⟩
    | .submitPixAggregation _ => .error ⟨gasLag, false⟩
    | call => (refusingAnswer world call).1
  (reply, world.after call reply)

theorem worded_failingAnswer (world : SdkWorld (Fin 10))
    (call : SdkCall (Fin 10)) :
    wordedEnvironment True world call (failingAnswer world call).1
      (failingAnswer world call).2 := by
  obtain ⟨⟨hpermits, _⟩, hworded⟩ := worded_refusingAnswer world call
  cases call with
  | buildPixAggregation =>
      exact ⟨⟨trivial, rfl⟩, fun text hfailure => by cases hfailure⟩
  | pixMinimumInput =>
      exact ⟨⟨trivial, rfl⟩, fun text hfailure => by cases hfailure⟩
  | submitPixAggregation =>
      refine ⟨⟨trivial, rfl⟩, fun text hfailure hrefusal => ?_⟩
      cases hfailure
      exact absurd hrefusal (by decide +kernel)
  | _ => exact ⟨⟨hpermits, rfl⟩, hworded⟩

/-- A run which ends so is a run of the pool. -/
theorem runs_of_play {program : SdkM (Fin 10) Unit}
    {world : SdkWorld (Fin 10)} {outcome : Outcome SdkError Unit}
    {answer : SdkWorld (Fin 10) → (call : SdkCall (Fin 10)) →
      call.Reply × SdkWorld (Fin 10)}
    (hworded : ∀ world call, wordedEnvironment True world call
      (answer world call).1 (answer world call).2)
    (hplay : (program.play answer world).1 = outcome) :
    program.Runs (wordedEnvironment True) world outcome
      (program.play answer world).2 := by
  subst hplay
  exact Program.play_runs answer hworded program world

def digitPool (submission : CurvySubmission) : CurvyDepositPool (Fin 10) where
  config := digitConfig submission
  initialFunding := .saturating 9
  safeAddress := "recovery"

/-- The float is shielded. -/
def floatedWorld : SdkWorld (Fin 10) :=
  (((digitPool .operator).operation [openDeposit] false).play refusingAnswer
    (SdkWorld.agreeing (.fresh none) .empty).resumed).2

/-- The deposit is journalled, its submission fails, and it is given up. -/
def failedWorld : SdkWorld (Fin 10) :=
  (((digitPool .operator).operation [openDeposit] true).play failingAnswer
    floatedWorld.resumed).2

/-- At the next attempt the float is too small. -/
def drainedWorld : SdkWorld (Fin 10) :=
  (((digitPool .operator).operation [openDeposit] true).play refusingAnswer
    failedWorld.resumed).2

theorem called_drainedWorld :
    Called (digitPool .operator) [openDeposit] True (.ok ())
      (.agreeing (.fresh none) .empty) drainedWorld
      (.ended (.error (.other (.pool (.adapter (.sdk (.noFunding 20))))))) := by
  have hfunded : (((digitPool .operator).operation [openDeposit] false).play
      refusingAnswer (SdkWorld.agreeing (.fresh none) .empty).resumed).1 =
      .returned () := by decide +kernel
  have hfailed : (((digitPool .operator).operation [openDeposit] true).play
      failingAnswer floatedWorld.resumed).1 = .failed (.sdk gasLag) := by
    decide +kernel
  have hdrained : (((digitPool .operator).operation [openDeposit] true).play
      refusingAnswer failedWorld.resumed).1 = .failed (.noFunding 20) := by
    decide +kernel
  have hrepeated : (AllocateState.attempting true).next
      (.error (.sdk gasLag)) true = .attempting true := by
    have hlag : isRetryableLag (SdkError.sdk gasLag).display = true := by
      decide +kernel
    simp only [AllocateState.next, hlag, Bool.and_self, if_true]
  have hended : (AllocateState.attempting true).next
      (.error (.noFunding 20)) false =
      .ended (.error (.other (.pool (.adapter (.sdk (.noFunding 20)))))) := by
    simp only [AllocateState.next, Bool.and_false, Bool.false_eq_true, if_false]
  have hfloated : Called (digitPool .operator) [openDeposit] True (.ok ())
      (.agreeing (.fresh none) .empty) floatedWorld (.attempting true) :=
    @Called.operated _ _ _ _ _ _ _ _ _ false (.ok ()) true .start
      (runs_of_play worded_refusingAnswer hfunded)
  have hattempted : Called (digitPool .operator) [openDeposit] True (.ok ())
      (.agreeing (.fresh none) .empty) failedWorld (.attempting true) := by
    rw [← hrepeated]
    exact .operated (.error (.sdk gasLag)) true hfloated
      (runs_of_play worded_failingAnswer hfailed)
  rw [← hended]
  exact .operated (.error (.noFunding 20)) false hattempted
    (runs_of_play worded_refusingAnswer hdrained)

/-- The deposit which was submitted is given up by the end of the call. -/
theorem refundClassification_drained :
    StrategyError.movedNoFunds errorMovedNoFunds
        (.other (.pool (.adapter (.sdk (.noFunding 20))))) = true ∧
      openDeposit.id ∈ touched (.fresh none) drainedWorld.history ∧
      Refunds [openDeposit] (.fresh none) drainedWorld
        (.other (.pool (.adapter (.sdk (.noFunding 20))))) :=
  ⟨rfl, by decide +kernel,
    (@refundClassification _ _ _ _ _ _ ⟨fun _ => "", fun _ => ""⟩ _ _ _
      (.agreeing (competing_fresh none) .empty) (fun _ _ _ => by rintro ⟨⟩)
      called_drainedWorld).1⟩

/-! ## A journalled deposit which is refused a proof -/

theorem called_refusedWorld :
    Called (digitPool .relayer) [openDeposit] True (.ok ()) journalledWorld
      refusedWorld
      (.ended (.error (.other (.pool (.adapter (.sdk (.sdk
        feeRefusal))))))) := by
  have hrefused : (((digitPool .relayer).operation [openDeposit] false).play
      refusingAnswer journalledWorld.resumed).1 =
      .failed (.sdk feeRefusal) := by decide +kernel
  have hended : (AllocateState.attempting false).next
      (.error (.sdk feeRefusal)) false =
      .ended (.error (.other (.pool (.adapter (.sdk (.sdk
        feeRefusal)))))) := by
    simp only [AllocateState.next, Bool.and_false, Bool.false_eq_true, if_false]
  rw [← hended]
  exact .operated (.error (.sdk feeRefusal)) false .start
    (runs_of_play worded_refusingAnswer hrefused)

/-- Without the condition on the journal a deposit may be refunded whose
aggregation was POSTed during the call. -/
theorem refundClassification_not_always :
    ¬ ∀ (pool : CurvyDepositPool (Fin 10)) (deposits : List Deposit)
      (before after : SdkWorld (Fin 10)) (error : StrategyError Cause),
      Begins before →
      Called pool deposits True (.ok ()) before after
        (.ended (.error error)) →
      Refunds deposits before.disk after error := by
  intro hrefunds
  have hbegins : Begins journalledWorld :=
    .agreeing journalledState_competing _
  have hgivenUp := (hrefunds (digitPool .relayer) [openDeposit]
    journalledWorld refusedWorld _ hbegins called_refusedWorld).givenUp
    (by decide +kernel) openDeposit (List.mem_singleton_self _)
    (by decide +kernel)
  have hmem := hgivenUp.givenUp
  revert hmem
  decide +kernel

end HoprStrategy.Curvy
