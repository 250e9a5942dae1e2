import HoprStrategy.BatchRefunds
import HoprStrategy.CurvyRefunds
import HoprStrategy.Library.SlotFilling

/-!
# Deposits of the strategy through the pool

A flush calls the pool with one deposit or with a batch.  The pool refuses a
deposit whose data is filed under another allocation, allocates the others in
one call, and answers slot by slot.  What the strategy hands back of its spend
limit is decided on these answers, so the class of the pool's error carries
through: a reservation is released only for a deposit whose aggregations were
all given up.
-/

namespace HoprStrategy.Curvy

open Library Refund

open Pix (BufferedDeposit DepositAction DepositState PixDepositData
  PixStrategyConfig PoolReply depositSystem okIds)

/-! ## The pool's side of a deposit -/

structure CurvyDepositData where
  id : PixAddressId
  scanKey : Bytes
  deriving DecidableEq

abbrev CurvyDeposit : Type :=
  BufferedDeposit PixAddressId Bytes CurvyDepositData

/-- The scan key is checked once, where the data arrives. -/
def CurvyDepositData.tryFrom (texts : ErrorTexts)
    (scanPublicKey : Bytes → Except String Bytes)
    (data : PixDepositData PixAddressId Bytes) :
    Except (StrategyError Cause) CurvyDepositData :=
  match scanPublicKey data.data with
  | .ok scanKey => .ok ⟨data.id, scanKey⟩
  | .error error =>
      .error (.other (.other ("PIX deposit data for " ++
        texts.debugId data.id ++ " is not a Curvy scan identity: " ++ error)))

/-- The pool as the strategy sees it. -/
def curvyDepositPool {Wire : Type} (texts : ErrorTexts)
    (tryIntoPublic : Wire → Option Bytes)
    (scanPublicKey : Bytes → Except String Bytes) :
    Pix.DepositPool PixAddressId Bytes Wire Bytes CurvyDepositData Cause where
  tryIntoPublic := tryIntoPublic
  tryFromDepositData := CurvyDepositData.tryFrom texts scanPublicKey
  errorMovedNoFunds := errorMovedNoFunds

/-- What is allocated for a deposit. -/
def allocationOf (deposit : CurvyDeposit) : Deposit :=
  ⟨deposit.id, deposit.destAddr, deposit.depositData.scanKey, deposit.amount⟩

/-- Its data has to be filed under it. -/
def toDeposit (deposit : CurvyDeposit) :
    Except (StrategyError Cause) Deposit :=
  if deposit.depositData.id ≠ deposit.id then
    .error (.other (.pool (.mismatchedDepositData deposit.id
      deposit.depositData.id)))
  else .ok (allocationOf deposit)

/-- A mismatch is answered at once. -/
def slotOf (deposit : CurvyDeposit) :
    Except (StrategyError Cause) PixAddressId ⊕ Deposit :=
  match toDeposit deposit with
  | .error error => .inl (.error error)
  | .ok deposit => .inr deposit

/-- Every deposit of the call is answered as the call ended. -/
def echo (texts : ErrorTexts) (result : Except (StrategyError Cause) Unit)
    (deposit : Deposit) : Except (StrategyError Cause) PixAddressId :=
  match result with
  | .ok _ => .ok deposit.id
  | .error error => .error (cloneError texts error)

section

variable {Fr : Type} [DecidableEq Fr]

/-- The pool's answers to a batch, and the world each leaves: one deposit goes
through `deposit_funds_to`, several through `deposit_funds_to_multiple`. -/
inductive Answers (pool : CurvyDepositPool Fr) (texts : ErrorTexts)
    (refuses : Prop) (before : SdkWorld Fr) :
    List CurvyDeposit → SdkWorld Fr → PoolReply PixAddressId Cause → Prop
  | mismatched {deposit : CurvyDeposit} {error : StrategyError Cause}
      (hdata : toDeposit deposit = .error error) :
      Answers pool texts refuses before [deposit] before
        (.single (.error error))
  | single {deposit : CurvyDeposit} {allocated : Deposit}
      {reconciled : Except Refund.CurvyDepositPoolError Unit}
      {after : SdkWorld Fr} {result : Except (StrategyError Cause) Unit}
      (hdata : toDeposit deposit = .ok allocated)
      (hcalled : Called pool [allocated] refuses reconciled before after
        (.ended result)) :
      Answers pool texts refuses before [deposit] after (.single result)
  | nothing {batch : List CurvyDeposit}
      {outcomes : List (Except (StrategyError Cause) PixAddressId)}
      (hkept : (Slots.of slotOf batch).kept = [])
      (hfilled : expectFilled ((Slots.of slotOf batch).fill
        (echo texts (.ok ()))) = some outcomes) :
      Answers pool texts refuses before batch before
        (.multiple (.ok outcomes))
  | multiple {batch : List CurvyDeposit}
      {reconciled : Except Refund.CurvyDepositPoolError Unit}
      {after : SdkWorld Fr} {result : Except (StrategyError Cause) Unit}
      {outcomes : List (Except (StrategyError Cause) PixAddressId)}
      (hkept : (Slots.of slotOf batch).kept ≠ [])
      (hcalled : Called pool ((Slots.of slotOf batch).kept.map Prod.snd)
        refuses reconciled before after (.ended result))
      (hfilled : expectFilled ((Slots.of slotOf batch).fill
        (echo texts result)) = some outcomes) :
      Answers pool texts refuses before batch after (.multiple (.ok outcomes))

end

/-! ## Deposits whose data is their own -/

/-- The data of a deposit is filed under it. -/
def FiledUnder (id : PixAddressId) (data : CurvyDepositData) : Prop :=
  data.id = id

def Filed (deposit : CurvyDeposit) : Prop :=
  FiledUnder deposit.id deposit.depositData

theorem toDeposit_of_filed {deposit : CurvyDeposit} (hfiled : Filed deposit) :
    toDeposit deposit = .ok (allocationOf deposit) :=
  if_neg fun hne => hne hfiled

theorem slotOf_of_filed {deposit : CurvyDeposit} (hfiled : Filed deposit) :
    slotOf deposit = .inr (allocationOf deposit) := by
  rw [slotOf, toDeposit_of_filed hfiled]

/-- What is answered for deposits with their own data. -/
theorem outcomes_of_filed {batch : List CurvyDeposit} {texts : ErrorTexts}
    {result : Except (StrategyError Cause) Unit}
    {outcomes : List (Except (StrategyError Cause) PixAddressId)}
    (hfiled : ∀ deposit ∈ batch, Filed deposit)
    (hfilled : expectFilled ((Slots.of slotOf batch).fill
      (echo texts result)) = some outcomes) :
    outcomes = batch.map fun deposit =>
      echo texts result (allocationOf deposit) := by
  rw [Slots.fill_of, expectFilled_map_some, Option.some.injEq] at hfilled
  rw [← hfilled]
  apply List.map_congr_left
  intro deposit hdeposit
  rw [slotOf_of_filed (hfiled deposit hdeposit)]
  rfl

/-- All of them are allocated. -/
theorem kept_of_filed {batch : List CurvyDeposit}
    (hfiled : ∀ deposit ∈ batch, Filed deposit) :
    (Slots.of slotOf batch).kept.map Prod.snd = batch.map allocationOf := by
  rw [Slots.kept_of, ← List.filterMap_eq_map]
  apply List.filterMap_congr
  intro deposit hdeposit
  rw [slotOf_of_filed (hfiled deposit hdeposit)]
  rfl

section

variable {Wire : Type} {cfg : PixStrategyConfig} {texts : ErrorTexts}
  {tryIntoPublic : Wire → Option Bytes}
  {scanPublicKey : Bytes → Except String Bytes}
  {state after :
    DepositState PixAddressId Bytes Wire Bytes CurvyDepositData Cause}

def HandlerFiled :
    Pix.HandlerPhase PixAddressId Bytes Wire Bytes CurvyDepositData → Prop
  | .cleared id _ _ data | .claimed id _ _ data => FiledUnder id data
  | .reserved deposit => Filed deposit
  | .idle | .priced _ _ | .withinLimit _ _ => True

/-- Every deposit on its way to the pool has its own data. -/
structure AllFiled
    (state : DepositState PixAddressId Bytes Wire Bytes CurvyDepositData
      Cause) : Prop where
  handler : HandlerFiled state.handler
  buffer : ∀ deposit ∈ state.depositBuffer, Filed deposit
  flushes : ∀ task ∈ state.flushes, ∀ deposit ∈ task.unanswered, Filed deposit

theorem tryFrom_id {data : PixDepositData PixAddressId Bytes}
    {parsed : CurvyDepositData}
    (hparsed : CurvyDepositData.tryFrom texts scanPublicKey data =
      .ok parsed) : parsed.id = data.id := by
  unfold CurvyDepositData.tryFrom at hparsed
  split at hparsed
  · cases hparsed
    rfl
  · cases hparsed

/-- A task which takes another's place has been answered. -/
theorem AllFiled.setTask {index : ℕ}
    {task : Pix.FlushTask PixAddressId Bytes CurvyDepositData Cause}
    (hfiled : AllFiled state) (hanswered : task.unanswered = []) :
    ∀ other ∈ state.flushes.set index task,
      ∀ deposit ∈ other.unanswered, Filed deposit := by
  intro other hother
  rcases List.mem_or_eq_of_mem_set hother with hold | hnew
  · exact hfiled.flushes other hold
  · rw [hnew, hanswered]
    exact List.forall_mem_nil _

/-- The event's id is compared with that of its data before the data is
parsed. -/
theorem AllFiled.checkDestination
    (hfiled : AllFiled state)
    (event : Pix.NewDepositAddress PixAddressId Wire Bytes)
    (target : HoprBalance) :
    AllFiled (state.checkDestination
      (curvyDepositPool texts tryIntoPublic scanPublicKey) event target) := by
  unfold DepositState.checkDestination
  split
  · exact ⟨trivial, hfiled.buffer, hfiled.flushes⟩
  · split
    · exact ⟨trivial, hfiled.buffer, hfiled.flushes⟩
    · split
      · exact ⟨trivial, hfiled.buffer, hfiled.flushes⟩
      · next hsame =>
          split
          · exact ⟨trivial, hfiled.buffer, hfiled.flushes⟩
          · next data hdata =>
              refine ⟨?_, hfiled.buffer, hfiled.flushes⟩
              exact (tryFrom_id hdata).trans (not_not.mp hsame)

theorem AllFiled.next
    {action : DepositAction PixAddressId Wire Bytes Cause}
    (hfiled : AllFiled state)
    (hnext : state.next cfg
      (curvyDepositPool texts tryIntoPublic scanPublicKey) action =
        some after) :
    AllFiled after := by
  cases action with
  | receive event =>
      simp only [DepositState.next] at hnext
      split at hnext
      · cases hnext
        unfold DepositState.receive
        split
        · exact ⟨trivial, hfiled.buffer, hfiled.flushes⟩
        · dsimp only
          split
          · exact ⟨trivial, hfiled.buffer, hfiled.flushes⟩
          · exact ⟨trivial, hfiled.buffer, hfiled.flushes⟩
      · cases hnext
  | checkSpend now =>
      simp only [DepositState.next] at hnext
      split at hnext
      · cases hnext
        unfold DepositState.checkSpend
        dsimp only
        split
        · exact ⟨trivial, hfiled.buffer, hfiled.flushes⟩
        · exact ⟨trivial, hfiled.buffer, hfiled.flushes⟩
      · cases hnext
  | checkDestination =>
      simp only [DepositState.next] at hnext
      split at hnext
      · cases hnext
        exact hfiled.checkDestination _ _
      · cases hnext
  | claim =>
      simp only [DepositState.next] at hnext
      split at hnext
      · next id dest target data hhandler =>
          cases hnext
          have hdata := hfiled.handler
          rw [hhandler] at hdata
          exact ⟨hdata, hfiled.buffer, hfiled.flushes⟩
      · cases hnext
  | reserve now =>
      simp only [DepositState.next] at hnext
      split at hnext
      · next id dest target data hhandler =>
          cases hnext
          have hdata := hfiled.handler
          rw [hhandler] at hdata
          exact ⟨hdata, hfiled.buffer, hfiled.flushes⟩
      · cases hnext
  | push =>
      simp only [DepositState.next] at hnext
      split at hnext
      · next deposit hhandler =>
          cases hnext
          have hdata := hfiled.handler
          rw [hhandler] at hdata
          refine ⟨trivial, ?_, hfiled.flushes⟩
          intro other hother
          rcases List.mem_append.mp hother with hold | hnew
          · exact hfiled.buffer other hold
          · rw [List.mem_singleton.mp hnew]
            exact hdata
      · cases hnext
  | flush =>
      simp only [DepositState.next] at hnext
      split at hnext
      · next deposit rest hhandler hbuffer =>
          cases hnext
          refine ⟨hfiled.handler, by simp, ?_⟩
          intro task htask
          rcases List.mem_append.mp htask with hold | hnew
          · exact hfiled.flushes task hold
          · rw [List.mem_singleton.mp hnew, Pix.FlushTask.unanswered_calling,
              ← hbuffer]
            exact hfiled.buffer
      · cases hnext
  | answer index reply =>
      simp only [DepositState.next] at hnext
      split at hnext
      · next batch hcalling =>
          split at hnext
          · next task htask =>
              cases hnext
              exact ⟨hfiled.handler, hfiled.buffer,
                hfiled.setTask (DepositState.answered_spec htask).1⟩
          · cases hnext
      · cases hnext
  | settle index =>
      simp only [DepositState.next] at hnext
      split at hnext
      · next running hrunning =>
          split at hnext
          · next middle task hsettle =>
              cases hnext
              have hstep := DepositState.settleTask_step hsettle
              refine ⟨hstep.handler ▸ hfiled.handler,
                hstep.buffer ▸ hfiled.buffer, ?_⟩
              rw [hstep.flushes]
              exact hfiled.setTask hstep.unanswered.2
          · cases hnext
      · cases hnext

theorem allFiled_reachable
    (hreach : (depositSystem cfg (curvyDepositPool texts tryIntoPublic
      scanPublicKey)).Reachable state) : AllFiled state := by
  apply hreach.invariant
  · rintro start rfl
    exact ⟨trivial, List.forall_mem_nil _, List.forall_mem_nil _⟩
  · intro before action after hbefore hnext
    exact hbefore.next hnext

/-! ## What is handed back -/

variable {Fr : Type} [DecidableEq Fr] {pool : CurvyDepositPool Fr}
  {refuses : Prop} {before world : SdkWorld Fr} {batch : List CurvyDeposit}
  {reply : PoolReply PixAddressId Cause}

/-- A call which failed with a fund-free error leaves no aggregation of its
deposits which it submitted, resumed or completed. -/
theorem Called.givenUp {deposits : List Deposit}
    {reconciled : Except Refund.CurvyDepositPoolError Unit}
    {error : StrategyError Cause} (hbegins : Begins before)
    (hrefuses : refuses →
      ∀ deposit ∈ deposits, deposit.id ∉ before.disk.relayIds)
    (hcalled : Called pool deposits refuses reconciled before world
      (.ended (.error error)))
    (hfree : error.movedNoFunds errorMovedNoFunds = true) :
    (∀ deposit ∈ deposits, deposit.id ∈ touched before.disk world.history →
        GivenUpSince before.disk world deposit.id) ∧
      GivenUpReported before.disk world.history := by
  have hrefunds : Refunds deposits before.disk world error :=
    hcalled.invariant hbegins hrefuses
  exact ⟨hrefunds.givenUp hfree, hrefunds.reported⟩

/-- A batch whose call succeeded is reported as funded. -/
theorem okIds_echo (batch : List CurvyDeposit) :
    okIds (batch.map fun deposit =>
      echo texts (.ok ()) (allocationOf deposit)) = batch.map (·.id) := by
  rw [okIds, List.filterMap_map, ← List.filterMap_eq_map]
  rfl

/-- An answer which proves that a deposit moved no funds: no aggregation of it
which the call submitted, resumed or completed is left. -/
theorem Answers.givenUp
    (hfiled : ∀ deposit ∈ batch, Filed deposit) (hbegins : Begins before)
    (hrefuses : refuses →
      ∀ deposit ∈ batch, deposit.id ∉ before.disk.relayIds)
    (hanswers : Answers pool texts refuses before batch world reply)
    {deposit : CurvyDeposit} (hdeposit : deposit ∈ batch)
    (hfailed : deposit.id ∉ okIds (reply.outcomes batch))
    (hfree : Pix.ProvesFundFree (curvyDepositPool texts tryIntoPublic
      scanPublicKey) batch (reply.outcomes batch)) :
    (deposit.id ∈ touched before.disk world.history →
        GivenUpSince before.disk world deposit.id) ∧
      GivenUpReported before.disk world.history := by
  cases hanswers with
  | @mismatched _ error hdata =>
      rw [toDeposit_of_filed (hfiled _ List.mem_cons_self)] at hdata
      cases hdata
  | @single only allocated reconciled _ result hdata hcalled =>
      rw [toDeposit_of_filed (hfiled _ List.mem_cons_self)] at hdata
      cases hdata
      rw [List.mem_singleton] at hdeposit
      subst hdeposit
      cases result with
      | ok _ => exact absurd List.mem_cons_self hfailed
      | error error =>
          have hcall := hcalled.givenUp hbegins (fun hmay other hother => by
            rw [List.mem_singleton.mp hother]
            exact hrefuses hmay deposit List.mem_cons_self)
            (hfree.fundFree error List.mem_cons_self)
          exact ⟨hcall.1 _ List.mem_cons_self, hcall.2⟩
  | @nothing _ outcomes hkept hfilled =>
      have hnone := kept_of_filed hfiled
      rw [hkept, List.map_nil] at hnone
      rw [List.map_eq_nil_iff.mp hnone.symm] at hdeposit
      cases hdeposit
  | @multiple _ reconciled _ result outcomes hkept hcalled hfilled =>
      rw [kept_of_filed hfiled] at hcalled
      have houtcomes := outcomes_of_filed hfiled hfilled
      change deposit.id ∉ okIds outcomes at hfailed
      have hproof : ∀ error ∈ Pix.failuresOf outcomes,
          error.movedNoFunds errorMovedNoFunds = true := hfree.fundFree
      cases result with
      | ok _ =>
          rw [houtcomes, okIds_echo] at hfailed
          exact absurd (List.mem_map_of_mem hdeposit) hfailed
      | error error =>
          obtain ⟨cause, rfl⟩ := hcalled.ofPool error rfl
          have hcopy := hproof (cloneError texts (.other (.pool cause))) (by
            rw [houtcomes]
            exact List.mem_filterMap.mpr
              ⟨_, List.mem_map_of_mem hdeposit, rfl⟩)
          rw [movedNoFunds_cloneError] at hcopy
          have hcall := hcalled.givenUp hbegins (fun hmay other hother => by
            obtain ⟨source, hsource, rfl⟩ := List.mem_map.mp hother
            exact hrefuses hmay source hsource) hcopy
          exact ⟨hcall.1 _ (List.mem_map_of_mem hdeposit), hcall.2⟩

/-- What a flush hands back is proved fund-free by its answer. -/
theorem answer_refunds {index : ℕ}
    {actions : List (DepositAction PixAddressId Wire Bytes Cause)}
    {deposits : Pix.DepositPool PixAddressId Bytes Wire Bytes CurvyDepositData
      Cause}
    (hdistinct : (batch.map (·.id)).Nodup)
    (hcalling : state.flushes[index]? = some (.calling batch))
    (hrun : (depositSystem cfg deposits).run state
      (.answer index reply :: actions) = some after) :
    ∀ deposit ∈ DepositState.refundsIn cfg deposits index state
        (.answer index reply :: actions),
      deposit ∈ batch ∧ deposit.id ∉ okIds (reply.outcomes batch) ∧
        Pix.ProvesFundFree deposits batch (reply.outcomes batch) := by
  obtain ⟨middle, hanswer, hrest⟩ := TransitionSystem.run_cons.mp hrun
  have hfirst : state.next cfg deposits (.answer index reply) = some middle :=
    hanswer
  have hrefunds : DepositState.refundsIn cfg deposits index state
      (.answer index reply :: actions) =
        DepositState.refundsIn cfg deposits index middle actions := by
    rw [DepositState.refundsIn, hfirst]
    rfl
  have hstart : ∃ task, DepositState.OwesByAnswer deposits batch
      (reply.outcomes batch) task ∧ middle.flushes[index]? = some task := by
    simp only [DepositState.next, hcalling] at hfirst
    split at hfirst
    · next task htask =>
        cases hfirst
        exact ⟨task, DepositState.answered_owes hdistinct htask,
          List.getElem?_set_self (List.getElem?_eq_some_iff.mp hcalling).1⟩
    · cases hfirst
  obtain ⟨task, howes, hstands⟩ := hstart
  obtain ⟨task', hfollowed⟩ :=
    DepositState.run_followed hstands howes.answered hrest
  have hmade : DepositState.refundsIn cfg deposits index middle actions <+:
      task.owed deposits := ⟨_, hfollowed.owed⟩
  rw [hrefunds]
  intro deposit hdeposit
  have howed := hmade.subset hdeposit
  exact ⟨howes.sublist.subset howed, howes.sound deposit howed⟩

end

/-- In any run of the strategy, a flush over the Curvy pool hands reservations
back only for deposits of its batch of which no aggregation is left that the
pool's call submitted, resumed or completed: all were given up, each on a
report that it was refused or has failed. -/
theorem refundedGivenUp {Wire Fr : Type} [DecidableEq Fr]
    {cfg : PixStrategyConfig} {texts : ErrorTexts}
    {tryIntoPublic : Wire → Option Bytes}
    {scanPublicKey : Bytes → Except String Bytes}
    {state after :
      DepositState PixAddressId Bytes Wire Bytes CurvyDepositData Cause}
    (hreach : (depositSystem cfg (curvyDepositPool texts tryIntoPublic
      scanPublicKey)).Reachable state)
    {index : ℕ} {batch : List CurvyDeposit}
    (hcalling : state.flushes[index]? = some (.calling batch))
    (hdistinct : (batch.map (·.id)).Nodup)
    {pool : CurvyDepositPool Fr} {refuses : Prop} {before world : SdkWorld Fr}
    (hbegins : Begins before)
    (hrefuses : refuses →
      ∀ deposit ∈ batch, deposit.id ∉ before.disk.relayIds)
    {reply : PoolReply PixAddressId Cause}
    (hanswers : Answers pool texts refuses before batch world reply)
    (actions : List (DepositAction PixAddressId Wire Bytes Cause))
    (hrun : (depositSystem cfg (curvyDepositPool texts tryIntoPublic
      scanPublicKey)).run state (.answer index reply :: actions) =
        some after) :
    ∀ deposit ∈ DepositState.refundsIn cfg (curvyDepositPool texts
        tryIntoPublic scanPublicKey) index state
          (.answer index reply :: actions),
      deposit ∈ batch ∧
        (deposit.id ∈ touched before.disk world.history →
          GivenUpSince before.disk world deposit.id) ∧
        GivenUpReported before.disk world.history := by
  have hfiled : ∀ deposit ∈ batch, Filed deposit :=
    (allFiled_reachable hreach).flushes _ (List.mem_of_getElem? hcalling)
  intro deposit hdeposit
  obtain ⟨hmem, hfailed, hfree⟩ :=
    answer_refunds hdistinct hcalling hrun deposit hdeposit
  exact ⟨hmem, hanswers.givenUp hfiled hbegins hrefuses hmem hfailed hfree⟩

/-! ## A flush over a drained pool -/

def plainTexts : ErrorTexts := ⟨fun _ => "", fun _ => ""⟩

abbrev OpenAction := DepositAction PixAddressId Bytes Bytes Cause

/-- The event which asks for `openDeposit`, up to its flush. -/
def openFlush : List OpenAction :=
  [.receive ⟨[1], 4, [], ⟨[1], []⟩⟩, .checkSpend 0, .checkDestination, .claim,
    .reserve 0, .push, .flush]

/-- Its reservation. -/
def openSpend : Pix.SpendEntry × Pix.SpendLedger :=
  (Pix.spendGate Pix.unitPrice.toSpendConfig .empty openDeposit.amount
    0).2.commit openDeposit.amount 0

def openCall : CurvyDeposit :=
  ⟨[1], [], openDeposit.amount, ⟨[1], []⟩, openSpend.1⟩

def openCalling :
    DepositState PixAddressId Bytes Bytes Bytes CurvyDepositData Cause :=
  { DepositState.initial with
    inFlightDestinations := {[]}
    spendLedger := openSpend.2
    flushes := [.calling [openCall]] }

theorem openCalling_reachable : (depositSystem Pix.unitPrice
    (curvyDepositPool plainTexts some .ok)).Reachable openCalling := by
  have hinit : (depositSystem Pix.unitPrice (curvyDepositPool plainTexts
      some .ok)).Reachable DepositState.initial := .init rfl
  exact hinit.run openFlush rfl

def outOfFunds : StrategyError Cause :=
  .other (.pool (.adapter (.sdk (.noFunding 20))))

/-- A submission of the deposit fails, the pool has no funds for the next one,
and the strategy hands the reservation back. -/
theorem refundedGivenUp_drained :
    openCall ∈ DepositState.refundsIn Pix.unitPrice (curvyDepositPool
        plainTexts some .ok) 0 openCalling (.answer 0 (.single (.error
          outOfFunds)) :: List.replicate 3 (.settle 0)) ∧
      [1] ∈ touched (.fresh none) drainedWorld.history ∧
      GivenUpSince (.fresh none) drainedWorld [1] := by
  have hanswers : Answers (digitPool .operator) plainTexts True
      (.agreeing (.fresh none) .empty) [openCall] drainedWorld
      (.single (.error outOfFunds)) :=
    .single (rfl : toDeposit openCall = .ok openDeposit) called_drainedWorld
  have hrefunded : openCall ∈ DepositState.refundsIn Pix.unitPrice
      (curvyDepositPool plainTexts some .ok) 0 openCalling (.answer 0
        (.single (.error outOfFunds)) :: List.replicate 3 (.settle 0)) :=
    List.mem_cons_self
  have htouched : [1] ∈ touched (.fresh none) drainedWorld.history := by
    decide +kernel
  exact ⟨hrefunded, htouched, (refundedGivenUp openCalling_reachable rfl
    (by decide) (.agreeing (competing_fresh none) .empty)
    (fun _ _ _ => by rintro ⟨⟩) hanswers (List.replicate 3 (.settle 0)) rfl
    openCall hrefunded).2.1 htouched⟩

end HoprStrategy.Curvy
