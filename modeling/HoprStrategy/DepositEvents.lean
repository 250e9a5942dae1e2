import HoprStrategy.Errors
import HoprStrategy.SpendLedger
import HoprStrategy.Library.TransitionSystem

/-!
# Deposits from the event to their settlement

The event loop handles one `NewDepositAddress` at a time, and flushes run on
tasks of their own.  Every read or write of the state which the two share is a
step of its own, so a run interleaves them at any such point.  The duplicate
and in-flight guards are exact sets here.
-/

namespace HoprStrategy.Pix

open Library

section

variable (Id Addr Wire Payload Data Cause : Type)

structure PixDepositData where
  id : Id
  data : Payload

structure NewDepositAddress where
  id : Id
  quota : UInt64
  address : Wire
  depositData : PixDepositData Id Payload

structure BufferedDeposit where
  id : Id
  destAddr : Addr
  amount : HoprBalance
  depositData : Data
  spend : SpendEntry

structure PixStrategyConfig extends SpendConfig where
  pricePerByte : HoprBalance
  maxSsaAllocation : HoprBalance

/-- The conversions of the pool which the event handler uses. -/
structure DepositPool where
  tryIntoPublic : Wire → Option Addr
  tryFromDepositData :
    PixDepositData Id Payload → Except (StrategyError Cause) Data
  errorMovedNoFunds : Cause → Bool

/-- How far `on_pix_event` has come with the event at hand. -/
inductive HandlerPhase where
  | idle
  /-- Past the duplicate check and the price ceiling. -/
  | priced (event : NewDepositAddress Id Wire Payload) (target : HoprBalance)
  /-- Past the rolling spend limit. -/
  | withinLimit (event : NewDepositAddress Id Wire Payload)
      (target : HoprBalance)
  /-- Past every gate. -/
  | cleared (id : Id) (dest : Addr) (target : HoprBalance) (data : Data)
  /-- The destination is marked as in flight. -/
  | claimed (id : Id) (dest : Addr) (target : HoprBalance) (data : Data)
  /-- The amount is reserved in the ledger. -/
  | reserved (deposit : BufferedDeposit Id Addr Data)

/-- What the answers of a batch have told so far. -/
structure BatchTally where
  settled : Finset Id
  failures : ℕ
  everythingFailedFundFree : Bool

/-- A flush, by what it has left to do. -/
inductive FlushTask where
  /-- The pool has not answered. -/
  | calling (batch : List (BufferedDeposit Id Addr Data))
  | singleFunded (deposit : BufferedDeposit Id Addr Data)
  | singleRecorded (deposit : BufferedDeposit Id Addr Data)
  | singleFailed (deposit : BufferedDeposit Id Addr Data)
      (error : StrategyError Cause)
  | releasing (batch remaining : List (BufferedDeposit Id Addr Data))
      (outcomes : List (Except (StrategyError Cause) Id))
  | recording (batch : List (BufferedDeposit Id Addr Data))
      (outcomesLen : ℕ) (outcomes : List (Except (StrategyError Cause) Id))
      (tally : BatchTally Id)
  | failedReleasing (batch remaining : List (BufferedDeposit Id Addr Data))
      (error : StrategyError Cause)
  | refunding (remaining : List (BufferedDeposit Id Addr Data))
  | done

/-- What the pool returns for a flush. -/
inductive PoolReply where
  | single (result : Except (StrategyError Cause) Unit)
  | multiple (result :
      Except (StrategyError Cause) (List (Except (StrategyError Cause) Id)))

/-- The strategy with its running flushes.  `funded` lists the deposits which a
pool call has reported as funded, and `result` what the last event returned. -/
structure DepositState where
  processedDeposits : Finset Id
  inFlightDestinations : Finset Addr
  depositBuffer : List (BufferedDeposit Id Addr Data)
  spendLedger : SpendLedger
  handler : HandlerPhase Id Addr Wire Payload Data
  flushes : List (FlushTask Id Addr Data Cause)
  funded : List Id
  result : Except (StrategyError Cause) Unit

inductive DepositAction where
  /-- An event arrives and passes the checks on the event alone. -/
  | receive (event : NewDepositAddress Id Wire Payload)
  | checkSpend (now : ℕ)
  | checkDestination
  | claim
  | reserve (now : ℕ)
  | push
  /-- The buffer is drained: at its deadline, by the event itself when there
  is no buffer period, or at shutdown. -/
  | flush
  | answer (task : ℕ) (reply : PoolReply Id Cause)
  /-- A running flush takes its next step. -/
  | settle (task : ℕ)

end

variable {Id Addr Wire Payload Data Cause : Type}
  [DecidableEq Id] [DecidableEq Addr]

/-- The ids which a batch answer reports as funded. -/
def okIds (outcomes : List (Except (StrategyError Cause) Id)) : List Id :=
  outcomes.filterMap Except.toOption

namespace DepositState

def initial : DepositState Id Addr Wire Payload Data Cause where
  processedDeposits := ∅
  inFlightDestinations := ∅
  depositBuffer := []
  spendLedger := SpendLedger.empty
  handler := .idle
  flushes := []
  funded := []
  result := .ok ()

/-- The event at hand is done with, without being buffered. -/
def leave (state : DepositState Id Addr Wire Payload Data Cause)
    (result : Except (StrategyError Cause) Unit) :
    DepositState Id Addr Wire Payload Data Cause :=
  { state with handler := .idle, result := result }

/-- `on_pix_event` for `NewDepositAddress`, up to the price ceiling. -/
def receive (cfg : PixStrategyConfig)
    (state : DepositState Id Addr Wire Payload Data Cause)
    (event : NewDepositAddress Id Wire Payload) :
    DepositState Id Addr Wire Payload Data Cause :=
  if event.id ∈ state.processedDeposits then state.leave (.ok ())
  else
    let target := cfg.pricePerByte.scale event.quota.toNat
    if cfg.maxSsaAllocation < target then
      state.leave (.error .criteriaNotSatisfied)
    else { state with handler := .priced event target }

/-- The rolling spend limit. -/
def checkSpend (cfg : PixStrategyConfig)
    (state : DepositState Id Addr Wire Payload Data Cause)
    (event : NewDepositAddress Id Wire Payload) (target : HoprBalance)
    (now : ℕ) : DepositState Id Addr Wire Payload Data Cause :=
  let (admitted, ledger) :=
    spendGate cfg.toSpendConfig state.spendLedger target now
  if admitted then
    { state with
      spendLedger := ledger
      handler := .withinLimit event target }
  else
    { state.leave (.error .criteriaNotSatisfied) with spendLedger := ledger }

/-- The address, the in-flight guard and the payload, in this order. -/
def checkDestination (pool : DepositPool Id Addr Wire Payload Data Cause)
    (state : DepositState Id Addr Wire Payload Data Cause)
    (event : NewDepositAddress Id Wire Payload) (target : HoprBalance) :
    DepositState Id Addr Wire Payload Data Cause :=
  match pool.tryIntoPublic event.address with
  | none => state.leave (.error (.generalError .invalidInput))
  | some dest =>
      if dest ∈ state.inFlightDestinations then state.leave (.ok ())
      else if event.depositData.id ≠ event.id then
        state.leave (.error (.generalError .invalidInput))
      else
        match pool.tryFromDepositData event.depositData with
        | .error error => state.leave (.error error)
        | .ok data => { state with handler := .cleared event.id dest target data }

/-- The pool's answer, as `flush_deposit_batch` branches on it.  A single
deposit and a batch take different calls. -/
def answered (batch : List (BufferedDeposit Id Addr Data)) :
    PoolReply Id Cause → Option (FlushTask Id Addr Data Cause)
  | .single result =>
      match batch, result with
      | [deposit], .ok () => some (.singleFunded deposit)
      | [deposit], .error error => some (.singleFailed deposit error)
      | _, _ => none
  | .multiple result =>
      match batch, result with
      | [_], _ => none
      | batch, .ok outcomes => some (.releasing batch batch outcomes)
      | batch, .error error => some (.failedReleasing batch batch error)

/-- The deposits of the batch which the answer reports as funded.  A repeated
or foreign id is no deposit of the batch. -/
def fundedBy (batch : List (BufferedDeposit Id Addr Data)) :
    PoolReply Id Cause → List Id
  | .single (.ok ()) => batch.map (·.id)
  | .multiple (.ok outcomes) => (batch.map (·.id)).bagInter (okIds outcomes)
  | _ => []

/-- One outcome of a batch: a success is recorded as processed, and counts as
settled when its id is in the batch. -/
def tallyOutcome (pool : DepositPool Id Addr Wire Payload Data Cause)
    (batch : List (BufferedDeposit Id Addr Data)) (tally : BatchTally Id) :
    Except (StrategyError Cause) Id → BatchTally Id
  | .ok id =>
      if id ∈ batch.map (·.id) then
        { tally with settled := insert id tally.settled }
      else tally
  | .error error =>
      { tally with
        failures := tally.failures + 1
        everythingFailedFundFree := tally.everythingFailedFundFree &&
          error.movedNoFunds pool.errorMovedNoFunds }

/-- The deposits whose reservation a batch hands back. -/
def batchRefunds (batch : List (BufferedDeposit Id Addr Data))
    (outcomesLen : ℕ) (tally : BatchTally Id) :
    List (BufferedDeposit Id Addr Data) :=
  if tally.everythingFailedFundFree ∧
      outcomesLen = tally.settled.card + tally.failures ∧
      tally.failures = batch.length - tally.settled.card then
    batch.filter fun deposit => deposit.id ∉ tally.settled
  else []

/-- The next step of a flush: the guards it writes, the ledger and what it has
left to do. -/
def settleTask (pool : DepositPool Id Addr Wire Payload Data Cause)
    (state : DepositState Id Addr Wire Payload Data Cause) :
    FlushTask Id Addr Data Cause →
      Option (DepositState Id Addr Wire Payload Data Cause ×
        FlushTask Id Addr Data Cause)
  | .calling _ => none
  | .singleFunded deposit =>
      some ({ state with
        processedDeposits := insert deposit.id state.processedDeposits },
        .singleRecorded deposit)
  | .singleRecorded deposit =>
      some ({ state with
        inFlightDestinations :=
          state.inFlightDestinations.erase deposit.destAddr }, .done)
  | .singleFailed deposit error =>
      some ({ state with
        inFlightDestinations :=
          state.inFlightDestinations.erase deposit.destAddr },
        if error.movedNoFunds pool.errorMovedNoFunds
          then .refunding [deposit] else .done)
  | .releasing batch (deposit :: remaining) outcomes =>
      some ({ state with
        inFlightDestinations :=
          state.inFlightDestinations.erase deposit.destAddr },
        .releasing batch remaining outcomes)
  | .releasing batch [] outcomes =>
      some (state, .recording batch outcomes.length outcomes ⟨∅, 0, true⟩)
  | .recording batch outcomesLen (outcome :: outcomes) tally =>
      some ({ state with
        processedDeposits :=
          match outcome with
          | .ok id => insert id state.processedDeposits
          | .error _ => state.processedDeposits },
        .recording batch outcomesLen outcomes (tallyOutcome pool batch tally outcome))
  | .recording batch outcomesLen [] tally =>
      some (state, .refunding (batchRefunds batch outcomesLen tally))
  | .failedReleasing batch (deposit :: remaining) error =>
      some ({ state with
        inFlightDestinations :=
          state.inFlightDestinations.erase deposit.destAddr },
        .failedReleasing batch remaining error)
  | .failedReleasing batch [] error =>
      some (state,
        if error.movedNoFunds pool.errorMovedNoFunds
          then .refunding batch else .done)
  | .refunding (deposit :: remaining) =>
      some ({ state with
        spendLedger := state.spendLedger.release deposit.spend },
        .refunding remaining)
  | .refunding [] => some (state, .done)
  | .done => none

def next (cfg : PixStrategyConfig)
    (pool : DepositPool Id Addr Wire Payload Data Cause)
    (state : DepositState Id Addr Wire Payload Data Cause) :
    DepositAction Id Wire Payload Cause →
      Option (DepositState Id Addr Wire Payload Data Cause)
  | .receive event =>
      match state.handler with
      | .idle => some (state.receive cfg event)
      | _ => none
  | .checkSpend now =>
      match state.handler with
      | .priced event target => some (state.checkSpend cfg event target now)
      | _ => none
  | .checkDestination =>
      match state.handler with
      | .withinLimit event target =>
          some (state.checkDestination pool event target)
      | _ => none
  | .claim =>
      match state.handler with
      | .cleared id dest target data =>
          some { state with
            inFlightDestinations := insert dest state.inFlightDestinations
            handler := .claimed id dest target data }
      | _ => none
  | .reserve now =>
      match state.handler with
      | .claimed id dest target data =>
          let (spend, ledger) := state.spendLedger.commit target now
          some { state with
            spendLedger := ledger
            handler := .reserved ⟨id, dest, target, data, spend⟩ }
      | _ => none
  | .push =>
      match state.handler with
      | .reserved deposit =>
          some { state with
            depositBuffer := state.depositBuffer ++ [deposit]
            handler := .idle
            result := .ok () }
      | _ => none
  | .flush =>
      match state.handler, state.depositBuffer with
      | .idle, deposit :: rest =>
          some { state with
            depositBuffer := []
            flushes := state.flushes ++ [.calling (deposit :: rest)] }
      | _, _ => none
  | .answer task reply =>
      match state.flushes[task]? with
      | some (.calling batch) =>
          match answered batch reply with
          | some after =>
              some { state with
                flushes := state.flushes.set task after
                funded := state.funded ++ fundedBy batch reply }
          | none => none
      | _ => none
  | .settle task =>
      match state.flushes[task]? with
      | some running =>
          match settleTask pool state running with
          | some (state, after) =>
              some { state with flushes := state.flushes.set task after }
          | none => none
      | none => none

end DepositState

def depositSystem (cfg : PixStrategyConfig)
    (pool : DepositPool Id Addr Wire Payload Data Cause) :
    TransitionSystem (DepositState Id Addr Wire Payload Data Cause)
      (DepositAction Id Wire Payload Cause) where
  init state := state = DepositState.initial
  next := DepositState.next cfg pool

end HoprStrategy.Pix
