import HoprStrategy.CurvySdkCalls

/-!
# Relayed aggregations

A relayed aggregation is journalled before it is posted, and the journal is
settled before anything else spends the funding.  `reconcileRelayAggregation`
is the settling loop: it looks for a winner on the chain, asks the relayer
what became of the last attempt, posts it, waits for it, and proves it again
over the same inputs when the relayer will not have it.
-/

namespace HoprStrategy.Curvy

open Library

/-- Funding once the inputs are spent and the change has come back. -/
def SdkState.fundingAfter (state : SdkState) (inputs : List StoredNote)
    (change : List StoredNote) : List StoredNote :=
  state.funding.filter (fun note => note ∉ inputs) ++ change

def StoredRelayAggregation.body (attempt : StoredRelayAggregation)
    (circuit : CircuitRef) : RelayBody where
  action := .aggregation
  chainId := attempt.chainId
  maxInputs := attempt.maxInputs
  circuit := circuit
  proof := attempt.proof
  publicSignals := attempt.publicSignals
  requestKey := attempt.requestKey
  spendKey := attempt.spendKey
  intent := attempt.intent

/-- The entry once the relayer is known to hold the request. -/
def StoredRelayAggregation.held (attempt : StoredRelayAggregation)
    (submission : RelaySubmission) : StoredRelayAggregation :=
  StoredRelayAggregation.observeProgress
    { attempt with requestId := some submission.requestId }
    submission.status submission.transactionHash

/-- The counter after one more wait which ran out. -/
def StoredRelayAggregation.timedOut (attempt : StoredRelayAggregation)
    (status : RelayStatus) (transactionHash : Option String)
    (progressed : Bool) : StoredRelayAggregation :=
  let observed := attempt.observeProgress status transactionHash
  let count := saturatingSucc
    (if progressed then 0 else observed.timeoutsWithoutProgress)
  { observed with
    timeoutsWithoutProgress := count
    rebuild := decide (maxRelayTimeoutsWithoutProgress ≤ count) }

namespace SdkM

variable {Fr : Type}

structure RelayAggregationOutcome where
  requestId : Option String
  transactionHash : Option String
  allocations : ℕ

/-- What a part of the settling loop asks for. -/
inductive Turn (α : Type) where
  | proceed (value : α)
  | restart

def sameDeployment (endpoints : CurvyChainEndpoints) (chainId : ℕ)
    (aggregator : String) : Bool :=
  endpoints.chainId == chainId &&
    eqIgnoreAsciiCase endpoints.aggregator aggregator

/-- The change notes a booking returns to the funding: none if it is zero. -/
def bookedChange (config : SdkConfig Fr) (change : StoredNote) :
    Except SdkError (List StoredNote) :=
  (change.toOwned config.codec).map fun note =>
    if config.codec.frToBiguint note.amount = 0 then [] else [change]

/-- The emitted notes of a request which are worth something. -/
def emittedNotes (config : SdkConfig Fr)
    (request : PixAggregationRequest Fr) : List StoredNote :=
  (request.emittedNotes.filter fun note =>
    config.codec.frToBiguint note.amount ≠ 0).map
      (StoredNote.ofOwned config.codec)

/-- The journal entry of a freshly proved request. -/
def relayAttempt (config : SdkConfig Fr) (endpoints : CurvyChainEndpoints)
    (intent : String) (request : PixAggregationRequest Fr)
    (inputs : List StoredNote) (allocationIds : List PixAddressId) :
    StoredRelayAggregation where
  intent := intent
  chainId := endpoints.chainId
  aggregator := endpoints.aggregator
  maxInputs := request.maxInputs
  proof := request.proof
  publicSignals := request.publicSignals
  requestKey := request.requestKey
  spendKey := request.spendKey
  inputs := inputs
  change := StoredNote.ofOwned config.codec request.change
  emitted := emittedNotes config request
  allocationIds := allocationIds
  attempted := false
  requestId := none
  transactionHash := none
  rebuild := false
  lastStatus := none
  timeoutsWithoutProgress := 0
  circuit := some request.circuit

/-- A replacement must spend what the attempt it replaces spends. -/
def replaces (previous : StoredRelayAggregation)
    (request : PixAggregationRequest Fr) (endpoints : CurvyChainEndpoints)
    (inputs : List StoredNote) (allocationIds : List PixAddressId) : Bool :=
  previous.inputs == inputs && previous.allocationIds == allocationIds &&
    previous.spendKey == request.spendKey &&
    previous.chainId == endpoints.chainId &&
    eqIgnoreAsciiCase previous.aggregator endpoints.aggregator

/-- The stored records are those the replacement was proved for. -/
def unchangedAllocations : List StoredAllocation → SdkM Fr Unit
  | [] => return ()
  | record :: rest => do
      let stored ← allocation .replacement record.id
      .require (stored = some record) .conflictingAllocation
      unchangedAllocations rest

def checkReplacement (previous : Option StoredRelayAggregation)
    (request : PixAggregationRequest Fr) (endpoints : CurvyChainEndpoints)
    (inputs : List StoredNote) (allocations : List StoredAllocation) :
    SdkM Fr Unit :=
  match previous with
  | none => return ()
  | some previous => do
      .require (previous.rebuild = true) .ambiguousAllocation
      .require (replaces previous request endpoints inputs
          (allocations.map StoredAllocation.id) = true)
        (.invalidValue ("a replacement aggregation must preserve its " ++
          "deployment, inputs and allocations"))
      unchangedAllocations allocations

def prepareRelayAggregation (config : SdkConfig Fr)
    (request : PixAggregationRequest Fr) (endpoints : CurvyChainEndpoints)
    (inputs : List (OwnedNote Fr)) (allocations : List StoredAllocation) :
    SdkM Fr Unit := do
  let current ← readState
  let inputs := inputs.map (StoredNote.ofOwned config.codec)
  let allocationIds := allocations.map StoredAllocation.id
  checkReplacement current.relayAggregations.getLast? request endpoints
    inputs allocations
  .require (current.relayAggregations.length < maxRelayAggregationAttempts)
    .relayAttemptLimit
  let intent ← .call .uuid .pure
  let attempt :=
    relayAttempt config endpoints intent request inputs allocationIds
  let next := { current with
    relayAggregations := current.relayAggregations ++ [attempt] }
  saveUpdate .prepareRelay next allocations []
  writeState next

/-- `prover_allocation`: what the original proof allocated to a record. -/
def proverAllocation (config : SdkConfig Fr) (record : StoredAllocation) :
    Except SdkError (ScanRecipient × ℕ) := do
  let recipient ← (config.recipient record.address record.scanKey).mapError
    SdkError.invalidValue
  if record.amount < 2 ^ 128 then return (recipient, record.amount)
  else throw (.invalidValue "number too large to fit in target type")

/-- Fresh fees and witnesses over the inputs and recipients of the last
attempt. -/
def rebuildRelayAggregation (config : SdkConfig Fr) : SdkM Fr Unit := do
  let state ← readState
  match state.relayAggregations.getLast? with
  | none => .throw .ambiguousAllocation
  | some pending =>
      let inputs ← ofExcept
        (pending.inputs.mapM fun stored => stored.toOwned config.codec)
      let records ← preparedAllocations .replacement pending.allocationIds
      let allocations ← ofExcept (records.mapM (proverAllocation config))
      let endpoints ← client
      .require (config.relay = true) (.invalidValue
        "configure the relayer to recover the pending aggregation")
      let token ← token
      let relayFee ← relayFeeRecipient endpoints.chainId token
      let feeRecipient ← feeRecipient config
      let request ← buildPixAggregation inputs allocations relayFee
        feeRecipient
      prepareRelayAggregation config request endpoints inputs records

def saveRelayAttempt (cause : AttemptUpdate) (index : ℕ)
    (pending : StoredRelayAggregation) : SdkM Fr Unit := do
  let current ← readState
  let next := { current with
    relayAggregations := current.relayAggregations.set index pending }
  save (.saveRelayAttempt cause) next
  writeState next

/-- Drops the last attempt, whose only POST was refused. -/
def dropRejectedAttempt : SdkM Fr Unit := do
  let current ← readState
  let next := { current with
    relayAggregations := current.relayAggregations.dropLast }
  save .dropRejectedAttempt next
  writeState next

/-- Settles the journal: books the winner's outputs, or releases the inputs
and forgets the allocations. -/
def finishRelayAggregation (config : SdkConfig Fr) (winner : Option ℕ) :
    SdkM Fr (Option RelayAggregationOutcome) := do
  let current ← readState
  .require (¬ (winner = none ∧ current.relayAggregations.length > 1))
    .ambiguousAllocation
  match current.relayAggregations[winner.getD 0]? with
  | none => return none
  | some pending =>
      match winner with
      | some index =>
          let change ← ofExcept (bookedChange config pending.change)
          let completed ← completedAllocations (.finishRelay (some index))
            pending.allocationIds
          let next := { current with
            funding := current.fundingAfter pending.inputs change
            pending := current.pending ++ pending.emitted
            relayAggregations := [] }
          saveUpdate (.finishRelay (some index)) next completed []
          writeState next
          return some ⟨pending.requestId, pending.transactionHash,
            pending.allocationIds.length⟩
      | none =>
          let next := { current with relayAggregations := [] }
          saveUpdate (.finishRelay none) next [] pending.allocationIds
          writeState next
          return none

def relayOutputsKnown (config : SdkConfig Fr)
    (attempt : StoredRelayAggregation) : SdkM Fr Bool :=
  if attempt.attempted then notesKnown config attempt.emitted else .pure false

/-- The first attempt, counted from `index`, whose outputs the chain knows. -/
def relayWinnerFrom (config : SdkConfig Fr) :
    ℕ → List StoredRelayAggregation →
      SdkM Fr (Option (ℕ × StoredRelayAggregation))
  | _, [] => return none
  | index, attempt :: rest => do
      let known ← relayOutputsKnown config attempt
      if known then return some (index, attempt)
      else relayWinnerFrom config (index + 1) rest

def relayWinner (config : SdkConfig Fr)
    (attempts : List StoredRelayAggregation) :
    SdkM Fr (Option (ℕ × StoredRelayAggregation)) :=
  relayWinnerFrom config 0 attempts

/-! ## The arms of the loop -/

def relayStatus (requestId : String) :
    SdkM Fr (Except RelayError RelaySubmission) :=
  .call (.relayStatus requestId) .pure

def relayByIntent (intent : String) (chainId : ℕ) :
    SdkM Fr (Except RelayError (Option RelaySubmission)) :=
  .call (.relayByIntent intent chainId) .pure

/-- What the relayer holds for an attempt.  An intent may outlive the lookup
by request id. -/
def lookupRelay (pending : StoredRelayAggregation) :
    SdkM Fr (Except RelayError (Option RelaySubmission)) :=
  match pending.requestId with
  | some requestId => do
      match ← relayStatus requestId with
      | .error (.missingRequest lost) => do
          match ← relayByIntent pending.intent pending.chainId with
          | .ok (some found) => return .ok (some found)
          | .ok none => return .error (.missingRequest lost)
          | .error error => return .error error
      | .error error => return .error error
      | .ok found => return .ok (some found)
  | none =>
      if pending.attempted then relayByIntent pending.intent pending.chainId
      else return .ok none

/-- Goes round again unless this invocation has proved a replacement. -/
def restartUnless {α : Type} (rebuilt : Bool) (error : RelayError) :
    SdkM Fr (Turn α) :=
  if rebuilt then .throw (.relay error) else return .restart

def lookupArm (rebuilt : Bool) (index : ℕ)
    (pending : StoredRelayAggregation) :
    SdkM Fr (Turn (Option RelaySubmission)) := do
  match ← lookupRelay pending with
  | .ok known => return .proceed known
  | .error error =>
      if error.permitsReplacement then
        saveRelayAttempt .lookupRefused index { pending with rebuild := true }
        restartUnless rebuilt error
      else .throw (.relay error)

/-- What a refused POST means: a first and only attempt cannot land, a
repeated POST says nothing about the earlier one, and a candidate beside
others is dropped. -/
def refusedArm (config : SdkConfig Fr) (rebuilt : Bool) (attempts : ℕ)
    (index : ℕ) (wasAttempted : Bool) (pending : StoredRelayAggregation)
    (error : RelayError) :
    SdkM Fr (Turn (StoredRelayAggregation × RelaySubmission)) :=
  if ¬ wasAttempted ∧ attempts = 1 then do
    let _ ← finishRelayAggregation config none
    .throw (.relay error)
  else if wasAttempted then do
    saveRelayAttempt .refusedRepost index { pending with rebuild := true }
    restartUnless rebuilt error
  else do
    dropRejectedAttempt
    restartUnless rebuilt error

/-- POSTs the attempt, whose entry says that it may have been posted. -/
def postArm (config : SdkConfig Fr) (rebuilt : Bool) (attempts : ℕ)
    (index : ℕ) (wasAttempted : Bool) (posting : StoredRelayAggregation)
    (circuit : CircuitRef) :
    SdkM Fr (Turn (StoredRelayAggregation × RelaySubmission)) := do
  match ← (.call (.relaySubmit (posting.body circuit)) .pure :
      SdkM Fr (Except RelayError RelayAnswer)) with
  | .ok answer => return .proceed (posting, answer.submission)
  | .error (.rejected text) =>
      refusedArm config rebuilt attempts index wasAttempted posting
        (.rejected text)
  | .error error => .throw (.relay error)

def submitArm (config : SdkConfig Fr) (rebuilt : Bool) (attempts : ℕ)
    (index : ℕ) (pending : StoredRelayAggregation) :
    SdkM Fr (Turn (StoredRelayAggregation × RelaySubmission)) :=
  match pending.circuit with
  | none => do
      saveRelayAttempt .missingCircuit index { pending with rebuild := true }
      return .restart
  | some circuit => do
      let posting := { pending with attempted := true }
      saveRelayAttempt (.posting pending.attempted) index posting
      postArm config rebuilt attempts index pending.attempted posting circuit

/-- The request is on the chain; the winner is found by its outputs. -/
def landedArm (config : SdkConfig Fr) (index : ℕ)
    (pending : StoredRelayAggregation) (landed : RelaySubmission) :
    SdkM Fr (Option RelayAggregationOutcome) := do
  let seen := pending.observeProgress landed.status landed.transactionHash
  saveRelayAttempt (.landed landed.status landed.transactionHash) index seen
  let state ← readState
  let attempts := state.relayAggregations
  match ← relayWinner config attempts with
  | none => .throw .ambiguousAllocation
  | some (winner, attempt) =>
      let winning := { attempt with
        requestId := some landed.requestId
        transactionHash := seen.transactionHash.or attempt.transactionHash }
      saveRelayAttempt .winnerMetadata winner winning
      confirmWinner config attempts.length winning.emitted
      finishRelayAggregation config (some winner)

/-- What the end of the wait for an attempt's request means. -/
def awaitedArm (config : SdkConfig Fr) (rebuilt : Bool) (attempts : ℕ)
    (index : ℕ) (pending : StoredRelayAggregation) :
    Except RelayError RelaySubmission →
      SdkM Fr (Turn (Option RelayAggregationOutcome))
  | .ok landed => do
      let outcome ← landedArm config index pending landed
      return .proceed outcome
  | .error (.timeout requestId status transactionHash progressed) => do
      saveRelayAttempt (.timedOut status transactionHash progressed) index
        (pending.timedOut status transactionHash progressed)
      .throw (.relay (.timeout requestId status transactionHash progressed))
  | .error (.failed text) =>
      if attempts = 1 then do
        let _ ← finishRelayAggregation config none
        .throw (.relay (.failed text))
      else do
        saveRelayAttempt .failedBeside index { pending with rebuild := true }
        .throw (.relay (.failed text))
  | .error error =>
      if error.permitsReplacement then do
        saveRelayAttempt .awaitRefused index { pending with rebuild := true }
        restartUnless rebuilt error
      else .throw (.relay error)

def awaitArm (config : SdkConfig Fr) (rebuilt : Bool) (attempts : ℕ)
    (index : ℕ) (posted : StoredRelayAggregation)
    (submission : RelaySubmission) :
    SdkM Fr (Turn (Option RelayAggregationOutcome)) := do
  let pending := posted.held submission
  saveRelayAttempt (.observed submission.status submission.transactionHash)
    index pending
  let result ← (.call (.awaitInclusion submission) .pure :
    SdkM Fr (Except RelayError RelaySubmission))
  awaitedArm config rebuilt attempts index pending result

/-- An unposted proof without a circuit version is marked before it is looked
at. -/
def markLegacyCircuit (index : ℕ) (pending : StoredRelayAggregation) :
    SdkM Fr StoredRelayAggregation :=
  if pending.circuit = none ∧ ¬ pending.attempted ∧ ¬ pending.rebuild then do
    saveRelayAttempt .legacyCircuit index { pending with rebuild := true }
    return { pending with rebuild := true }
  else return pending

/-- The last attempt is not marked: look it up, post it, wait for it. -/
def settleArm (config : SdkConfig Fr) (rebuilt : Bool) (attempts : ℕ)
    (index : ℕ) (pending : StoredRelayAggregation) :
    SdkM Fr (Turn (Option RelayAggregationOutcome)) := do
  .require (config.relay = true) (.invalidValue
    "configure the relayer to recover the pending aggregation")
  match ← lookupArm rebuilt index pending with
  | .restart => return .restart
  | .proceed (some known) =>
      awaitArm config rebuilt attempts index pending known
  | .proceed none =>
      match ← submitArm config rebuilt attempts index pending with
      | .restart => return .restart
      | .proceed (posted, submission) =>
          awaitArm config rebuilt attempts index posted submission

/-- One iteration.  The flag of the result says whether a replacement has
been proved. -/
def relayTurn (config : SdkConfig Fr) (rebuild : SdkM Fr Unit)
    (rebuilt : Bool) :
    SdkM Fr (Bool × Turn (Option RelayAggregationOutcome)) := do
  let state ← readState
  .require (¬ state.relayIntents.any fun intent =>
    eqIgnoreAsciiCase intent.action "aggregation") .incompleteRelayRecovery
  let attempts := state.relayAggregations
  match attempts.getLast? with
  | none => return (rebuilt, .proceed none)
  | some pending =>
      let endpoints ← client
      .require (attempts.all fun attempt =>
          sameDeployment endpoints attempt.chainId attempt.aggregator)
        (.invalidValue "pending aggregation belongs to another deployment")
      match ← relayWinner config attempts with
      | some (winner, attempt) =>
          confirmWinner config attempts.length attempt.emitted
          let outcome ← finishRelayAggregation config (some winner)
          return (rebuilt, .proceed outcome)
      | none =>
          let index := attempts.length - 1
          let pending ← markLegacyCircuit index pending
          if pending.rebuild then
            .require (attempts.length < maxRelayAggregationAttempts)
              .relayAttemptLimit
            rebuild
            return (true, .restart)
          else
            let turn ← settleArm config rebuilt attempts.length index pending
            return (rebuilt, turn)

def relayLoop (config : SdkConfig Fr) (rebuild : SdkM Fr Unit) :
    ℕ → Bool → SdkM Fr (Option RelayAggregationOutcome)
  | 0, _ => .outOfFuel
  | fuel + 1, rebuilt => do
      match ← relayTurn config rebuild rebuilt with
      | (_, .proceed outcome) => return outcome
      | (rebuilt, .restart) => relayLoop config rebuild fuel rebuilt

/-- The loop goes round at most twice for each journalled attempt, once to
mark it and once to drop it, and twice for a replacement. -/
def reconcileRelayAggregationWith (config : SdkConfig Fr)
    (rebuild : SdkM Fr Unit) : SdkM Fr (Option RelayAggregationOutcome) := do
  let state ← readState
  relayLoop config rebuild (state.relayAggregations.length + 3) false

def reconcileRelayAggregation (config : SdkConfig Fr) :
    SdkM Fr (Option RelayAggregationOutcome) :=
  reconcileRelayAggregationWith config (rebuildRelayAggregation config)

end SdkM

end HoprStrategy.Curvy
