import HoprStrategy.CurvyShield

/-!
# Allocating deposits and withdrawing notes

`allocateAll` settles whatever an earlier run left in a journal, checks every
deposit against its allocation record, and then proves and submits the
deposits chunk by chunk.  Under operator submission a chunk is journalled,
broadcast by the SDK and booked; a journalled aggregation of an earlier run is
booked or proved again over the same inputs.
-/

namespace HoprStrategy.Curvy

open Library

/-- Refusals the SDK raises before it submits an aggregation. -/
def preSubmissionRefusals : List String :=
  ["fee-collector identity does not own the aggregator's feeNotePublicKey",
    "PIX aggregation requires",
    "PIX allocation amounts must be non-zero",
    "PIX allocation owner must differ from the funding account",
    "PIX aggregation input is not owned by the funding account",
    "PIX aggregation inputs must",
    "PIX relayer note must carry a non-zero gas reimbursement",
    "PIX relayer owner must differ from the funding account"]

def isPreSubmissionRefusal (message : String) : Bool :=
  preSubmissionRefusals.any (textContains message)

/-- One deposit handed to `allocate`. -/
structure Deposit where
  id : PixAddressId
  address : Bytes
  scanKey : Bytes
  amount : HoprBalance
  deriving DecidableEq

/-- `StoredAllocation::new`. -/
def StoredAllocation.new (deposit : Deposit) : StoredAllocation where
  id := deposit.id
  address := deposit.address
  scanKey := deposit.scanKey
  amount := deposit.amount.wei
  stage := .prepared

def StoredAllocation.matches (record : StoredAllocation)
    (deposit : Deposit) : Bool :=
  record.address == deposit.address && record.scanKey == deposit.scanKey &&
    record.amount == deposit.amount.wei

/-- The ids named by any journal. -/
def SdkState.journalledIds (state : SdkState) : List PixAddressId :=
  state.relayAggregations.flatMap (·.allocationIds) ++
    state.operatorAggregations.flatMap (·.allocationIds) ++
    state.ambiguousAllocationIds

namespace SdkM

variable {Fr : Type}

/-- Marks an error which looks fund-free as following a submission. -/
def tagAfterSubmission (error : SdkError) : SdkError :=
  match error with
  | .noFunding required =>
      .afterSubmission (SdkError.noFunding required).display true
  | .sdk message =>
      if isPreSubmissionRefusal message then .afterSubmission message false
      else .sdk message
  | error => error

/-! ## Operator submission -/

def finishOperatorAggregation (config : SdkConfig Fr)
    (winner : Option ℕ) : SdkM Fr Unit := do
  let current ← readState
  match current.operatorAggregations[winner.getD 0]? with
  | none => return ()
  | some attempt =>
      match winner with
      | some index =>
          let change ← ofExcept (bookedChange config attempt.change)
          let completed ← completedAllocations (.finishOperator (some index))
            attempt.allocationIds
          let next := { current with
            funding := current.fundingAfter attempt.inputs change
            pending := current.pending ++ attempt.emitted
            operatorAggregations := [] }
          saveUpdate (.finishOperator (some index)) next completed []
          writeState next
      | none =>
          let next := { current with operatorAggregations := [] }
          saveUpdate (.finishOperator none) next [] attempt.allocationIds
          writeState next

/-- Forgets one attempt the SDK reported as definitively failed. -/
def dropOperatorAttempt (config : SdkConfig Fr) (index : ℕ) :
    SdkM Fr Unit := do
  let current ← readState
  if current.operatorAggregations.length = 1 then
    finishOperatorAggregation config none
  else
    let next := { current with
      operatorAggregations := current.operatorAggregations.eraseIdx index }
    save .dropOperatorAttempt next
    writeState next

def operatorAttempt (config : SdkConfig Fr)
    (endpoints : CurvyChainEndpoints) (request : PixAggregationRequest Fr)
    (inputs : List (OwnedNote Fr)) (records : List StoredAllocation) :
    StoredOperatorAggregation where
  chainId := endpoints.chainId
  aggregator := endpoints.aggregator
  inputs := inputs.map (StoredNote.ofOwned config.codec)
  change := StoredNote.ofOwned config.codec request.change
  emitted := emittedNotes config request
  allocationIds := records.map StoredAllocation.id

/-- A replacement must spend what the attempts it competes with spend. -/
def competesWith (previous attempt : StoredOperatorAggregation) : Bool :=
  previous.inputs == attempt.inputs &&
    previous.allocationIds == attempt.allocationIds &&
    previous.chainId == attempt.chainId &&
    eqIgnoreAsciiCase previous.aggregator attempt.aggregator

/-- Journals an attempt and tells its index. -/
def prepareOperatorAggregation (attempt : StoredOperatorAggregation)
    (records : List StoredAllocation) : SdkM Fr ℕ := do
  let current ← readState
  .require (current.operatorAggregations.getLast?.all fun previous =>
      competesWith previous attempt)
    (.invalidValue ("a replacement aggregation must preserve its " ++
      "deployment, inputs and allocations"))
  .require (current.operatorAggregations.length < maxRelayAggregationAttempts)
    .relayAttemptLimit
  let next := { current with
    operatorAggregations := current.operatorAggregations ++ [attempt] }
  saveUpdate .prepareOperator next records []
  writeState next
  return current.operatorAggregations.length

/-- Journals a self-submitted aggregation, then submits it. -/
def submitOperatorAggregation (config : SdkConfig Fr)
    (endpoints : CurvyChainEndpoints) (request : PixAggregationRequest Fr)
    (inputs : List (OwnedNote Fr)) (records : List StoredAllocation) :
    SdkM Fr (List TxLedger) := do
  let attempt := operatorAttempt config endpoints request inputs records
  let index ← prepareOperatorAggregation attempt records
  match ← (.call (.submitPixAggregation request) .pure :
      SdkM Fr (Except SubmissionFailure (List TxLedger))) with
  | .ok ledger =>
      confirmWinner config (index + 1) attempt.emitted
      finishOperatorAggregation config (some index)
      return ledger
  | .error failure =>
      if failure.ambiguous then .throw (.sdk failure.message)
      else
        dropOperatorAttempt config index
        .throw (.sdk failure.message)

/-- The first attempt, counted from `index`, whose outputs the chain knows. -/
def operatorWinnerFrom (config : SdkConfig Fr) :
    ℕ → List StoredOperatorAggregation →
      SdkM Fr (Option (ℕ × StoredOperatorAggregation))
  | _, [] => return none
  | index, attempt :: rest => do
      let known ← notesKnown config attempt.emitted
      if known then return some (index, attempt)
      else operatorWinnerFrom config (index + 1) rest

def reconcileOperatorAggregationWith (config : SdkConfig Fr)
    (retry : SdkM Fr Unit) : SdkM Fr Unit := do
  let state ← readState
  let attempts := state.operatorAggregations
  if attempts.isEmpty then return ()
  else
    let endpoints ← client
    .require (attempts.all fun attempt =>
        sameDeployment endpoints attempt.chainId attempt.aggregator)
      (.invalidValue "pending aggregation belongs to another deployment")
    match ← operatorWinnerFrom config 0 attempts with
    | some (index, attempt) =>
        confirmWinner config attempts.length attempt.emitted
        finishOperatorAggregation config (some index)
        let _ ← recoverPending config
        return ()
    | none =>
        .require (attempts.length < maxRelayAggregationAttempts)
          .relayAttemptLimit
        retry

/-- Proves and submits a replacement over the inputs of the journal. -/
def retryOperatorAggregation (config : SdkConfig Fr) :
    SdkM Fr (List TxLedger) := do
  let state ← readState
  match state.operatorAggregations.getLast? with
  | none => .throw .ambiguousAllocation
  | some pending =>
      let inputs ← ofExcept
        (pending.inputs.mapM (StoredNote.toOwned config.codec))
      let records ← preparedAllocations .replacement pending.allocationIds
      let allocations ← ofExcept (records.mapM (proverAllocation config))
      let endpoints ← client
      let feeRecipient ← feeRecipient config
      let request ← buildPixAggregation inputs allocations none feeRecipient
      let ledger ← submitOperatorAggregation config endpoints request inputs
        records
      let more ← recoverPending config
      return ledger ++ more

def reconcileOperatorAggregation (config : SdkConfig Fr) : SdkM Fr Unit :=
  reconcileOperatorAggregationWith config do
    let _ ← retryOperatorAggregation config
    return ()

/-! ## The legacy ambiguous aggregation -/

/-- Whether the chain knows any of the notes. -/
def anyObserved (config : SdkConfig Fr) :
    List (OwnedNote Fr) → SdkM Fr Bool
  | [] => return false
  | note :: rest => do
      let status ← noteStatus (config.codec.noteId note)
      if status = 1 ∨ status = 2 then return true
      else anyObserved config rest

def bookAmbiguous (inputs : List StoredNote) (change : StoredNote)
    (emitted : List StoredNote) (allocationIds : List PixAddressId) :
    SdkM Fr Unit := do
  let state ← readState
  let next := { state with
    funding := state.fundingAfter inputs [change]
    pending := state.pending ++ emitted
    ambiguousAllocation := false
    ambiguousInputs := []
    ambiguousChange := none
    ambiguousEmitted := [] }
  writeState next
  let completed ← completedAllocations .bookAmbiguous allocationIds
  let last := { next with ambiguousAllocationIds := [] }
  writeState last
  saveUpdate .bookAmbiguous last completed []

/-- `false` while no output of the ambiguous aggregation is indexed. -/
def reconcileAmbiguousAllocation (config : SdkConfig Fr) :
    SdkM Fr Bool := do
  let _ ← client
  let state ← readState
  if ¬ state.ambiguousAllocation then return true
  else if state.ambiguousInputs.isEmpty then return false
  else
    match state.ambiguousChange with
    | none => return false
    | some change =>
        let notes ← ofExcept
          (state.ambiguousEmitted.mapM (StoredNote.toOwned config.codec))
        let observed ← anyObserved config notes
        if observed then
          bookAmbiguous state.ambiguousInputs change state.ambiguousEmitted
            state.ambiguousAllocationIds
          let _ ← recoverPending config
          return true
        else return false

/-! ## Allocation -/

/-- Deposits in the order of the batch which are still to be funded, and
whether one of the batch was funded earlier. -/
def precheckDeposits (journalled : List PixAddressId) :
    List Deposit → SdkM Fr (List Deposit × Bool)
  | [] => return ([], false)
  | deposit :: rest => do
      match ← allocation .precheck deposit.id with
      | none =>
          let (pending, completed) ← precheckDeposits journalled rest
          return (deposit :: pending, completed)
      | some existing =>
          .require (existing.matches deposit = true) .conflictingAllocation
          match existing.stage with
          | .completed =>
              let (pending, _) ← precheckDeposits journalled rest
              return (pending, true)
          | .prepared =>
              .require (existing.id ∉ journalled) .ambiguousAllocation
              let (pending, completed) ← precheckDeposits journalled rest
              return (deposit :: pending, completed)

def depositAllocation (config : SdkConfig Fr) (deposit : Deposit) :
    Except SdkError (ScanRecipient × ℕ) := do
  if deposit.amount.wei < 2 ^ 128 then pure ()
  else
    throw (.invalidValue
      (config.balanceText deposit.amount ++ " does not fit u128"))
  let recipient ← (config.recipient deposit.address deposit.scanKey).mapError
    SdkError.invalidValue
  return (recipient, deposit.amount.wei)

/-- A sum which must fit 128 bits. -/
def checkedTotal (what : String) : ℕ → List ℕ → Except SdkError ℕ
  | total, [] => .ok total
  | total, amount :: rest =>
      if total + amount < 2 ^ 128 then checkedTotal what (total + amount) rest
      else .error (.invalidValue (what ++ " overflows u128"))

structure FundingCandidate (Fr : Type) where
  note : OwnedNote Fr
  amount : ℕ

def fundingCandidate (config : SdkConfig Fr) (stored : StoredNote) :
    Except SdkError (FundingCandidate Fr) := do
  let note ← stored.toOwned config.codec
  if config.codec.frToBiguint note.amount < 2 ^ 128 then
    return ⟨note, config.codec.frToBiguint note.amount⟩
  else throw (.invalidValue "funding amount does not fit u128")

/-- The candidates by descending amount.  The source sorts unstably; here
equal amounts keep their order. -/
def sortCandidates (candidates : List (FundingCandidate Fr)) :
    List (FundingCandidate Fr) :=
  candidates.mergeSort fun left right => decide (right.amount ≤ left.amount)

/-- One note which covers the minimum, or the two largest ones. -/
def selectFunding (config : SdkConfig Fr) (funding : List StoredNote)
    (minimum : ℕ) : Except SdkError (List (OwnedNote Fr)) := do
  let candidates ← funding.mapM (fundingCandidate config)
  let sorted := sortCandidates candidates
  match sorted.find? fun candidate => decide (minimum ≤ candidate.amount) with
  | some single => return [single.note]
  | none =>
      let selected := sorted.take maxAllocationInputs
      let available ← checkedTotal "funding total" 0
        (selected.map (·.amount))
      if available < minimum then throw (.noFunding minimum)
      else return selected.map (·.note)

def chunkRelayFee (config : SdkConfig Fr) (endpoints : CurvyChainEndpoints) :
    SdkM Fr (Option (Identity × ℕ)) :=
  match config.submission with
  | .relayer =>
      if config.relay then do
        let token ← token
        relayFeeRecipient endpoints.chainId token
      else .throw (.invalidValue ("relayed submission was selected but the " ++
        "pool was built without a relayer"))
  | .operator => return none

/-- Everything of a chunk up to its proof. -/
def proveChunk (config : SdkConfig Fr) (endpoints : CurvyChainEndpoints)
    (chunk : List Deposit) :
    SdkM Fr (List (OwnedNote Fr) × PixAggregationRequest Fr) := do
  let relayFee ← chunkRelayFee config endpoints
  let feeRecipient ← feeRecipient config
  let allocations ← ofExcept (chunk.mapM (depositAllocation config))
  let total ← ofExcept
    (checkedTotal "allocation total" 0 (allocations.map (·.2)))
  let token ← token
  let minimum ← (.call (.pixMinimumInput token total) (.raise .sdk) :
    SdkM Fr ℕ)
  let state ← readState
  let funding ← ofExcept (selectFunding config state.funding minimum)
  let request ← buildPixAggregation funding allocations relayFee feeRecipient
  return (funding, request)

def allocateChunk (config : SdkConfig Fr) (endpoints : CurvyChainEndpoints)
    (chunk : List Deposit) : SdkM Fr (List TxLedger) := do
  let (funding, request) ← proveChunk config endpoints chunk
  let records := chunk.map StoredAllocation.new
  match config.submission with
  | .relayer =>
      prepareRelayAggregation config request endpoints funding records
      let _ ← (reconcileRelayAggregation config).mapError tagAfterSubmission
      recoverPending config
  | .operator =>
      let receipts ← submitOperatorAggregation config endpoints request
        funding records
      let more ← recoverPending config
      return receipts ++ more

/-- The chunks in order.  Once one was submitted, no later error proves that
nothing moved. -/
def allocateChunks (config : SdkConfig Fr) (endpoints : CurvyChainEndpoints) :
    Bool → List (List Deposit) → SdkM Fr (List TxLedger)
  | _, [] => return []
  | submitted, chunk :: rest => do
      let receipts ← (allocateChunk config endpoints chunk).mapError
        fun error => if submitted then tagAfterSubmission error else error
      let more ← allocateChunks config endpoints true rest
      return receipts ++ more

/-- Whether nothing ambiguous is left from an earlier version. -/
def ambiguousResolved (config : SdkConfig Fr) (ambiguous : Bool) :
    SdkM Fr Bool :=
  if ambiguous then reconcileAmbiguousAllocation config else .pure true

def allocateAll (config : SdkConfig Fr) (deposits : List Deposit) :
    SdkM Fr (List TxLedger) := do
  let endpoints ← client
  let _ ← (reconcileRelayAggregation config).mapError tagAfterSubmission
  let state ← readState
  let resolved ← ambiguousResolved config state.ambiguousAllocation
  .require (resolved = true) .ambiguousAllocation
  (reconcileOperatorAggregation config).mapError tagAfterSubmission
  let state ← readState
  let (pending, completedEarlier) ←
    precheckDeposits state.journalledIds deposits
  let receipts ← recoverPending config
  let more ← allocateChunks config endpoints
    (!receipts.isEmpty || completedEarlier)
    (chunks maxAllocationsPerProof pending)
  return receipts ++ more

def allocate (config : SdkConfig Fr) (deposits : List Deposit) :
    SdkM Fr Unit := do
  let _ ← allocateAll config deposits
  return ()

/-! ## Withdrawal -/

def journalIntent (intent action spendKey : String) : SdkM Fr Unit := do
  let state ← readState
  let next := { state with
    relayIntents := state.relayIntents ++ [⟨intent, action, spendKey⟩] }
  writeState next
  save .journalIntent next

def clearIntent (intent : String) : SdkM Fr Unit := do
  let state ← readState
  let next := { state with
    relayIntents :=
      state.relayIntents.filter fun stored => stored.intent ≠ intent }
  writeState next
  save .clearIntent next

/-- The submission of a POST, which may have arrived although its answer was
lost. -/
def acceptedSubmission (intent : String) (chainId : ℕ) :
    Except RelayError RelaySubmission → SdkM Fr RelaySubmission
  | .ok submission => return submission
  | .error error => do
      match ← relayByIntent intent chainId with
      | .ok (some recovered) => return recovered
      | .ok none =>
          clearIntent intent
          .throw (.relay error)
      | .error _ => .throw (.relay error)

/-- Submits a withdrawal proof through the relayer and waits for it. -/
def relaySubmit (chainId : ℕ) (request : PixWithdrawalRequest) :
    SdkM Fr Unit := do
  let intent ← (.call .uuid .pure : SdkM Fr String)
  journalIntent intent (RelayAction.asStr .withdrawal) request.spendKey
  let submitted ← (.call (.relaySubmit ⟨.withdrawal, chainId,
      request.maxInputs, request.circuit, request.proof,
      request.publicSignals, request.requestKey, request.spendKey, intent⟩)
    .pure : SdkM Fr (Except RelayError RelayAnswer))
  let submission ← acceptedSubmission intent chainId
    (submitted.map RelayAnswer.submission)
  match ← (.call (.awaitInclusion submission) .pure :
      SdkM Fr (Except RelayError RelaySubmission)) with
  | .ok _ => clearIntent intent
  | .error error => .throw (.relay error)

/-- Withdraws one chunk and tells the amount. -/
def withdrawChunk (config : SdkConfig Fr) (endpoints : CurvyChainEndpoints)
    (destination : String) (chunk : List (OwnedNote Fr)) : SdkM Fr ℕ := do
  let request ← (.call (.buildPixWithdrawal chunk destination) (.raise .sdk) :
    SdkM Fr PixWithdrawalRequest)
  match config.submission with
  | .relayer =>
      .require (config.relay = true) (.invalidValue
        ("relayed submission was selected but the pool was built without " ++
          "a relayer"))
      relaySubmit endpoints.chainId request
      return request.delivered
  | .operator =>
      let (amount, _) ← (.call (.submitPixWithdrawal request) (.raise .sdk) :
        SdkM Fr (ℕ × List TxLedger))
      return amount

/-- The ids of the notes spent and the amount withdrawn, which saturates. -/
def withdrawChunks (config : SdkConfig Fr) (endpoints : CurvyChainEndpoints)
    (destination : String) (spent : List Fr) (withdrawn : ℕ) :
    List (List (OwnedNote Fr)) → SdkM Fr (List Fr × ℕ)
  | [] => return (spent, withdrawn)
  | chunk :: rest => do
      let amount ← withdrawChunk config endpoints destination chunk
      withdrawChunks config endpoints destination
        (spent ++ chunk.map config.codec.noteId)
        (min (withdrawn + amount) (2 ^ 128 - 1)) rest

/-- `withdraw` with the notes its selection picked, or the error it ended
with. -/
def withdraw (config : SdkConfig Fr)
    (selected : Except SdkError (List (OwnedNote Fr))) (destination : String) :
    SdkM Fr Unit := do
  let notes ← ofExcept selected
  let endpoints ← client
  let _ ← withdrawChunks config endpoints destination [] 0
    (chunks maxWithdrawalInputs notes)
  return ()

/-- Discards everything chain-specific but the node's identity. -/
def resetChainState : SdkM Fr Unit := do
  let state ← readState
  writeState (SdkState.fresh state.spender)
  .call (.resetStore (SdkState.fresh state.spender)) (.raise dbError)

end SdkM

end HoprStrategy.Curvy
