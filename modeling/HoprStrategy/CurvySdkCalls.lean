import HoprStrategy.CurvySdkState
import HoprStrategy.Library.Chunks
import HoprStrategy.Library.EffectProgram

/-!
# Calls of the Curvy SDK bridge

Everything the bridge asks of something else: its own locked state, the store,
the SDK client with the chain behind it, the node's chain key and the relayer.
The functions of the bridge are programs over these calls.  Each save carries
the update it makes durable.
-/

namespace HoprStrategy.Curvy

open Library

inductive CurvyShielding where
  | portal
  | direct
  deriving DecidableEq

inductive CurvySubmission where
  | relayer
  | operator
  deriving DecidableEq

structure Identity where
  bigK : String
  bigV : String
  bjjPub : String × String
  deriving DecidableEq

structure ScanRecipient where
  viewer : String × String
  owner : String × String
  deriving DecidableEq

structure TxLedger where
  txHash : String
  deriving DecidableEq

/-- The deployment as the endpoint names it. -/
structure CurvyChainEndpoints where
  aggregator : String
  portalFactory : Option String
  vault : String
  shieldRouter : Option String
  tokenAddress : String
  chainId : ℕ
  deriving DecidableEq

/-- What the bridge was built with.  `recipient` decompresses an owner and a
scan key, `addressText` says why a text is no address, and `balanceText` is how
a balance is displayed. -/
structure SdkConfig (Fr : Type) where
  codec : NoteCodec Fr
  shielding : CurvyShielding
  submission : CurvySubmission
  relay : Bool
  shielder : Bool
  feeRecipient : Option Identity
  tokenConfigured : Bool
  maxCommitNotes : ℕ
  recipient : Bytes → Bytes → Except String ScanRecipient
  addressText : String → Option String
  balanceText : HoprBalance → String

structure PreparedDeposit (Fr : Type) where
  note : OwnedNote Fr
  gross : ℕ
  recovery : String
  portalAddress : String

structure PixAggregationRequest (Fr : Type) where
  maxInputs : ℕ
  proof : Groth16Proof
  publicSignals : List String
  requestKey : String
  spendKey : String
  change : OwnedNote Fr
  emittedNotes : List (OwnedNote Fr)
  circuit : CircuitRef

structure PixWithdrawalRequest where
  maxInputs : ℕ
  proof : Groth16Proof
  publicSignals : List String
  requestKey : String
  spendKey : String
  circuit : CircuitRef
  delivered : ℕ
  deriving DecidableEq

inductive RelayAction where
  | aggregation
  | withdrawal
  deriving DecidableEq

def RelayAction.asStr : RelayAction → String
  | .aggregation => "aggregation"
  | .withdrawal => "withdrawal"

/-- The body of a POST to the relayer. -/
structure RelayBody where
  action : RelayAction
  chainId : ℕ
  maxInputs : ℕ
  circuit : CircuitRef
  proof : Groth16Proof
  publicSignals : List String
  requestKey : String
  spendKey : String
  intent : String
  deriving DecidableEq

/-- A failed submission by the SDK itself, and whether its outcome is open. -/
structure SubmissionFailure where
  message : String
  ambiguous : Bool
  deriving DecidableEq

inductive SnapshotFailure where
  | timedOut
  | source (message : String)
  deriving DecidableEq

/-- Why the client could not be built. -/
inductive ClientFailure where
  | discovery (message : String)
  | invalidValue (message : String)
  deriving DecidableEq

def ClientFailure.toSdkError : ClientFailure → SdkError
  | .discovery message => .discovery message
  | .invalidValue message => .invalidValue message

/-- Why an attempt in the relay journal was rewritten. -/
inductive AttemptUpdate where
  | legacyCircuit
  | lookupRefused
  | missingCircuit
  | posting (wasAttempted : Bool)
  | refusedRepost
  | observed (status : RelayStatus) (transactionHash : Option String)
  | awaitRefused
  | timedOut (status : RelayStatus) (transactionHash : Option String)
      (progressed : Bool)
  | failedBeside
  | landed (status : RelayStatus) (transactionHash : Option String)
  | winnerMetadata
  deriving DecidableEq

inductive Update where
  | journalDirectShield
  | bookDirectShield
  | journalShield
  | markShieldFunded
  | bookShield
  | bookAmbiguous
  | clearPending
  | prepareRelay
  | saveRelayAttempt (cause : AttemptUpdate)
  | finishRelay (winner : Option ℕ)
  | dropRejectedAttempt
  | prepareOperator
  | finishOperator (winner : Option ℕ)
  | dropOperatorAttempt
  | journalIntent
  | clearIntent
  deriving DecidableEq

/-- The updates which change the locked state before they save it.  The
others save a changed clone and then assign it. -/
def Update.mutatesFirst : Update → Bool
  | .journalDirectShield | .bookDirectShield | .journalShield
  | .markShieldFunded | .bookShield | .bookAmbiguous | .clearPending
  | .journalIntent | .clearIntent => true
  | _ => false

/-- What an allocation record is read for. -/
inductive RecordReader where
  | precheck
  | replacement
  | completion (update : Update)
  deriving DecidableEq

inductive SdkCall (Fr : Type) where
  | readState
  | writeState (state : SdkState)
  | saveUpdate (update : Update) (state : SdkState)
      (allocations : List StoredAllocation) (remove : List PixAddressId)
  | resetStore (state : SdkState)
  | allocation (reader : RecordReader) (id : PixAddressId)
  | client
  | token
  | vaultToken (token : ℕ)
  | noteStatus (noteId : Fr)
  | erc20Balance (token holder : String)
  | prepareDeposit (gross token : ℕ) (recovery : String)
  | prepareDirectShield (gross token : ℕ)
  | fundPortal (portal : String) (gross : ℕ)
  | shieldPreparedDeposit (prepared : PreparedDeposit Fr)
  | shieldCalldata (note : OwnedNote Fr) (gross : ℕ)
  | encodeRouterShield (endpoints : CurvyChainEndpoints) (gross : ℕ)
      (calldata : Bytes)
  | transactionCount
  | sendModuleCall (call : Bytes) (nonce : ℕ)
  | noncePolls (nonce : ℕ)
  | commit (noteIds : List Fr)
  | relayFee (chainId token : ℕ)
  | protocolFeeCollector
  | pixMinimumInput (token total : ℕ)
  | buildPixAggregation (inputs : List (OwnedNote Fr))
      (allocations : List (ScanRecipient × ℕ))
      (relayFee : Option (Identity × ℕ)) (feeRecipient : Option Identity)
  | submitPixAggregation (request : PixAggregationRequest Fr)
  | finalityCheckDue
  | notesTreeSnapshot
  | uuid
  | relaySubmit (body : RelayBody)
  | relayStatus (requestId : String)
  | relayByIntent (intent : String) (chainId : ℕ)
  | awaitInclusion (submission : RelaySubmission)
  | buildPixWithdrawal (notes : List (OwnedNote Fr)) (destination : String)
  | submitPixWithdrawal (request : PixWithdrawalRequest)

def SdkCall.Reply {Fr : Type} : SdkCall Fr → Type
  | .readState => SdkState
  | .writeState _ => Unit
  | .saveUpdate _ _ _ _ => Except String Unit
  | .resetStore _ => Except String Unit
  | .allocation _ _ => Except String (Option StoredAllocation)
  | .client => Except ClientFailure CurvyChainEndpoints
  | .token => Except String ℕ
  | .vaultToken _ => Except String String
  | .noteStatus _ => Except String ℕ
  | .erc20Balance _ _ => Except String ℕ
  | .prepareDeposit _ _ _ => Except String (PreparedDeposit Fr)
  | .prepareDirectShield _ _ => Except String (OwnedNote Fr)
  | .fundPortal _ _ => Except String Unit
  | .shieldPreparedDeposit _ => Except String TxLedger
  | .shieldCalldata _ _ => Except String Bytes
  | .encodeRouterShield _ _ _ => Except String Bytes
  | .transactionCount => Except String ℕ
  | .sendModuleCall _ _ => Except String String
  | .noncePolls _ => List (Except String ℕ)
  | .commit _ => Except String (List TxLedger)
  | .relayFee _ _ => Except (RelayError ⊕ String) (Option (Identity × ℕ))
  | .protocolFeeCollector => Except (RelayError ⊕ String) (Option Identity)
  | .pixMinimumInput _ _ => Except String ℕ
  | .buildPixAggregation _ _ _ _ => Except String (PixAggregationRequest Fr)
  | .submitPixAggregation _ => Except SubmissionFailure (List TxLedger)
  | .finalityCheckDue => Bool
  | .notesTreeSnapshot => Except SnapshotFailure (Option (List String))
  | .uuid => String
  | .relaySubmit _ => Except RelayError RelayAnswer
  | .relayStatus _ => Except RelayError RelaySubmission
  | .relayByIntent _ _ => Except RelayError (Option RelaySubmission)
  | .awaitInclusion _ => Except RelayError RelaySubmission
  | .buildPixWithdrawal _ _ => Except String PixWithdrawalRequest
  | .submitPixWithdrawal _ => Except String (ℕ × List TxLedger)

abbrev SdkM (Fr : Type) : Type → Type :=
  Program (SdkCall Fr) SdkCall.Reply SdkError

namespace SdkM

variable {Fr : Type}

/-- `db_error`. -/
def dbError (message : String) : SdkError := .sdk message

/-- A relay failure, or a value the fee note cannot be priced from. -/
def feeError : RelayError ⊕ String → SdkError
  | .inl error => .relay error
  | .inr message => .invalidValue message

def readState : SdkM Fr SdkState := .call .readState .pure

def writeState (state : SdkState) : SdkM Fr Unit :=
  .call (.writeState state) .pure

def saveUpdate (update : Update) (state : SdkState)
    (allocations : List StoredAllocation) (remove : List PixAddressId) :
    SdkM Fr Unit :=
  .call (.saveUpdate update state allocations remove) (.raise dbError)

def save (update : Update) (state : SdkState) : SdkM Fr Unit :=
  saveUpdate update state [] []

def allocation (reader : RecordReader) (id : PixAddressId) :
    SdkM Fr (Option StoredAllocation) :=
  .call (.allocation reader id) (.raise dbError)

def client : SdkM Fr CurvyChainEndpoints :=
  .call .client (.raise ClientFailure.toSdkError)

def token : SdkM Fr ℕ := .call .token (.raise .discovery)

def noteStatus (noteId : Fr) : SdkM Fr ℕ :=
  .call (.noteStatus noteId) (.raise .sdk)

def erc20Balance (token holder : String) : SdkM Fr ℕ :=
  .call (.erc20Balance token holder) (.raise .sdk)

def buildPixAggregation (inputs : List (OwnedNote Fr))
    (allocations : List (ScanRecipient × ℕ))
    (relayFee : Option (Identity × ℕ)) (feeRecipient : Option Identity) :
    SdkM Fr (PixAggregationRequest Fr) :=
  .call (.buildPixAggregation inputs allocations relayFee feeRecipient)
    (.raise .sdk)

def finalityCheckDue : SdkM Fr Bool := .call .finalityCheckDue .pure

def notesTreeSnapshot :
    SdkM Fr (Except SnapshotFailure (Option (List String))) :=
  .call .notesTreeSnapshot .pure

/-- `relay_fee_recipient`: the operator's identity and the price of its
note. -/
def relayFeeRecipient (chainId token : ℕ) :
    SdkM Fr (Option (Identity × ℕ)) :=
  .call (.relayFee chainId token) (.raise feeError)

def ofExcept {α : Type} (result : Except SdkError α) : SdkM Fr α :=
  .raise id result

/-- The protocol fee collector an aggregation's fee note is sealed to. -/
def feeRecipient (config : SdkConfig Fr) : SdkM Fr (Option Identity) :=
  match config.feeRecipient with
  | some identity => return some identity
  | none =>
      if config.relay then .call .protocolFeeCollector (.raise feeError)
      else return none

/-- The records of the ids, each of which must exist. -/
def preparedAllocations (reader : RecordReader) :
    List PixAddressId → SdkM Fr (List StoredAllocation)
  | [] => return []
  | id :: rest => do
      match ← allocation reader id with
      | none => .throw (.invalidValue "missing prepared allocation record")
      | some record =>
          let records ← preparedAllocations reader rest
          return record :: records

def completedAllocations (update : Update) (ids : List PixAddressId) :
    SdkM Fr (List StoredAllocation) := do
  let records ← preparedAllocations (.completion update) ids
  return records.map fun record => { record with stage := .completed }

/-- Whether the chain knows every note, and there is one. -/
def notesKnownFrom (config : SdkConfig Fr) : List StoredNote → SdkM Fr Bool
  | [] => return true
  | stored :: rest => do
      let note ← ofExcept (stored.toOwned config.codec)
      let status ← noteStatus (config.codec.noteId note)
      if status = 1 ∨ status = 2 then notesKnownFrom config rest
      else return false

def notesKnown (config : SdkConfig Fr) (notes : List StoredNote) :
    SdkM Fr Bool :=
  match notes with
  | [] => return false
  | _ => do
      let _ ← client
      notesKnownFrom config notes

/-- Succeeds when the outputs are leaves of the finalized tree. -/
def checkOutputsFinalized (config : SdkConfig Fr)
    (emitted : List StoredNote) : SdkM Fr Unit := do
  let _ ← client
  let notes ← ofExcept (emitted.mapM fun stored => stored.toOwned config.codec)
  let ids := notes.map fun note =>
    config.codec.frToDec (config.codec.noteId note)
  let due ← finalityCheckDue
  .require (due = true) .relayFinalityPending
  match ← notesTreeSnapshot with
  | .error .timedOut =>
      .throw (.relayFinalityUnavailable "the note source timed out")
  | .error (.source message) => .throw (.sdk message)
  | .ok none =>
      .throw (.relayFinalityUnavailable ("the note source returned no " ++
        "finalized checkpoint; retry when a checkpoint is available"))
  | .ok (some leaves) =>
      .require (∀ id ∈ ids, id ∈ leaves) .relayFinalityPending

/-- With more than one attempt only a finalized tree tells the winner. -/
def confirmWinner (config : SdkConfig Fr) (attempts : ℕ)
    (emitted : List StoredNote) : SdkM Fr Unit :=
  if attempts > 1 then checkOutputsFinalized config emitted else .pure ()

/-- The notes of one chunk which are not committed yet. -/
def uncommitted (config : SdkConfig Fr) :
    List (OwnedNote Fr) → SdkM Fr (List Fr)
  | [] => return []
  | note :: rest => do
      let status ← noteStatus (config.codec.noteId note)
      let ids ← uncommitted config rest
      return if status = 2 then ids else config.codec.noteId note :: ids

def commitNotes (ids : List Fr) : SdkM Fr (List TxLedger) :=
  if ids.isEmpty then .pure [] else .call (.commit ids) (.raise .sdk)

def commitChunks (config : SdkConfig Fr) :
    List (List (OwnedNote Fr)) → SdkM Fr (List TxLedger)
  | [] => return []
  | chunk :: rest => do
      let ids ← uncommitted config chunk
      let entries ← commitNotes ids
      let ledger ← commitChunks config rest
      return entries ++ ledger

/-- Under relayed submission the deployment commits, so the list is only
forgotten. -/
def recoverPending (config : SdkConfig Fr) : SdkM Fr (List TxLedger) :=
  match config.submission with
  | .relayer => do
      let state ← readState
      if state.pending.isEmpty then return []
      else
        writeState { state with pending := [] }
        save .clearPending { state with pending := [] }
        return []
  | .operator => do
      let state ← readState
      if state.pending.isEmpty then return []
      else
        let _ ← client
        let notes ← ofExcept
          (state.pending.mapM fun stored => stored.toOwned config.codec)
        let ledger ← commitChunks config (chunks config.maxCommitNotes notes)
        let state ← readState
        writeState { state with pending := [] }
        save .clearPending { state with pending := [] }
        return ledger

end SdkM

end HoprStrategy.Curvy
