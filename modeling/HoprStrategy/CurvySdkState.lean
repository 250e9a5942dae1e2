import HoprStrategy.HoprBalance
import Mathlib.Data.List.Basic
import Mathlib.Data.List.Nodup

/-!
# Durable state of the Curvy SDK bridge

What the bridge keeps across restarts: the notes which fund allocations, the
shield, relay and operator journals, and one record for each allocation id.
Numbers which are stored as decimal strings are the numbers themselves, except
the field elements of a note, whose spelling a note is compared by.
-/

namespace HoprStrategy.Curvy

abbrev Bytes : Type := List UInt8

abbrev PixAddressId : Type := Bytes

/-- ASCII case-insensitive equality, as addresses are compared. -/
def eqIgnoreAsciiCase (left right : String) : Bool :=
  left.toList.map Char.toLower == right.toList.map Char.toLower

theorem eqIgnoreAsciiCase_iff (left right : String) :
    eqIgnoreAsciiCase left right = true ↔
      left.toList.map Char.toLower = right.toList.map Char.toLower := by
  simp [eqIgnoreAsciiCase]

theorem eqIgnoreAsciiCase_trans {left middle right : String}
    (hleft : eqIgnoreAsciiCase left middle = true)
    (hright : eqIgnoreAsciiCase middle right = true) :
    eqIgnoreAsciiCase left right = true := by
  rw [eqIgnoreAsciiCase_iff] at *
  exact hleft.trans hright

theorem eqIgnoreAsciiCase_symm {left right : String}
    (h : eqIgnoreAsciiCase left right = true) :
    eqIgnoreAsciiCase right left = true := by
  rw [eqIgnoreAsciiCase_iff] at *
  exact h.symm

@[simp] theorem eqIgnoreAsciiCase_refl (text : String) :
    eqIgnoreAsciiCase text text = true := by
  rw [eqIgnoreAsciiCase_iff]

/-! ## The relayer's answers -/

inductive RelayStatus where
  | queued
  | submitting
  | submitted
  | included
  | finalized
  | reorged
  | failed
  deriving DecidableEq

def RelayStatus.isOnChain : RelayStatus → Bool
  | .included | .finalized => true
  | _ => false

def RelayStatus.isTerminal : RelayStatus → Bool
  | .included | .finalized | .failed => true
  | _ => false

structure RelaySubmission where
  requestId : String
  status : RelayStatus
  transactionHash : Option String
  error : Option String
  deriving DecidableEq

/-- What a POST which is not refused is answered with: its own submission, or
in a conflict the one which holds the spend already. -/
inductive RelayAnswer where
  | accepted (submission : RelaySubmission)
  | conflict (submission : RelaySubmission)
  deriving DecidableEq

/-- What `RelayClient::submit` returns of it. -/
def RelayAnswer.submission : RelayAnswer → RelaySubmission
  | .accepted submission => submission
  | .conflict submission => submission

inductive RelayError where
  | missingRequest (requestId : String)
  | accessDenied (text : String)
  | rateLimited (text : String)
  | rejected (text : String)
  | transport (text : String)
  | failed (text : String)
  | timeout (requestId : String) (status : RelayStatus)
      (transactionHash : Option String) (progressed : Bool)
  deriving DecidableEq

/-- The `Debug` spelling of a status. -/
def RelayStatus.debug : RelayStatus → String
  | .queued => "Queued"
  | .submitting => "Submitting"
  | .submitted => "Submitted"
  | .included => "Included"
  | .finalized => "Finalized"
  | .reorged => "Reorged"
  | .failed => "Failed"

def RelayError.display : RelayError → String
  | .missingRequest requestId =>
      "the Curvy relayer no longer knows request " ++ requestId
  | .accessDenied text => "the Curvy relayer denied access: " ++ text
  | .rateLimited text =>
      "the Curvy relayer rate limited the request: " ++ text
  | .rejected text => "the Curvy relayer rejected the submission: " ++ text
  | .transport text => "the Curvy relayer is unreachable: " ++ text
  | .failed text => "the Curvy relayer reported a failed submission: " ++ text
  | .timeout requestId status _ _ =>
      "timed out waiting for the Curvy relayer to submit " ++ requestId ++
        ", last status " ++ status.debug

/-- Errors which permit a replacement over the same inputs. -/
def RelayError.permitsReplacement : RelayError → Bool
  | .missingRequest _ | .rejected _ => true
  | _ => false

/-- `terminal`: the result of a submission which will not change any more. -/
def RelaySubmission.terminal (submission : RelaySubmission) :
    Except RelayError RelaySubmission :=
  if submission.status.isOnChain then .ok submission
  else .error (.failed
    (submission.error.getD ("status " ++ submission.status.debug)))

/-- The polling loop of `await_inclusion` over the status replies which arrive
before the deadline. -/
def pollInclusion (current : RelaySubmission) (progressed : Bool) :
    List (Except RelayError RelaySubmission) →
      Except RelayError RelaySubmission
  | [] => .error (.timeout current.requestId current.status
      current.transactionHash progressed)
  | .error error :: _ => .error error
  | .ok next :: rest =>
      let moved := progressed || next.status != current.status ||
        next.transactionHash.any fun hash =>
          some hash != current.transactionHash
      let now := { next with
        transactionHash := next.transactionHash.or current.transactionHash }
      if now.status.isTerminal then now.terminal
      else pollInclusion now moved rest

def awaitInclusion (submission : RelaySubmission)
    (polls : List (Except RelayError RelaySubmission)) :
    Except RelayError RelaySubmission :=
  if submission.status.isTerminal then submission.terminal
  else pollInclusion submission false polls

/-! ## Stored records -/

structure StoredNote where
  ownerPub : String × String
  sharedSecret : String
  ephemeralKey : String × String
  viewTag : ℕ
  amount : String
  token : String
  deriving DecidableEq

inductive StoredShieldStage where
  | prepared
  | funded
  deriving DecidableEq

structure StoredRelayIntent where
  intent : String
  action : String
  spendKey : String
  deriving DecidableEq

structure Groth16Proof where
  a : List String
  b : List (List String)
  c : List String
  deriving DecidableEq

structure CircuitRef where
  family : String
  version : ℕ
  deriving DecidableEq

/-- Everything needed to replay a proof and to recover its private change. -/
structure StoredRelayAggregation where
  intent : String
  chainId : ℕ
  aggregator : String
  maxInputs : ℕ
  proof : Groth16Proof
  publicSignals : List String
  requestKey : String
  spendKey : String
  inputs : List StoredNote
  change : StoredNote
  emitted : List StoredNote
  allocationIds : List PixAddressId
  /-- Written before the first POST. -/
  attempted : Bool
  requestId : Option String
  transactionHash : Option String
  /-- The attempt needs a fresh proof, but an earlier POST may still land. -/
  rebuild : Bool
  lastStatus : Option RelayStatus
  timeoutsWithoutProgress : UInt8
  circuit : Option CircuitRef
  deriving DecidableEq

/-- `u8::saturating_add`. -/
def saturatingSucc (count : UInt8) : UInt8 :=
  if count = 255 then 255 else count + 1

namespace StoredRelayAggregation

/-- Whether a status report shows the request moving. -/
def showsProgress (attempt : StoredRelayAggregation) (status : RelayStatus)
    (transactionHash : Option String) : Bool :=
  attempt.lastStatus != some status ||
    transactionHash.any fun hash => some hash != attempt.transactionHash

def observeProgress (attempt : StoredRelayAggregation) (status : RelayStatus)
    (transactionHash : Option String) : StoredRelayAggregation :=
  { attempt with
    timeoutsWithoutProgress :=
      if attempt.showsProgress status transactionHash then 0
      else attempt.timeoutsWithoutProgress
    lastStatus := some status
    transactionHash := transactionHash.or attempt.transactionHash }

end StoredRelayAggregation

structure StoredOperatorAggregation where
  chainId : ℕ
  aggregator : String
  inputs : List StoredNote
  change : StoredNote
  emitted : List StoredNote
  allocationIds : List PixAddressId
  deriving DecidableEq

structure StoredDirectShield where
  note : StoredNote
  gross : ℕ
  deriving DecidableEq

structure StoredShield where
  note : StoredNote
  gross : ℕ
  recovery : String
  portalAddress : String
  stage : StoredShieldStage
  deriving DecidableEq

inductive StoredAllocationStage where
  | prepared
  | completed
  deriving DecidableEq

structure StoredAllocation where
  id : PixAddressId
  address : Bytes
  scanKey : Bytes
  amount : ℕ
  stage : StoredAllocationStage
  deriving DecidableEq

structure StoredSpender where
  k : String
  v : String
  deriving DecidableEq

structure SdkState where
  spender : Option StoredSpender
  funding : List StoredNote
  /-- Emitted notes to be committed before their change can be spent. -/
  pending : List StoredNote
  ambiguousAllocation : Bool
  ambiguousInputs : List StoredNote
  ambiguousChange : Option StoredNote
  ambiguousEmitted : List StoredNote
  shieldInFlight : Option StoredShield
  directShieldInFlight : Option StoredDirectShield
  relayIntents : List StoredRelayIntent
  /-- Competing proofs for one logical spend. -/
  relayAggregations : List StoredRelayAggregation
  ambiguousAllocationIds : List PixAddressId
  operatorAggregations : List StoredOperatorAggregation
  deriving DecidableEq

/-- `SdkState::default()` around a given identity. -/
def SdkState.fresh (spender : Option StoredSpender) : SdkState where
  spender := spender
  funding := []
  pending := []
  ambiguousAllocation := false
  ambiguousInputs := []
  ambiguousChange := none
  ambiguousEmitted := []
  shieldInFlight := none
  directShieldInFlight := none
  relayIntents := []
  relayAggregations := []
  ambiguousAllocationIds := []
  operatorAggregations := []

def maxAllocationsPerProof : ℕ := 7

def maxWithdrawalInputs : ℕ := 10

def maxAllocationInputs : ℕ := 2

def directShieldObservations : ℕ := 3

def maxRelayAggregationAttempts : ℕ := 8

def maxRelayTimeoutsWithoutProgress : UInt8 := 3

/-! ## Notes of the SDK -/

structure OwnedNote (Fr : Type) where
  ownerPub : Fr × Fr
  sharedSecret : Fr
  ephemeralKey : Fr × Fr
  viewTag : ℕ
  amount : Fr
  token : Fr
  deriving DecidableEq

/-- What the bridge takes from `curvy-core` about field elements: the decimal
spelling with the parser which refuses anything else, the value, and the id of
a note. -/
structure NoteCodec (Fr : Type) where
  frToDec : Fr → String
  tryFromDec : String → Except String Fr
  frToBiguint : Fr → ℕ
  noteId : OwnedNote Fr → Fr
  tryFromDec_frToDec : ∀ value, tryFromDec (frToDec value) = .ok value

/-- Errors of the bridge. -/
inductive SdkError where
  | sdk (message : String)
  | relay (error : RelayError)
  | incompleteRelayRecovery
  | invalidValue (message : String)
  | noFunding (required : ℕ)
  | afterSubmission (source : String) (outOfFunding : Bool)
  | insufficientNotes (requested available : ℕ)
  | inexactWithdrawal (requested selected : ℕ)
  | conflictingAllocation
  | ambiguousAllocation
  | relayAttemptLimit
  | relayFinalityPending
  | relayFinalityUnavailable (message : String)
  | shieldInProgress
  | unexpectedShieldFunding (actual required : ℕ)
  | funding (message : String)
  | discovery (message : String)
  deriving DecidableEq

def SdkError.display : SdkError → String
  | .sdk message => message
  | .relay error => error.display
  | .incompleteRelayRecovery =>
      "a legacy relayer aggregation lacks saved output notes; preserve this " ++
        "database and recover its intent before spending"
  | .invalidValue message => "invalid Curvy adapter value: " ++ message
  | .noFunding required =>
      "the private pool has no committed note large enough to fund " ++
        toString required ++ " wei"
  | .afterSubmission source _ =>
      "Curvy allocation failed after an earlier chunk was submitted: " ++ source
  | .insufficientNotes requested available =>
      "the requested withdrawal is " ++ toString requested ++ ", but only " ++
        toString available ++ " is stored"
  | .inexactWithdrawal requested selected =>
      "the requested withdrawal is " ++ toString requested ++
        ", but the selected whole notes total " ++ toString selected ++
        "; Curvy cannot produce change"
  | .conflictingAllocation =>
      "PIX allocation ID was reused with a different address, scan " ++
        "identity, or amount"
  | .ambiguousAllocation =>
      "an earlier Curvy allocation has an ambiguous outcome and must be " ++
        "reconciled"
  | .relayAttemptLimit =>
      "Curvy aggregation has 8 unresolved attempts; waiting for an existing " ++
        "attempt to settle"
  | .relayFinalityPending =>
      "waiting for the winning Curvy aggregation outputs to become " ++
        "finalized; all attempts are retained"
  | .relayFinalityUnavailable message =>
      "cannot confirm Curvy aggregation finality: " ++ message ++
        "; all attempts are retained"
  | .shieldInProgress =>
      "a different Curvy shield deposit is already in progress"
  | .unexpectedShieldFunding actual required =>
      "the Curvy shield portal contains " ++ toString actual ++
        " base units instead of the expected " ++ toString required
  | .funding message =>
      "funding the Curvy shield portal from the Safe failed: " ++ message
  | .discovery message =>
      "Blokli does not expose the Curvy deployment: " ++ message

section

variable {Fr : Type} (codec : NoteCodec Fr)

/-- `StoredNote::from`. -/
def StoredNote.ofOwned (note : OwnedNote Fr) : StoredNote where
  ownerPub := (codec.frToDec note.ownerPub.1, codec.frToDec note.ownerPub.2)
  sharedSecret := codec.frToDec note.sharedSecret
  ephemeralKey :=
    (codec.frToDec note.ephemeralKey.1, codec.frToDec note.ephemeralKey.2)
  viewTag := note.viewTag
  amount := codec.frToDec note.amount
  token := codec.frToDec note.token

/-- A field of a stored note, with its name in the error. -/
def storedField (value name : String) : Except SdkError Fr :=
  (codec.tryFromDec value).mapError fun error =>
    .invalidValue (name ++ ": " ++ error)

/-- `OwnedNote::try_from`. -/
def StoredNote.toOwned (note : StoredNote) : Except SdkError (OwnedNote Fr) :=
  do
    let ownerX ← storedField codec note.ownerPub.1 "owner x"
    let ownerY ← storedField codec note.ownerPub.2 "owner y"
    let sharedSecret ← storedField codec note.sharedSecret "shared secret"
    let ephemeralX ← storedField codec note.ephemeralKey.1 "ephemeral x"
    let ephemeralY ← storedField codec note.ephemeralKey.2 "ephemeral y"
    let amount ← storedField codec note.amount "amount"
    let token ← storedField codec note.token "token"
    return ⟨(ownerX, ownerY), sharedSecret, (ephemeralX, ephemeralY),
      note.viewTag, amount, token⟩

@[simp] theorem storedField_frToDec (value : Fr) (name : String) :
    storedField codec (codec.frToDec value) name = .ok value := by
  simp [storedField, codec.tryFromDec_frToDec, Except.mapError]

/-- Storing a note loses nothing. -/
@[simp] theorem toOwned_ofOwned (note : OwnedNote Fr) :
    (StoredNote.ofOwned codec note).toOwned codec = .ok note := by
  simp only [StoredNote.toOwned, StoredNote.ofOwned, storedField_frToDec]
  rfl

/-- A note which could be stored again as it stands. -/
def StoredNote.Canonical (note : StoredNote) : Prop :=
  ∃ owned, note = StoredNote.ofOwned codec owned

theorem StoredNote.Canonical.ofOwned_toOwned {note : StoredNote}
    (hcanonical : note.Canonical codec) {owned : OwnedNote Fr}
    (h : note.toOwned codec = .ok owned) :
    StoredNote.ofOwned codec owned = note := by
  rcases hcanonical with ⟨original, rfl⟩
  rw [toOwned_ofOwned] at h
  cases h
  rfl

end

end HoprStrategy.Curvy
