import HoprStrategy.CurvySdkState
import HoprStrategy.CurvyStoreSteps
import HoprStrategy.Library.Chunks

/-!
# Sweeping an allocation

`withdraw_deposit` without an amount reads the committed notes of its
allocation, drops those which were spent before, hands the others to the SDK
and removes what the SDK has spent.  Every request and every transaction is a
step of its own; between any two of them the lifecycle and the sweeps of other
allocations go on.  A note's nullifier is named by the id of the note.
-/

namespace HoprStrategy.Curvy

open Library

/-- A transaction which removes notes is tried three times. -/
def removalRetries : ℕ := 2

inductive CurvyDepositPoolError where
  | adapter (message : String)
  | state (error : CurvyStateError)
  | invalidReconstructedSecret (message : String)
  | watcherStopped
  | reconciliationPending
  | indexer (message : String)
  deriving DecidableEq

inductive WithdrawError where
  | pool (error : CurvyDepositPoolError)
  | criteriaNotSatisfied
  deriving DecidableEq

def lagMessages : List String :=
  ["not found in committed tree", "index did not reconcile",
    "waiting for the winning Curvy aggregation outputs to become finalized",
    "RPC_ERROR", "Max retries exceeded", "HTTP error 429", "HTTP error 5",
    "the Curvy relayer rate limited the request:",
    "the Curvy relayer is unreachable:",
    "operator note does not cover the gas cost",
    "error decoding response body", "transport:"]

def isRetryableLag (message : String) : Bool :=
  lagMessages.any fun lag => decide (lag.toList <:+: message.toList)

namespace CurvyDepositState

variable {Id Addr Field Note : Type} [DecidableEq Id] [DecidableEq Field]

def committedNotes (state : CurvyDepositState Id Addr Field Note) (id : Id) :
    Except CurvyStateError (List (CommittedCurvyNote Id Addr Note)) := do
  let stored ← (state.sessionRecords id).mapM decodeOwnedNote
  .ok (stored.filterMap fun note =>
    note.leafIndex.map fun leafIndex =>
      ⟨note.detected.deposit, note.detected.note, leafIndex⟩)

def removeSpentNotes (state : CurvyDepositState Id Addr Field Note) (id : Id)
    (noteIds : List Field) : CurvyDepositState Id Addr Field Note :=
  { state with
    ownedNotes := noteIds.foldl
      (fun notes noteId => notes.erase (id, noteId)) state.ownedNotes
    noteSessions := noteIds.foldl
      (fun sessions noteId => sessions.erase noteId) state.noteSessions }

end CurvyDepositState

section

variable (Id Addr Secret Field Note : Type)

/-- Where a sweep stands.  `awaited` once a commitment was waited for. -/
inductive SweepPhase where
  | idle
  | reading (awaited : Bool)
  | reconciling (awaited : Bool)
      (notes unspent : List (CommittedCurvyNote Id Addr Note))
      (spentIds : List Field)
  | dropping (awaited : Bool)
      (unspent : List (CommittedCurvyNote Id Addr Note))
      (spentIds : List Field) (retries : ℕ)
  | awaiting
  | withdrawing (notes : List (CommittedCurvyNote Id Addr Note))
      (pending : List (List Note)) (spentNoteIds : List Field)
  | removing (removed : List Field) (retries : ℕ)
  | forgetting
  | returned (result : Except WithdrawError Unit)

/-- The recovery state with the sweep of one allocation, and the notes whose
nullifiers the chain has seen. -/
structure SweepState where
  lifecycle : LifecycleState Id Addr Secret Field Note
  spent : List Field
  phase : SweepPhase Id Addr Field Note

inductive SweepAction where
  | lifecycle (action : LifecycleAction Id Addr Secret)
  | sweepOther (other : Id) (noteIds : List Field)
  /-- `ensure_reconciled` and the key check. -/
  | enter (reply : Except CurvyDepositPoolError Unit)
  | readNotes (reply : Except CurvyStateError Unit)
  | nullifierSpent (reply : Except String Bool)
  | removeSpent (reply : Except CurvyStateError Unit)
  /-- Notified, timed out and without a scan secret are all `Ok`. -/
  | awaitCommitment (reply : Except CurvyDepositPoolError Unit)
  | withdrawChunk
  /-- The SDK fails; the chunk it has submitted may have `landed`. -/
  | withdrawFails (message : String) (landed beforeDeadline : Bool)
  | withdrawn
  | removeScanSecret

end

variable {Id Addr Secret Field Owner Note : Type}
  [DecidableEq Id] [DecidableEq Field]

/-- `select_notes` without an amount, cut into chunks. -/
def withdrawalChunks (amountIsZero : Note → Bool)
    (notes : List (CommittedCurvyNote Id Addr Note)) : List (List Note) :=
  chunks maxWithdrawalInputs
    ((notes.map (·.note)).filter fun note => ! amountIsZero note)

namespace SweepPhase

/-- What follows once the spent notes are gone. -/
def reconciled (amountIsZero : Note → Bool) (awaited : Bool)
    (unspent : List (CommittedCurvyNote Id Addr Note)) :
    SweepPhase Id Addr Field Note :=
  if unspent.isEmpty then
    if awaited then .returned (.error .criteriaNotSatisfied) else .awaiting
  else .withdrawing unspent (withdrawalChunks amountIsZero unspent) []

/-- The loop of `reconcile_spent_notes`. -/
def reconcile (amountIsZero : Note → Bool) (awaited : Bool)
    (notes unspent : List (CommittedCurvyNote Id Addr Note))
    (spentIds : List Field) : SweepPhase Id Addr Field Note :=
  if notes.isEmpty then
    if spentIds.isEmpty then reconciled amountIsZero awaited unspent
    else .dropping awaited unspent spentIds removalRetries
  else .reconciling awaited notes unspent spentIds

/-- A crash ends the call. -/
def afterLifecycle (phase : SweepPhase Id Addr Field Note) :
    LifecycleAction Id Addr Secret → SweepPhase Id Addr Field Note
  | .crash _ => .idle
  | _ => phase

end SweepPhase

namespace SweepState

variable (detector : CurvyNoteDetector Addr Secret Field Owner Note)
  (amountIsZero : Note → Bool) (id : Id)

def fail (state : SweepState Id Addr Secret Field Note)
    (error : CurvyDepositPoolError) : SweepState Id Addr Secret Field Note :=
  { state with phase := .returned (.error (.pool error)) }

/-- `remove_spent_notes` of the swept allocation. -/
def remove (state : SweepState Id Addr Secret Field Note) (owner : Id)
    (noteIds : List Field) : SweepState Id Addr Secret Field Note :=
  { state with
    lifecycle := { state.lifecycle with
      store := state.lifecycle.store.removeSpentNotes owner noteIds } }

def readNotes (state : SweepState Id Addr Secret Field Note) (awaited : Bool) :
    Except CurvyStateError Unit → SweepState Id Addr Secret Field Note
  | .error error => state.fail (.state error)
  | .ok () =>
      match state.lifecycle.store.committedNotes id with
      | .error error => state.fail (.state error)
      | .ok notes =>
          { state with
            phase := .reconcile amountIsZero awaited notes [] [] }

/-- One turn of the loop over the notes.  The index reports nothing as spent
which the chain has not seen. -/
def nullifierSpent (state : SweepState Id Addr Secret Field Note)
    (awaited : Bool) (note : CommittedCurvyNote Id Addr Note)
    (notes unspent : List (CommittedCurvyNote Id Addr Note))
    (spentIds : List Field) :
    Except String Bool → Option (SweepState Id Addr Secret Field Note)
  | .error message => some (state.fail (.indexer message))
  | .ok false =>
      some { state with
        phase := .reconcile amountIsZero awaited notes (unspent ++ [note])
          spentIds }
  | .ok true =>
      if detector.noteId note.note ∈ state.spent then
        some { state with
          phase := .reconcile amountIsZero awaited notes unspent
            (spentIds ++ [detector.noteId note.note]) }
      else none

/-- One attempt of `remove_spent_notes_retry`. -/
def removeSpent (state : SweepState Id Addr Secret Field Note)
    (noteIds : List Field) (retries : ℕ)
    (again : ℕ → SweepPhase Id Addr Field Note)
    (removed : SweepPhase Id Addr Field Note) :
    Except CurvyStateError Unit → SweepState Id Addr Secret Field Note
  | .ok () => { state.remove id noteIds with phase := removed }
  | .error error =>
      match retries with
      | 0 => state.fail (.state error)
      | retries + 1 => { state with phase := again retries }

/-- The SDK returns an error after some of the chunks. -/
def withdrawFails (state : SweepState Id Addr Secret Field Note)
    (notes : List (CommittedCurvyNote Id Addr Note))
    (pending : List (List Note)) (message : String)
    (landed beforeDeadline : Bool) : SweepState Id Addr Secret Field Note :=
  let tried : SweepState Id Addr Secret Field Note :=
    if landed then
      { state with
        spent := state.spent ++ (pending.headD []).map detector.noteId }
    else state
  if isRetryableLag message && beforeDeadline then
    { tried with
      phase := .withdrawing notes (withdrawalChunks amountIsZero notes) [] }
  else tried.fail (.adapter message)

def next (state : SweepState Id Addr Secret Field Note) :
    SweepAction Id Addr Secret Field →
      Option (SweepState Id Addr Secret Field Note)
  | .lifecycle action => do
      let lifecycle ← state.lifecycle.next detector action
      some { state with
        lifecycle := lifecycle
        phase := state.phase.afterLifecycle action }
  | .sweepOther other noteIds =>
      if other = id then none else some (state.remove other noteIds)
  | .enter reply =>
      match state.phase with
      | .idle | .returned _ =>
          match reply with
          | .error error => some (state.fail error)
          | .ok () => some { state with phase := .reading false }
      | _ => none
  | .readNotes reply =>
      match state.phase with
      | .reading awaited => some (state.readNotes amountIsZero id awaited reply)
      | _ => none
  | .nullifierSpent reply =>
      match state.phase with
      | .reconciling awaited (note :: notes) unspent spentIds =>
          state.nullifierSpent detector amountIsZero awaited note notes unspent
            spentIds reply
      | _ => none
  | .removeSpent reply =>
      match state.phase with
      | .dropping awaited unspent spentIds retries =>
          some (state.removeSpent id spentIds retries
            (.dropping awaited unspent spentIds)
            (.reconciled amountIsZero awaited unspent) reply)
      | .removing removed retries =>
          some (state.removeSpent id removed retries (.removing removed)
            .forgetting reply)
      | _ => none
  | .awaitCommitment reply =>
      match state.phase, reply with
      | .awaiting, .error error => some (state.fail error)
      | .awaiting, .ok () => some { state with phase := .reading true }
      | _, _ => none
  | .withdrawChunk =>
      match state.phase with
      | .withdrawing notes (chunk :: pending) spentNoteIds =>
          some { state with
            spent := state.spent ++ chunk.map detector.noteId
            phase := .withdrawing notes pending
              (spentNoteIds ++ chunk.map detector.noteId) }
      | _ => none
  | .withdrawFails message landed beforeDeadline =>
      match state.phase with
      | .withdrawing notes pending _ =>
          some (state.withdrawFails detector amountIsZero notes pending message
            landed beforeDeadline)
      | _ => none
  | .withdrawn =>
      match state.phase with
      | .withdrawing notes [] spentNoteIds =>
          -- a zero-amount note is never withdrawn and leaves with the sweep
          some { state with
            phase := .removing
              (spentNoteIds ++
                (notes.filter (·.deposit.amount.isZero)).map fun note =>
                  detector.noteId note.note)
              removalRetries }
      | _ => none
  | .removeScanSecret =>
      match state.phase with
      | .forgetting => some { state with phase := .returned (.ok ()) }
      | _ => none

end SweepState

/-- Every record holds the note its key names, as the detection wrote it. -/
def CurvyDepositState.Detected
    (detector : CurvyNoteDetector Addr Secret Field Owner Note)
    (amountIsZero : Note → Bool)
    (store : CurvyDepositState Id Addr Field Note) : Prop :=
  ∀ id noteId record, store.ownedNotes.lookup (id, noteId) = some record →
    detector.noteId record.detected.note = noteId ∧
      amountIsZero record.detected.note =
        record.detected.deposit.amount.isZero

/-- A node over any recovery state, whatever was spent before. -/
def sweepSystem (detector : CurvyNoteDetector Addr Secret Field Owner Note)
    (amountIsZero : Note → Bool) (id : Id) :
    TransitionSystem (SweepState Id Addr Secret Field Note)
      (SweepAction Id Addr Secret Field) where
  init state :=
    state.phase = .idle ∧
      state.lifecycle.store.Detected detector amountIsZero
  next := SweepState.next detector amountIsZero id

end HoprStrategy.Curvy
