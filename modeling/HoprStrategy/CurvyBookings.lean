import HoprStrategy.CurvyDurability
import HoprStrategy.Library.UnspentLedger

/-!
# Spends in a session of the bridge

A session starts from an empty store and runs `allocate` and `ensure_funded`,
each with its own configuration, with a crash at any point of any of them.
Its history tells what was stored at every moment, which attempts were booked,
and which left the operator journal.
-/

namespace HoprStrategy.Curvy

open Library

variable {Fr : Type}

/-- What an attempt spends, makes and pays. -/
structure Spend where
  inputs : List StoredNote
  change : StoredNote
  allocationIds : List PixAddressId

def StoredRelayAggregation.spend (attempt : StoredRelayAggregation) : Spend :=
  ⟨attempt.inputs, attempt.change, attempt.allocationIds⟩

def StoredOperatorAggregation.spend (attempt : StoredOperatorAggregation) :
    Spend :=
  ⟨attempt.inputs, attempt.change, attempt.allocationIds⟩

namespace SdkState

/-- The attempts of both journals. -/
def spends (state : SdkState) : List Spend :=
  state.relayAggregations.map StoredRelayAggregation.spend ++
    state.operatorAggregations.map StoredOperatorAggregation.spend

/-- The notes of the shields in flight. -/
def shielding (state : SdkState) : List StoredNote :=
  (state.shieldInFlight.map StoredShield.note).toList ++
    (state.directShieldInFlight.map StoredDirectShield.note).toList

/-- The notes which are spendable or may become so. -/
def notes (state : SdkState) : List StoredNote :=
  state.funding ++ (state.shielding ++ state.spends.map Spend.change)

/-- The inputs of the attempt an update books. -/
def bookedBy (state : SdkState) : Update → Option (List StoredNote)
  | .finishRelay (some index) =>
      state.relayAggregations[index]?.map StoredRelayAggregation.inputs
  | .finishOperator (some index) =>
      state.operatorAggregations[index]?.map StoredOperatorAggregation.inputs
  | _ => none

end SdkState

/-- The record of the id is Prepared. -/
def AllocationTable.Prepared (table : AllocationTable) (id : PixAddressId) :
    Prop :=
  ∃ record, table.find id = some record ∧ record.stage = .prepared

/-! ## Histories -/

namespace SdkEvent

/-- The note the SDK made in a call. -/
def issued (codec : NoteCodec Fr) : SdkEvent Fr → Option StoredNote
  | ⟨.prepareDeposit _ _ _, reply⟩ =>
      (reply : Except String (PreparedDeposit Fr)).toOption.map
        fun prepared => StoredNote.ofOwned codec prepared.note
  | ⟨.prepareDirectShield _ _, reply⟩ =>
      (reply : Except String (OwnedNote Fr)).toOption.map
        (StoredNote.ofOwned codec)
  | ⟨.buildPixAggregation _ _ _ _, reply⟩ =>
      (reply : Except String (PixAggregationRequest Fr)).toOption.map
        fun request => StoredNote.ofOwned codec request.change
  | _ => none

/-- The update an event stored. -/
def stores : SdkEvent Fr → Option (Update × SdkState)
  | ⟨.saveUpdate update next _ _, reply⟩ =>
      if (reply : Except String Unit).isOk then some (update, next) else none
  | _ => none

theorem stores_of_not_saves {event : SdkEvent Fr}
    (hsaves : event.saves = false) : event.stores = none := by
  rcases event with ⟨call, reply⟩
  cases call with
  | saveUpdate update next allocations remove =>
      have hreply : (reply : Except String Unit).isOk = false :=
        ((Bool.or_eq_false_iff).mp hsaves).2
      simp [stores, hreply]
  | _ => rfl

theorem issued_of_saves {codec : NoteCodec Fr} {event : SdkEvent Fr}
    (hsaves : event.saves = true) : event.issued codec = none := by
  rcases event with ⟨call, reply⟩
  cases call with
  | saveUpdate update next allocations remove => rfl
  | _ => simp [saves] at hsaves

end SdkEvent

def issuedNotes (codec : NoteCodec Fr) (history : List (SdkEvent Fr)) :
    List StoredNote :=
  history.filterMap (SdkEvent.issued codec)

theorem issuedNotes_of_suffix {codec : NoteCodec Fr}
    {history later : List (SdkEvent Fr)} (h : history <:+ later) :
    issuedNotes codec history ⊆ issuedNotes codec later :=
  (h.sublist.filterMap _).subset

theorem issuedNotes_sinceSave (codec : NoteCodec Fr)
    (history : List (SdkEvent Fr)) :
    issuedNotes codec (sinceSave history) ⊆ issuedNotes codec history :=
  ((List.takeWhile_sublist _).filterMap _).subset

/-- What the store holds after a history which started from `start`. -/
def stored (start : SdkState) : List (SdkEvent Fr) → SdkState
  | [] => start
  | event :: earlier =>
      match event.stores with
      | some (_, next) => next
      | none => stored start earlier

/-- The inputs of the booked attempts, those of the last one first. -/
def bookings (start : SdkState) : List (SdkEvent Fr) → List (List StoredNote)
  | [] => []
  | event :: earlier =>
      (event.stores.bind fun update =>
        (stored start earlier).bookedBy update.1).toList ++
        bookings start earlier

/-- Why an attempt left the operator journal: the SDK reported its submission
as definitively failed, or a winner was booked, among several attempts one
whose outputs are in the finalized tree. -/
inductive Departure (codec : NoteCodec Fr) (journal : SdkState)
    (earlier : List (SdkEvent Fr)) (attempt : StoredOperatorAggregation) :
    Update → Prop
  | failed {config : SdkConfig Fr} {endpoints : CurvyChainEndpoints}
      {request : PixAggregationRequest Fr} {inputs : List (OwnedNote Fr)}
      {records : List StoredAllocation} {message : String} (update : Update)
      (hcodec : config.codec = codec)
      (hattempt : attempt =
        SdkM.operatorAttempt config endpoints request inputs records)
      (hfailed : LastReported earlier (.submitPixAggregation request)
        (.error ⟨message, false⟩)) :
      Departure codec journal earlier attempt update
  | booked {config : SdkConfig Fr} {index : ℕ}
      {winner : StoredOperatorAggregation}
      (hcodec : config.codec = codec)
      (hwinner : journal.operatorAggregations[index]? = some winner)
      (hfinal : journal.operatorAggregations.length > 1 →
        OutputsFinalized config earlier winner.emitted) :
      Departure codec journal earlier attempt (.finishOperator (some index))

/-- Whenever the store loses an attempt of the operator journal, it is for one
of these reasons. -/
def Departures (codec : NoteCodec Fr) (start : SdkState) :
    List (SdkEvent Fr) → Prop
  | [] => True
  | event :: earlier =>
      (∀ update next, event.stores = some (update, next) → ∀ attempt,
        next.operatorAggregations.count attempt <
            (stored start earlier).operatorAggregations.count attempt →
          Departure codec (stored start earlier) earlier attempt update) ∧
        Departures codec start earlier

/-! ## Sessions -/

/-- The SDK makes a note which is distinct from all earlier ones. -/
def freshEnvironment (codec : NoteCodec Fr) :
    Environment (SdkCall Fr) SdkCall.Reply (SdkWorld Fr) :=
  fun world call reply after =>
    sdkEnvironment world call reply after ∧
      ∀ note, SdkEvent.issued codec ⟨call, reply⟩ = some note →
        note ∉ issuedNotes codec world.history

/-- The operations of a session.  Submission and shielding may be switched
between any two of them. -/
inductive SpendOperation [DecidableEq Fr] (codec : NoteCodec Fr) :
    SdkM Fr Unit → Prop
  | ensureFunded {config : SdkConfig Fr} (hcodec : config.codec = codec)
      (gross : HoprBalance) (recovery : String) :
      SpendOperation codec (SdkM.ensureFunded config gross recovery)
  | allocate {config : SdkConfig Fr} (hcodec : config.codec = codec)
      (deposits : List Deposit) :
      SpendOperation codec (SdkM.allocate config deposits)

namespace SdkWorld

/-- The next operation of a process takes the state in memory as it is. -/
def resumed (world : SdkWorld Fr) : SdkWorld Fr :=
  { world with phase := .settled }

/-- After a crash the state is loaded from the store. -/
def reloaded (world : SdkWorld Fr) : SdkWorld Fr :=
  { world with
    memory := world.disk
    phase := .settled }

/-- The states of the bridge: the stored one, and the one in memory.  From a
save to the assignment which follows it the state is locked. -/
def states (world : SdkWorld Fr) : List SdkState :=
  if world.phase = .saved then [world.disk] else [world.disk, world.memory]

end SdkWorld

/-- The worlds reached from an empty store. -/
def Reached [DecidableEq Fr] (codec : NoteCodec Fr)
    (spender : Option StoredSpender) (world : SdkWorld Fr) : Prop :=
  Passes (freshEnvironment codec)
    (fun world => world = .agreeing (.fresh spender) .empty)
    (SpendOperation codec) SdkWorld.resumed SdkWorld.reloaded world

end HoprStrategy.Curvy
