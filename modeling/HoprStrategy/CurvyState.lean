import HoprStrategy.CurvyDetection
import Mathlib.Data.List.AList

/-!
# Durable state of the Curvy lifecycle

The tables are finite maps; every operation is one write transaction, so it
happens as a whole or not at all.  A transaction which the database refuses
changes nothing and is left to the caller.
-/

namespace HoprStrategy.Curvy

abbrev Table (Key Value : Type) : Type := AList fun _ : Key => Value

/-- An owned-note record as it is stored.  A missing leaf index is the largest
64-bit value. -/
structure OwnedNoteRecord (Id Addr Note : Type) where
  detected : DetectedCurvyNote Id Addr Note
  committed : Bool
  rawLeafIndex : UInt64
  deriving DecidableEq

structure StoredOwnedNote (Id Addr Note : Type) where
  detected : DetectedCurvyNote Id Addr Note
  committed : Bool
  leafIndex : Option UInt64
  deriving DecidableEq

structure CommittedCurvyNote (Id Addr Note : Type) where
  deposit : OwnedCurvyDeposit Id Addr
  note : Note
  leafIndex : UInt64
  deriving DecidableEq

inductive CurvyStateError where
  | database (text : String)
  | corrupt (text : String)
  deriving DecidableEq

inductive CurvyEventKind where
  | pending
  | committed
  deriving DecidableEq

def encodeOwnedNote {Id Addr Note : Type}
    (note : StoredOwnedNote Id Addr Note) : OwnedNoteRecord Id Addr Note :=
  ⟨note.detected, note.committed, note.leafIndex.getD (-1)⟩

def decodeOwnedNote {Id Addr Note : Type}
    (record : OwnedNoteRecord Id Addr Note) :
    Except CurvyStateError (StoredOwnedNote Id Addr Note) :=
  let leafIndex :=
    if record.rawLeafIndex ≠ -1 then some record.rawLeafIndex else none
  if record.committed ≠ leafIndex.isSome then
    .error (.corrupt "owned-note commitment flag and leaf index disagree")
  else .ok ⟨record.detected, record.committed, leafIndex⟩

structure CurvyDepositState (Id Addr Field Note : Type) where
  pendingCursor : Option CurvyEventCursor
  committedCursor : Option CurvyEventCursor
  ownedNotes : Table (Id × Field) (OwnedNoteRecord Id Addr Note)
  noteSessions : Table Field Id

namespace CurvyDepositState

variable {Id Addr Field Note : Type} [DecidableEq Id] [DecidableEq Field]

def empty : CurvyDepositState Id Addr Field Note := ⟨none, none, ∅, ∅⟩

def cursor (state : CurvyDepositState Id Addr Field Note) :
    CurvyEventKind → Option CurvyEventCursor
  | .pending => state.pendingCursor
  | .committed => state.committedCursor

def advanceCursor (state : CurvyDepositState Id Addr Field Note)
    (kind : CurvyEventKind) (cursor : CurvyEventCursor) :
    CurvyDepositState Id Addr Field Note :=
  match kind with
  | .pending => { state with pendingCursor := some cursor }
  | .committed => { state with committedCursor := some cursor }

/-- Records an owned candidate and advances the cursor atomically. -/
def recordOwnedCandidate (state : CurvyDepositState Id Addr Field Note)
    (noteIdKey : Field) (note : DetectedCurvyNote Id Addr Note)
    (cursor : CurvyEventCursor) : CurvyDepositState Id Addr Field Note :=
  let key := (note.deposit.id, noteIdKey)
  { pendingCursor := some cursor
    committedCursor := state.committedCursor
    ownedNotes :=
      if (state.ownedNotes.lookup key).isNone then
        state.ownedNotes.insert key (encodeOwnedNote ⟨note, false, none⟩)
      else state.ownedNotes
    noteSessions := state.noteSessions.insert noteIdKey note.deposit.id }

/-- Marks a known note committed and advances the cursor atomically. -/
def recordCompletion (state : CurvyDepositState Id Addr Field Note)
    (noteIdKey : Field) (leafIndex : UInt64) (cursor : CurvyEventCursor) :
    Except CurvyStateError (CurvyDepositState Id Addr Field Note ×
      Option (CommittedCurvyNote Id Addr Note)) :=
  let advanced := { state with committedCursor := some cursor }
  match state.noteSessions.lookup noteIdKey with
  | none => .ok (advanced, none)
  | some id =>
      match state.ownedNotes.lookup (id, noteIdKey) with
      | none => .ok (advanced, none)
      | some record =>
          match decodeOwnedNote record with
          | .error error => .error error
          | .ok note =>
              .ok ({ advanced with
                ownedNotes := state.ownedNotes.insert (id, noteIdKey)
                  (encodeOwnedNote
                    { note with committed := true, leafIndex := some leafIndex }) },
                some ⟨note.detected.deposit, note.detected.note, leafIndex⟩)

/-- The owned-note records of one allocation. -/
def sessionRecords (state : CurvyDepositState Id Addr Field Note) (id : Id) :
    List (OwnedNoteRecord Id Addr Note) :=
  (state.ownedNotes.entries.filter fun entry => entry.1.1 = id).map (·.2)

/-- The total value of all committed notes of one allocation. -/
def committedAmount (state : CurvyDepositState Id Addr Field Note) (id : Id) :
    Except CurvyStateError HoprBalance :=
  (state.sessionRecords id).foldlM
    (fun total record => do
      let note ← decodeOwnedNote record
      if note.committed then .ok (total + note.detected.deposit.amount)
      else .ok total)
    HoprBalance.zero

/-- The recovery state holds the note as committed for the allocation. -/
def RecordedCommitted (state : CurvyDepositState Id Addr Field Note) (id : Id)
    (noteIdKey : Field) : Prop :=
  ∃ record, state.ownedNotes.lookup (id, noteIdKey) = some record ∧
    record.committed = true

/-- The recovery state attributes the note to the allocation. -/
def Attributed (state : CurvyDepositState Id Addr Field Note) (id : Id)
    (noteIdKey : Field) : Prop :=
  state.noteSessions.lookup noteIdKey = some id ∧
    (state.ownedNotes.lookup (id, noteIdKey)).isSome

variable {state after : CurvyDepositState Id Addr Field Note}
  {id : Id} {noteIdKey : Field}

/-! ## What the operations keep -/

@[simp] theorem advanceCursor_pending_recorded {cursor : CurvyEventCursor}
    {kind : CurvyEventKind} :
    (state.advanceCursor kind cursor).RecordedCommitted id noteIdKey ↔
      state.RecordedCommitted id noteIdKey := by
  cases kind <;> rfl

@[simp] theorem advanceCursor_attributed {cursor : CurvyEventCursor}
    {kind : CurvyEventKind} :
    (state.advanceCursor kind cursor).Attributed id noteIdKey ↔
      state.Attributed id noteIdKey := by
  cases kind <;> rfl

section RecordOwnedCandidate

variable {note : DetectedCurvyNote Id Addr Note} {cursor : CurvyEventCursor}
  {key : Field}

/-- An owned note is attributed once it is recorded. -/
theorem recordOwnedCandidate_attributed :
    (state.recordOwnedCandidate key note cursor).Attributed note.deposit.id
      key := by
  unfold recordOwnedCandidate Attributed
  refine ⟨AList.lookup_insert _, ?_⟩
  simp only
  split
  next => rw [AList.lookup_insert]; rfl
  next hsome =>
    cases hlookup : state.ownedNotes.lookup (note.deposit.id, key) with
    | none => simp [hlookup] at hsome
    | some record => rfl

/-- An existing record is never overwritten. -/
theorem recordOwnedCandidate_lookup {record : OwnedNoteRecord Id Addr Note}
    (hlookup : state.ownedNotes.lookup (id, noteIdKey) = some record) :
    (state.recordOwnedCandidate key note cursor).ownedNotes.lookup
      (id, noteIdKey) = some record := by
  unfold recordOwnedCandidate
  simp only
  split
  next hnone =>
    rw [AList.lookup_insert_ne]
    · exact hlookup
    · intro heq
      rw [← heq, hlookup] at hnone
      cases hnone
  next => exact hlookup

theorem recordOwnedCandidate_recorded
    (hrecorded : state.RecordedCommitted id noteIdKey) :
    (state.recordOwnedCandidate key note cursor).RecordedCommitted id
      noteIdKey := by
  obtain ⟨record, hlookup, hcommitted⟩ := hrecorded
  exact ⟨record, recordOwnedCandidate_lookup hlookup, hcommitted⟩

/-- The attribution of other notes stays, and that of the same note as long as
it goes to the same allocation. -/
theorem recordOwnedCandidate_keeps_attributed
    (hattributed : state.Attributed id noteIdKey)
    (hsame : key = noteIdKey → note.deposit.id = id) :
    (state.recordOwnedCandidate key note cursor).Attributed id noteIdKey := by
  obtain ⟨hsession, howned⟩ := hattributed
  obtain ⟨record, hlookup⟩ := Option.isSome_iff_exists.mp howned
  refine ⟨?_, by rw [recordOwnedCandidate_lookup hlookup]; rfl⟩
  by_cases hkey : noteIdKey = key
  · subst hkey
    rw [← hsame rfl]
    exact AList.lookup_insert _
  · exact (AList.lookup_insert_ne hkey).trans hsession

end RecordOwnedCandidate

section RecordCompletion

variable {key : Field} {leafIndex : UInt64} {cursor : CurvyEventCursor}
  {committed : Option (CommittedCurvyNote Id Addr Note)}

/-- What a completion does to the tables. -/
theorem recordCompletion_cases
    (hrecord : state.recordCompletion key leafIndex cursor =
      .ok (after, committed)) :
    after.pendingCursor = state.pendingCursor ∧
      after.committedCursor = some cursor ∧
      after.noteSessions = state.noteSessions ∧
      (after.ownedNotes = state.ownedNotes ∧
          (∀ id, ¬ state.Attributed id key) ∨
        ∃ id note, state.noteSessions.lookup key = some id ∧
          after.ownedNotes = state.ownedNotes.insert (id, key) note ∧
          note.committed = true) := by
  unfold recordCompletion at hrecord
  cases hsession : state.noteSessions.lookup key with
  | none =>
      simp only [hsession, Except.ok.injEq, Prod.mk.injEq] at hrecord
      obtain ⟨rfl, _⟩ := hrecord
      exact ⟨rfl, rfl, rfl, .inl ⟨rfl, fun id h => by
        rw [Attributed, hsession] at h
        cases h.1⟩⟩
  | some id =>
      simp only [hsession] at hrecord
      cases hlookup : state.ownedNotes.lookup (id, key) with
      | none =>
          simp only [hlookup, Except.ok.injEq, Prod.mk.injEq] at hrecord
          obtain ⟨rfl, _⟩ := hrecord
          refine ⟨rfl, rfl, rfl, .inl ⟨rfl, fun other h => ?_⟩⟩
          rw [Attributed, hsession, Option.some.injEq] at h
          obtain ⟨rfl, hsome⟩ := h
          simp [hlookup] at hsome
      | some record =>
          simp only [hlookup] at hrecord
          cases hdecode : decodeOwnedNote record with
          | error error =>
              simp only [hdecode] at hrecord
              cases hrecord
          | ok note =>
              simp only [hdecode, Except.ok.injEq, Prod.mk.injEq] at hrecord
              obtain ⟨rfl, _⟩ := hrecord
              exact ⟨rfl, rfl, rfl, .inr ⟨id, _, rfl, rfl, rfl⟩⟩

theorem recordCompletion_attributed
    (hrecord : state.recordCompletion key leafIndex cursor =
      .ok (after, committed))
    (hattributed : state.Attributed id noteIdKey) :
    after.Attributed id noteIdKey := by
  obtain ⟨_, _, hsessions, ⟨hnotes, _⟩ | ⟨other, note, _, hnotes, _⟩⟩ :=
    recordCompletion_cases hrecord
  · rw [Attributed, hsessions, hnotes]
    exact hattributed
  · rw [Attributed, hsessions, hnotes]
    refine ⟨hattributed.1, ?_⟩
    by_cases hkey : (id, noteIdKey) = (other, key)
    · rw [hkey, AList.lookup_insert]
      rfl
    · rw [AList.lookup_insert_ne hkey]
      exact hattributed.2

theorem recordCompletion_recorded
    (hrecord : state.recordCompletion key leafIndex cursor =
      .ok (after, committed))
    (hrecorded : state.RecordedCommitted id noteIdKey) :
    after.RecordedCommitted id noteIdKey := by
  obtain ⟨_, _, _, ⟨hnotes, _⟩ | ⟨other, note, _, hnotes, hcommitted⟩⟩ :=
    recordCompletion_cases hrecord
  · rw [RecordedCommitted, hnotes]
    exact hrecorded
  · rw [RecordedCommitted, hnotes]
    by_cases hkey : (id, noteIdKey) = (other, key)
    · rw [hkey, AList.lookup_insert]
      exact ⟨note, rfl, hcommitted⟩
    · rw [AList.lookup_insert_ne hkey]
      exact hrecorded

/-- The completion of an attributed note is recorded. -/
theorem recordCompletion_records
    (hrecord : state.recordCompletion key leafIndex cursor =
      .ok (after, committed))
    (hattributed : state.Attributed id key) :
    after.RecordedCommitted id key := by
  obtain ⟨_, _, _, ⟨_, hnone⟩ | ⟨other, note, hsession, hnotes, hcommitted⟩⟩ :=
    recordCompletion_cases hrecord
  · exact absurd hattributed (hnone id)
  · have hid : other = id := by
      have := hattributed.1
      rw [hsession, Option.some.injEq] at this
      exact this
    subst hid
    rw [RecordedCommitted, hnotes, AList.lookup_insert]
    exact ⟨note, rfl, hcommitted⟩

end RecordCompletion

end CurvyDepositState

end HoprStrategy.Curvy
