import HoprStrategy.CurvyOwnership

/-!
# What one event does to the store

A candidate is attributed, or only the cursor moves.  A completion is written
with the cursor past it, and the amount is read afterwards.
-/

namespace HoprStrategy.Curvy

open Library

variable {Id Addr Secret Field Owner Note : Type}
  [DecidableEq Id] [DecidableEq Field]

namespace CurvyDepositState

/-- The durable half of `process_completion`, with the allocation whose amount
is read next. -/
def writeCompletion
    (detector : CurvyNoteDetector Addr Secret Field Owner Note)
    (store : CurvyDepositState Id Addr Field Note)
    (completion : CurvyCommittedNote) :
    Except CurvyLifecycleError
      (CurvyDepositState Id Addr Field Note × Option Id) :=
  match parseU64 completion.leafIndex with
  | none => .ok (store.advanceCursor .committed completion.position, none)
  | some leafIndex =>
      match detector.parseNoteId completion.noteId with
      | .error _ =>
          .ok (store.advanceCursor .committed completion.position, none)
      | .ok key =>
          match store.recordCompletion key leafIndex completion.position with
          | .error error => .error (.state error)
          | .ok (after, note) => .ok (after, note.map (·.deposit.id))

/-- `process_completion` is its durable half and the read of the amount. -/
theorem processCompletion_eq
    (detector : CurvyNoteDetector Addr Secret Field Owner Note)
    (store : CurvyDepositState Id Addr Field Note)
    (completion : CurvyCommittedNote) :
    store.processCompletion detector completion =
      match store.writeCompletion detector completion with
      | .error error => (store, .error error)
      | .ok (after, none) => (after, .ok none)
      | .ok (after, some id) =>
          match after.committedAmount id with
          | .error error => (after, .error (.state error))
          | .ok committed => (after, .ok (some (id, committed))) := by
  unfold processCompletion writeCompletion
  cases parseU64 completion.leafIndex with
  | none => rfl
  | some leafIndex =>
      cases detector.parseNoteId completion.noteId with
      | error error => rfl
      | ok key =>
          simp only
          cases store.recordCompletion key leafIndex completion.position with
          | error error => rfl
          | ok recorded =>
              obtain ⟨after, note⟩ := recorded
              cases note with
              | none => rfl
              | some note => rfl

end CurvyDepositState

/-- The event completes the note. -/
def Completes (detector : CurvyNoteDetector Addr Secret Field Owner Note)
    (completion : CurvyCommittedNote) (key : Field) : Prop :=
  (parseU64 completion.leafIndex).isSome = true ∧
    detector.parseNoteId completion.noteId = .ok key

theorem CurvyEventCursor.block_le_of_lt {earlier later : CurvyEventCursor}
    (hlt : earlier < later) : earlier.block ≤ later.block := by
  have hkey : earlier.key < later.key := hlt
  rw [CurvyEventCursor.key, CurvyEventCursor.key, Prod.Lex.toLex_lt_toLex]
    at hkey
  rcases hkey with hblock | hblock
  · exact Nat.le_of_lt hblock
  · exact Nat.le_of_eq hblock.1

section Store

variable {detector : CurvyNoteDetector Addr Secret Field Owner Note}
  {store stored : CurvyDepositState Id Addr Field Note}
  {watched : List (WatchedAllocation Id Addr Secret)}

/-- The record of a discovered note is the old one, or a pending one. -/
theorem recordOwnedCandidate_ownedNotes {id : Id} {key other : Field}
    {note : DetectedCurvyNote Id Addr Note} {cursor : CurvyEventCursor} :
    (store.recordOwnedCandidate key note cursor).ownedNotes.lookup (id, other) =
      if (id, other) = (note.deposit.id, key) then
        some ((store.ownedNotes.lookup (id, other)).getD
          (encodeOwnedNote ⟨note, false, none⟩))
      else store.ownedNotes.lookup (id, other) := by
  unfold CurvyDepositState.recordOwnedCandidate
  simp only
  by_cases hkey : (id, other) = (note.deposit.id, key)
  · rw [if_pos hkey, hkey]
    cases hlookup : store.ownedNotes.lookup (note.deposit.id, key) with
    | none =>
        simp only [Option.isNone_none, if_true]
        exact AList.lookup_insert _
    | some record =>
        simp only [Option.isNone_some, Bool.false_eq_true, if_false]
        exact hlookup
  · rw [if_neg hkey]
    split
    · exact AList.lookup_insert_ne hkey
    · rfl

/-- What a candidate does to the store. -/
theorem processCandidate_cases {candidate : CurvyPendingNote}
    {watching : Bool}
    (hprocess : store.processCandidate detector watched candidate =
      .ok (stored, watching)) :
    (watching = false ∧ watched = [] ∧ stored = store) ∨
      (watching = true ∧
        stored = store.advanceCursor .pending candidate.position) ∨
      ∃ key note, watching = true ∧
        detector.detectOwnedNote candidate watched = .ok (some note) ∧
        detector.parseNoteId candidate.noteId = .ok key ∧
        stored = store.recordOwnedCandidate key note candidate.position := by
  unfold CurvyDepositState.processCandidate at hprocess
  by_cases hempty : watched.isEmpty = true
  · rw [if_pos hempty] at hprocess
    cases hprocess
    exact Or.inl ⟨rfl, List.isEmpty_iff.mp hempty, rfl⟩
  · rw [if_neg hempty] at hprocess
    cases hdetect : detector.detectOwnedNote candidate watched with
    | error error =>
        simp only [hdetect, Except.ok.injEq, Prod.mk.injEq] at hprocess
        exact Or.inr (Or.inl ⟨hprocess.2.symm, hprocess.1.symm⟩)
    | ok detected =>
        cases detected with
        | none =>
            simp only [hdetect, Except.ok.injEq, Prod.mk.injEq] at hprocess
            exact Or.inr (Or.inl ⟨hprocess.2.symm, hprocess.1.symm⟩)
        | some note =>
            cases hkey : detector.parseNoteId candidate.noteId with
            | error error =>
                simp only [hdetect, hkey] at hprocess
                cases hprocess
            | ok key =>
                simp only [hdetect, hkey, Except.ok.injEq, Prod.mk.injEq]
                  at hprocess
                exact Or.inr (Or.inr ⟨key, note, hprocess.2.symm, rfl, rfl,
                  hprocess.1.symm⟩)

theorem processCandidate_ne_error
    {candidate : CurvyPendingNote} {error : CurvyLifecycleError} :
    store.processCandidate detector watched candidate ≠ .error error := by
  intro hprocess
  unfold CurvyDepositState.processCandidate at hprocess
  split at hprocess
  · cases hprocess
  · split at hprocess
    · cases hprocess
    · cases hprocess
    · rename_i note hdetect
      have hself : ∀ other ∈ watched,
          other ∈ ({other | other ∈ watched} : Set _) := fun _ hmem => hmem
      obtain ⟨key, hkey, _⟩ :=
        CurvyNoteDetector.recomputes_of_detected hself hdetect
      rw [hkey] at hprocess
      cases hprocess

/-- What the durable half of a completion does. -/
theorem writeCompletion_cases {completion : CurvyCommittedNote}
    {owner : Option Id}
    (hwrite : store.writeCompletion detector completion =
      .ok (stored, owner)) :
    (owner = none ∧
        stored = { store with committedCursor := some completion.position } ∧
        ∀ id key, Completes detector completion key →
          ¬ store.Attributed id key) ∨
      ∃ id key record leafIndex, Completes detector completion key ∧
        parseU64 completion.leafIndex = some leafIndex ∧
        store.noteSessions.lookup key = some id ∧
        store.ownedNotes.lookup (id, key) = some record ∧
        owner = some record.detected.deposit.id ∧
        stored = { store with
          committedCursor := some completion.position
          ownedNotes := store.ownedNotes.insert (id, key)
            ⟨record.detected, true, leafIndex⟩ } := by
  unfold CurvyDepositState.writeCompletion at hwrite
  cases hleaf : parseU64 completion.leafIndex with
  | none =>
      simp only [hleaf, Except.ok.injEq, Prod.mk.injEq] at hwrite
      refine Or.inl ⟨hwrite.2.symm, hwrite.1.symm, ?_⟩
      intro id key hcompletes
      rw [Completes, hleaf] at hcompletes
      cases hcompletes.1
  | some leafIndex =>
      cases hkey : detector.parseNoteId completion.noteId with
      | error error =>
          simp only [hleaf, hkey, Except.ok.injEq, Prod.mk.injEq] at hwrite
          refine Or.inl ⟨hwrite.2.symm, hwrite.1.symm, ?_⟩
          intro id key hcompletes
          rw [Completes, hkey] at hcompletes
          cases hcompletes.2
      | ok key =>
          simp only [hleaf, hkey] at hwrite
          cases hrecord : store.recordCompletion key leafIndex
              completion.position with
          | error error =>
              simp only [hrecord] at hwrite
              cases hwrite
          | ok recorded =>
              obtain ⟨final, note⟩ := recorded
              simp only [hrecord, Except.ok.injEq, Prod.mk.injEq] at hwrite
              obtain ⟨rfl, rfl⟩ := hwrite
              rcases CurvyDepositState.recordCompletion_ok hrecord with
                ⟨rfl, rfl, hnone⟩ | ⟨id, record, _, hsession, hlookup, _,
                  rfl, rfl⟩
              · refine Or.inl ⟨rfl, rfl, ?_⟩
                intro id other hcompletes
                have hsame := hkey.symm.trans hcompletes.2
                rw [Except.ok.injEq] at hsame
                rw [← hsame]
                exact hnone id
              · exact Or.inr ⟨id, key, record, leafIndex,
                  ⟨by rw [hleaf]; rfl, hkey⟩, rfl, hsession, hlookup, rfl, rfl⟩

/-- A completion is written, or it fails and nothing is. -/
theorem processCompletion_store {completion : CurvyCommittedNote}
    {result : Except CurvyLifecycleError (Option (Id × HoprBalance))}
    (hprocess : store.processCompletion detector completion =
      (stored, result)) :
    (stored = store ∧ ∃ error, result = .error error) ∨
      ∃ owner, store.writeCompletion detector completion =
        .ok (stored, owner) := by
  rw [CurvyDepositState.processCompletion_eq] at hprocess
  cases hwrite : store.writeCompletion detector completion with
  | error error =>
      simp only [hwrite, Prod.mk.injEq] at hprocess
      exact Or.inl ⟨hprocess.1.symm, error, hprocess.2.symm⟩
  | ok written =>
      obtain ⟨after, owner⟩ := written
      have hstored : stored = after := by
        simp only [hwrite] at hprocess
        cases owner with
        | none => exact (Prod.mk.inj hprocess).1.symm
        | some id =>
            simp only at hprocess
            split at hprocess <;> exact (Prod.mk.inj hprocess).1.symm
      rw [hstored]
      exact Or.inr ⟨owner, rfl⟩

end Store

/-- A step of the lifecycle writes a candidate, a completion or nothing. -/
theorem LifecycleState.next_store
    {detector : CurvyNoteDetector Addr Secret Field Owner Note}
    {state after : LifecycleState Id Addr Secret Field Note}
    {action : LifecycleAction Id Addr Secret}
    (hnext : state.next detector action = some after) :
    after.store = state.store ∨
      (∃ candidate watching,
        state.store.processCandidate detector state.watched candidate =
          .ok (after.store, watching)) ∨
      ∃ completion result,
        state.store.processCompletion detector completion =
          (after.store, result) := by
  cases action with
  | grow announced completed indexedBlock =>
      simp only [next] at hnext
      split at hnext
      · cases hnext
        exact Or.inl rfl
      · cases hnext
  | watch order registered =>
      cases hnext
      exact Or.inl rfl
  | start =>
      simp only [next] at hnext
      split at hnext
      · split at hnext
        · cases hnext
        · cases hnext
          exact Or.inl rfl
      · cases hnext
  | interrupt =>
      cases hnext
      exact Or.inl rfl
  | crash order =>
      cases hnext
      exact Or.inl rfl
  | advance =>
      simp only [next] at hnext
      unfold advance at hnext
      split at hnext
      · cases hnext
      · cases hnext
        exact Or.inl rfl
      · cases hnext
        exact Or.inl rfl
      · split at hnext
        · cases hnext
          exact Or.inl rfl
        · rename_i hprocess
          cases hnext
          exact Or.inr (Or.inl ⟨_, _, hprocess⟩)
        · rename_i hprocess
          cases hnext
          exact Or.inr (Or.inl ⟨_, _, hprocess⟩)
      · cases hnext
        exact Or.inl rfl
      · cases hnext
        exact Or.inl rfl
      · cases hnext
        exact Or.inl rfl
      · cases hnext
        exact Or.inl rfl
      · split at hnext
        · cases hnext
          exact Or.inl rfl
        · rename_i hprocess
          cases hnext
          exact Or.inr (Or.inl ⟨_, _, hprocess⟩)
        · rename_i hprocess
          cases hnext
          exact Or.inr (Or.inl ⟨_, _, hprocess⟩)
      · cases hnext
        exact Or.inl rfl
      · split at hnext
        · cases hnext
          exact Or.inl rfl
        · split at hnext
          · rename_i hprocess
            cases hnext
            exact Or.inr (Or.inr ⟨_, _, hprocess⟩)
          · rename_i hprocess
            cases hnext
            exact Or.inr (Or.inr ⟨_, _, hprocess⟩)

end HoprStrategy.Curvy
