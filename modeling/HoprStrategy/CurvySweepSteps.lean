import HoprStrategy.CurvySweep

/-!
# What one step of a sweep does

A sweep removes the notes which it has read, and it spends no others.  A note
is lost to it when the recovery state owns it, the chain has not seen it spent
and the sweep will not remove it; no step of the sweep changes which notes are
lost.
-/

namespace HoprStrategy.Curvy

open Library

variable {Id Addr Secret Field Owner Note : Type}
  [DecidableEq Id] [DecidableEq Field]

/-! ## The store -/

namespace CurvyDepositState

variable {store after : CurvyDepositState Id Addr Field Note} {id other : Id}
  {noteId : Field} {noteIds : List Field}

/-- The recovery state holds the note for the allocation. -/
def Owned (store : CurvyDepositState Id Addr Field Note) (id : Id)
    (noteId : Field) : Prop :=
  (store.ownedNotes.lookup (id, noteId)).isSome = true

theorem lookup_eraseAll (notes : Table (Id × Field) (OwnedNoteRecord Id Addr Note))
    (noteIds : List Field) :
    (noteIds.foldl (fun notes noteId => notes.erase (id, noteId))
      notes).lookup (other, noteId) =
        if other = id ∧ noteId ∈ noteIds then none
        else notes.lookup (other, noteId) := by
  induction noteIds generalizing notes with
  | nil => simp
  | cons first rest ih =>
      rw [List.foldl_cons, ih]
      by_cases hrest : other = id ∧ noteId ∈ rest
      · rw [if_pos hrest, if_pos ⟨hrest.1, List.mem_cons_of_mem _ hrest.2⟩]
      · rw [if_neg hrest]
        by_cases hfirst : (other, noteId) = (id, first)
        · rw [hfirst, AList.lookup_erase, if_pos]
          cases hfirst
          exact ⟨rfl, List.mem_cons_self⟩
        · rw [AList.lookup_erase_ne hfirst, if_neg]
          intro hboth
          rcases List.mem_cons.mp hboth.2 with heq | hmem
          · exact hfirst (by rw [hboth.1, heq])
          · exact hrest ⟨hboth.1, hmem⟩

theorem removeSpentNotes_lookup :
    (store.removeSpentNotes id noteIds).ownedNotes.lookup (other, noteId) =
      if other = id ∧ noteId ∈ noteIds then none
      else store.ownedNotes.lookup (other, noteId) :=
  lookup_eraseAll store.ownedNotes noteIds

theorem removeSpentNotes_owned :
    (store.removeSpentNotes id noteIds).Owned other noteId ↔
      store.Owned other noteId ∧ ¬ (other = id ∧ noteId ∈ noteIds) := by
  unfold Owned
  rw [removeSpentNotes_lookup]
  by_cases hremoved : other = id ∧ noteId ∈ noteIds
  · simp [hremoved]
  · simp [hremoved]

variable {detector : CurvyNoteDetector Addr Secret Field Owner Note}
  {amountIsZero : Note → Bool}

/-- What holds of every record, of the note under its key. -/
def EachRecord (Holds : Field → DetectedCurvyNote Id Addr Note → Prop)
    (store : CurvyDepositState Id Addr Field Note) : Prop :=
  ∀ id noteId record, store.ownedNotes.lookup (id, noteId) = some record →
    Holds noteId record.detected

variable {Holds : Field → DetectedCurvyNote Id Addr Note → Prop}

theorem removeSpentNotes_eachRecord (heach : store.EachRecord Holds) :
    (store.removeSpentNotes id noteIds).EachRecord Holds := by
  intro owner noteId record hlookup
  rw [removeSpentNotes_lookup] at hlookup
  by_cases hremoved : owner = id ∧ noteId ∈ noteIds
  · rw [if_pos hremoved] at hlookup
    cases hlookup
  · rw [if_neg hremoved] at hlookup
    exact heach owner noteId record hlookup

/-! ## The lifecycle -/

/-- The note which `known_owner` builds carries the amount it is given. -/
def AmountKnown (detector : CurvyNoteDetector Addr Secret Field Owner Note)
    (amountIsZero : Note → Bool) : Prop :=
  ∀ owner sharedSecret amount token ephemeralKey viewTag,
    amountIsZero (detector.knownOwnerNote owner sharedSecret amount token
      ephemeralKey viewTag) = (detector.toBalance amount).isZero

end CurvyDepositState

namespace CurvyNoteDetector

variable {detector : CurvyNoteDetector Addr Secret Field Owner Note}
  {amountIsZero : Note → Bool}
  {watched : List (WatchedAllocation Id Addr Secret)}
  {candidate : CurvyPendingNote} {detected : DetectedCurvyNote Id Addr Note}

omit [DecidableEq Id] in
/-- A detected note has the announced id, and is built with its amount. -/
theorem detectOwnedNote_recomputed {noteId : Field}
    (hdetect : detector.detectOwnedNote candidate watched =
      .ok (some detected))
    (hparse : detector.parseNoteId candidate.noteId = .ok noteId) :
    detector.noteId detected.note = noteId ∧
      ∃ owner sharedSecret plain token ephemeralKey tag,
        detected.note = detector.knownOwnerNote owner sharedSecret plain token
            ephemeralKey tag ∧
          detected.deposit.amount = detector.toBalance plain := by
  unfold detectOwnedNote at hdetect
  cases hcandidate : detector.parseCandidate candidate with
  | error error => simp [hcandidate] at hdetect
  | ok parsed =>
      obtain ⟨announcement, viewTag⟩ := parsed
      simp only [hcandidate] at hdetect
      obtain ⟨other, _, amount, note, hjudge, _, rfl⟩ :=
        firstOwner_some hdetect
      have hnoteId := parseCandidate_noteId hcandidate
      rw [hparse, Except.ok.injEq] at hnoteId
      rw [hnoteId]
      obtain ⟨_, _, _, _, _, _, _, _, _, hnote, hid, hwei⟩ :=
        judge_recomputed hjudge
      exact ⟨hid, _, _, _, _, _, _, hnote, hwei⟩

omit [DecidableEq Id] in
theorem detectOwnedNote_known
    (hamount : CurvyDepositState.AmountKnown detector amountIsZero)
    {noteId : Field}
    (hdetect : detector.detectOwnedNote candidate watched =
      .ok (some detected))
    (hparse : detector.parseNoteId candidate.noteId = .ok noteId) :
    detector.noteId detected.note = noteId ∧
      amountIsZero detected.note = detected.deposit.amount.isZero := by
  obtain ⟨hnoteId, _, _, _, _, _, _, hnote, hbalance⟩ :=
    detectOwnedNote_recomputed hdetect hparse
  refine ⟨hnoteId, ?_⟩
  rw [hnote, hbalance]
  exact hamount _ _ _ _ _ _

end CurvyNoteDetector

namespace LifecycleState

variable {detector : CurvyNoteDetector Addr Secret Field Owner Note}
  {amountIsZero : Note → Bool}
  {state after : LifecycleState Id Addr Secret Field Note}
  {action : LifecycleAction Id Addr Secret}

/-- A step of the lifecycle writes no record, a new one or a completed one. -/
theorem next_records
    (hnext : state.next detector action = some after) :
    after.store.ownedNotes = state.store.ownedNotes ∨
      (∃ candidate note noteId cursor,
        detector.detectOwnedNote candidate state.watched = .ok (some note) ∧
        detector.parseNoteId candidate.noteId = .ok noteId ∧
        after.store = state.store.recordOwnedCandidate noteId note cursor) ∨
      ∃ key record leafIndex,
        state.store.ownedNotes.lookup key = some record ∧
        after.store.ownedNotes = state.store.ownedNotes.insert key
          ⟨record.detected, true, leafIndex⟩ := by
  rcases next_store hnext with
    hsame | ⟨candidate, watching, hprocess⟩ | ⟨note, result, hprocess⟩
  · rw [hsame]
    exact Or.inl rfl
  · rcases processCandidate_cases hprocess with
      ⟨_, _, hstore⟩ | ⟨_, hstore⟩ | ⟨noteId, note, _, hdetect, hparse, hstore⟩
    · rw [hstore]
      exact Or.inl rfl
    · rw [hstore]
      exact Or.inl rfl
    · exact Or.inr (Or.inl ⟨candidate, note, noteId, _, hdetect, hparse,
        hstore⟩)
  · rcases processCompletion_store hprocess with ⟨hsame, _⟩ | ⟨owner, hwrite⟩
    · rw [hsame]
      exact Or.inl rfl
    · rcases writeCompletion_cases hwrite with
        ⟨_, hstore, _⟩ | ⟨id, noteId, record, leafIndex, _, _, _, hlookup, _,
          hstore⟩
      · rw [hstore]
        exact Or.inl rfl
      · rw [hstore]
        exact Or.inr (Or.inr ⟨_, record, leafIndex, hlookup, rfl⟩)

theorem next_owned (hnext : state.next detector action = some after) {id : Id}
    {noteId : Field} (howned : state.store.Owned id noteId) :
    after.store.Owned id noteId := by
  unfold CurvyDepositState.Owned at howned ⊢
  rcases next_records hnext with
    hsame | ⟨candidate, note, other, cursor, _, _, hstore⟩ |
      ⟨key, record, leafIndex, _, hstore⟩
  · rw [hsame]
    exact howned
  · obtain ⟨record, hlookup⟩ := Option.isSome_iff_exists.mp howned
    rw [hstore, CurvyDepositState.recordOwnedCandidate_lookup hlookup]
    rfl
  · rw [hstore]
    by_cases hkey : (id, noteId) = key
    · rw [hkey, AList.lookup_insert]
      rfl
    · rw [AList.lookup_insert_ne hkey]
      exact howned

/-- What holds of every detected note is kept of every record. -/
theorem next_eachRecord
    {Holds : Field → DetectedCurvyNote Id Addr Note → Prop}
    (hholds : ∀ candidate (watched : List (WatchedAllocation Id Addr Secret))
      noteId detected,
      detector.detectOwnedNote candidate watched = .ok (some detected) →
      detector.parseNoteId candidate.noteId = .ok noteId →
        Holds noteId detected)
    (hnext : state.next detector action = some after)
    (heach : state.store.EachRecord Holds) :
    after.store.EachRecord Holds := by
  intro id noteId found hlookup
  rcases next_records hnext with
    hsame | ⟨candidate, note, other, cursor, hdetect, hparse, hstore⟩ |
      ⟨key, record, leafIndex, hrecord, hstore⟩
  · rw [hsame] at hlookup
    exact heach id noteId found hlookup
  · rw [hstore, recordOwnedCandidate_ownedNotes] at hlookup
    by_cases hkey : (id, noteId) = (note.deposit.id, other)
    · rw [if_pos hkey] at hlookup
      cases hold : state.store.ownedNotes.lookup (id, noteId) with
      | some old =>
          rw [hold] at hlookup
          cases hlookup
          exact heach id noteId _ hold
      | none =>
          rw [hold] at hlookup
          cases hlookup
          cases hkey
          exact hholds candidate state.watched _ note hdetect hparse
    · rw [if_neg hkey] at hlookup
      exact heach id noteId found hlookup
  · rw [hstore] at hlookup
    by_cases hkey : (id, noteId) = key
    · rw [hkey, AList.lookup_insert] at hlookup
      cases hlookup
      rw [← hkey] at hrecord
      exact heach id noteId record hrecord
    · rw [AList.lookup_insert_ne hkey] at hlookup
      exact heach id noteId found hlookup

end LifecycleState

/-! ## The notes which are read -/

namespace CurvyDepositState

variable {store : CurvyDepositState Id Addr Field Note} {id : Id}
  {detector : CurvyNoteDetector Addr Secret Field Owner Note}
  {amountIsZero : Note → Bool}
  {notes : List (CommittedCurvyNote Id Addr Note)}

theorem mem_sessionRecords {record : OwnedNoteRecord Id Addr Note} :
    record ∈ store.sessionRecords id ↔
      ∃ noteId, store.ownedNotes.lookup (id, noteId) = some record := by
  unfold sessionRecords
  rw [List.mem_map]
  constructor
  · intro hmem
    obtain ⟨entry, hentry, rfl⟩ := hmem
    obtain ⟨hin, hid⟩ := List.mem_filter.mp hentry
    simp only [decide_eq_true_eq] at hid
    refine ⟨entry.1.2, ?_⟩
    rw [← hid]
    exact AList.mem_lookup_iff.mpr hin
  · intro hexists
    obtain ⟨noteId, hlookup⟩ := hexists
    exact ⟨⟨(id, noteId), record⟩, List.mem_filter.mpr
      ⟨AList.mem_lookup_iff.mp hlookup, by simp⟩, rfl⟩

omit [DecidableEq Id] in
theorem decodeOwnedNote_leaf {record : OwnedNoteRecord Id Addr Note}
    {note : StoredOwnedNote Id Addr Note}
    (hdecode : decodeOwnedNote record = .ok note) :
    record.committed = note.leafIndex.isSome := by
  unfold decodeOwnedNote at hdecode
  by_cases hflag : record.committed ≠
      (if record.rawLeafIndex ≠ -1 then some record.rawLeafIndex
        else none).isSome
  · simp only [if_pos hflag] at hdecode
    cases hdecode
  · simp only [if_neg hflag] at hdecode
    cases hdecode
    exact not_not.mp hflag

/-- What is read are the committed records. -/
theorem mem_committedNotes (hnotes : store.committedNotes id = .ok notes)
    {note : CommittedCurvyNote Id Addr Note} (hmem : note ∈ notes) :
    ∃ noteId record,
      store.ownedNotes.lookup (id, noteId) = some record ∧
        record.committed = true ∧
        note.deposit = record.detected.deposit ∧
        note.note = record.detected.note := by
  obtain ⟨stored, hstored, hnotes⟩ := bind_eq_ok.mp hnotes
  cases hnotes
  obtain ⟨found, hfound, hnote⟩ := List.mem_filterMap.mp hmem
  obtain ⟨record, hrecord, hdecode⟩ :=
    (mem_of_mapM_eq_ok hstored found).mp hfound
  obtain ⟨noteId, hlookup⟩ := mem_sessionRecords.mp hrecord
  obtain ⟨leafIndex, hleaf, rfl⟩ := Option.map_eq_some_iff.mp hnote
  have hdetected := (decodeOwnedNote_ok hdecode).1
  refine ⟨noteId, record, hlookup, ?_, ?_, ?_⟩
  · rw [decodeOwnedNote_leaf hdecode, hleaf]
    rfl
  · rw [← hdetected]
  · rw [← hdetected]

/-- Every committed record is read. -/
theorem committedNotes_mem (hnotes : store.committedNotes id = .ok notes)
    {noteId : Field} {record : OwnedNoteRecord Id Addr Note}
    (hlookup : store.ownedNotes.lookup (id, noteId) = some record)
    (hcommitted : record.committed = true) :
    ∃ note ∈ notes, note.note = record.detected.note := by
  obtain ⟨stored, hstored, hnotes⟩ := bind_eq_ok.mp hnotes
  cases hnotes
  have hrecord := mem_sessionRecords.mpr ⟨noteId, hlookup⟩
  obtain ⟨found, hfound, hdecode⟩ := exists_of_mapM_eq_ok hstored hrecord
  have hleaf := decodeOwnedNote_leaf hdecode
  rw [hcommitted] at hleaf
  obtain ⟨leafIndex, hindex⟩ := Option.isSome_iff_exists.mp hleaf.symm
  refine ⟨⟨found.detected.deposit, found.detected.note, leafIndex⟩,
    List.mem_filterMap.mpr ⟨found, hfound, ?_⟩, ?_⟩
  · rw [hindex]
    rfl
  · rw [(decodeOwnedNote_ok hdecode).1]

end CurvyDepositState

/-! ## The phases -/

section Phases

variable (detector : CurvyNoteDetector Addr Secret Field Owner Note)
  (amountIsZero : Note → Bool)

def noteIds (notes : List (CommittedCurvyNote Id Addr Note)) : List Field :=
  notes.map fun note => detector.noteId note.note

def AmountsAgree (notes : List (CommittedCurvyNote Id Addr Note)) : Prop :=
  ∀ note ∈ notes, amountIsZero note.note = note.deposit.amount.isZero

/-- The notes which the sweep has read and is still to remove. -/
def SweepPhase.toSweep : SweepPhase Id Addr Field Note → Option (List Field)
  | .reconciling _ notes unspent _ =>
      some (noteIds detector notes ++ noteIds detector unspent)
  | .dropping _ unspent _ _ => some (noteIds detector unspent)
  | .withdrawing notes _ _ => some (noteIds detector notes)
  | .removing removed _ => some removed
  | .forgetting => some []
  | _ => none

/-- What a phase counts as spent is spent, and what is left to withdraw and
what was withdrawn make up the notes. -/
def SweepPhase.Consistent (spent : List Field) :
    SweepPhase Id Addr Field Note → Prop
  | .reconciling _ notes unspent spentIds =>
      spentIds ⊆ spent ∧ AmountsAgree amountIsZero notes ∧
        AmountsAgree amountIsZero unspent
  | .dropping _ unspent spentIds _ =>
      spentIds ⊆ spent ∧ AmountsAgree amountIsZero unspent
  | .withdrawing notes pending spentNoteIds =>
      spentNoteIds ⊆ spent ∧ AmountsAgree amountIsZero notes ∧
        (∀ note ∈ pending.flatten,
          detector.noteId note ∈ noteIds detector notes) ∧
        (∀ noteId ∈ spentNoteIds, noteId ∈ noteIds detector notes) ∧
        ∀ note ∈ notes, amountIsZero note.note = false →
          detector.noteId note.note ∈ spentNoteIds ∨
            note.note ∈ pending.flatten
  | _ => True

variable {detector amountIsZero} {awaited : Bool} {spent spentIds : List Field}
  {notes unspent : List (CommittedCurvyNote Id Addr Note)}

omit [DecidableEq Id] in
theorem mem_withdrawalChunks {note : Note} :
    note ∈ (withdrawalChunks amountIsZero notes).flatten ↔
      amountIsZero note = false ∧ ∃ read ∈ notes, read.note = note := by
  unfold withdrawalChunks
  rw [chunks_flatten, List.mem_filter, List.mem_map, and_comm]
  simp

omit [DecidableEq Id] [DecidableEq Field] in
theorem withdrawing_consistent (hagree : AmountsAgree amountIsZero notes) :
    (SweepPhase.withdrawing notes (withdrawalChunks amountIsZero notes) [] :
      SweepPhase Id Addr Field Note).Consistent detector amountIsZero
        spent := by
  refine ⟨List.nil_subset _, hagree, ?_, ?_, ?_⟩
  · intro note hmem
    obtain ⟨_, read, hread, rfl⟩ := mem_withdrawalChunks.mp hmem
    exact List.mem_map.mpr ⟨read, hread, rfl⟩
  · intro noteId hmem
    cases hmem
  · intro note hmem hzero
    exact Or.inr (mem_withdrawalChunks.mpr ⟨hzero, note, hmem, rfl⟩)

omit [DecidableEq Id] [DecidableEq Field] in
theorem reconciled_consistent (hagree : AmountsAgree amountIsZero unspent) :
    (SweepPhase.reconciled amountIsZero awaited unspent :
      SweepPhase Id Addr Field Note).Consistent detector amountIsZero
        spent := by
  unfold SweepPhase.reconciled
  split
  · split
    · trivial
    · trivial
  · exact withdrawing_consistent hagree

omit [DecidableEq Id] [DecidableEq Field] in
theorem reconcile_consistent (hspent : spentIds ⊆ spent)
    (hnotes : AmountsAgree amountIsZero notes)
    (hunspent : AmountsAgree amountIsZero unspent) :
    (SweepPhase.reconcile amountIsZero awaited notes unspent spentIds).Consistent
      detector amountIsZero spent := by
  unfold SweepPhase.reconcile
  split
  · split
    · exact reconciled_consistent hunspent
    · exact ⟨hspent, hunspent⟩
  · exact ⟨hspent, hnotes, hunspent⟩

omit [DecidableEq Id] [DecidableEq Field] in
theorem reconciled_toSweep :
    (SweepPhase.reconciled amountIsZero awaited unspent :
        SweepPhase Id Addr Field Note).toSweep detector = none ∨
      (SweepPhase.reconciled amountIsZero awaited unspent :
        SweepPhase Id Addr Field Note).toSweep detector =
          some (noteIds detector unspent) := by
  unfold SweepPhase.reconciled
  split
  · split
    · exact Or.inl rfl
    · exact Or.inl rfl
  · exact Or.inr rfl

omit [DecidableEq Id] [DecidableEq Field] in
theorem reconcile_toSweep :
    (SweepPhase.reconcile amountIsZero awaited notes unspent spentIds).toSweep
        detector = none ∨
      (SweepPhase.reconcile amountIsZero awaited notes unspent
        spentIds).toSweep detector =
          some (noteIds detector notes ++ noteIds detector unspent) := by
  unfold SweepPhase.reconcile
  split
  · rename_i hnotes
    rw [List.isEmpty_iff.mp hnotes]
    split
    · exact reconciled_toSweep
    · exact Or.inr rfl
  · exact Or.inr rfl

end Phases

/-! ## One step -/

/-- The committed notes are read. -/
def SweepAction.IsRead : SweepAction Id Addr Secret Field → Prop
  | .readNotes (.ok _) => True
  | _ => False

namespace SweepState

variable (detector : CurvyNoteDetector Addr Secret Field Owner Note)
  (amountIsZero : Note → Bool) (id : Id)

structure Invariant (state : SweepState Id Addr Secret Field Note) :
    Prop where
  detected : state.lifecycle.store.Detected detector amountIsZero
  consistent : state.phase.Consistent detector amountIsZero state.spent
  held : ∀ ids, state.phase.toSweep detector = some ids → ∀ noteId ∈ ids,
    state.lifecycle.store.Owned id noteId ∨ noteId ∈ state.spent

/-- The sweep will not remove a note which is owned and unspent. -/
def Lost (state : SweepState Id Addr Secret Field Note) (noteId : Field) :
    Prop :=
  state.lifecycle.store.Owned id noteId ∧ noteId ∉ state.spent ∧
    ∀ ids, state.phase.toSweep detector = some ids → noteId ∉ ids

/-- A step of a sweep which has read its notes: it removes the notes `gone` and
spends the notes `fresh`. -/
structure Moves (state after : SweepState Id Addr Secret Field Note)
    (ids gone fresh ids' : List Field) : Prop where
  was : state.phase.toSweep detector = some ids
  becomes : after.phase.toSweep detector = some ids'
  owned : ∀ noteId, after.lifecycle.store.Owned id noteId ↔
    state.lifecycle.store.Owned id noteId ∧ noteId ∉ gone
  spent : after.spent = state.spent ++ fresh
  covers : ∀ noteId,
    noteId ∈ ids' ∨ noteId ∈ gone ∨ noteId ∈ fresh ∨ noteId ∈ state.spent ↔
      noteId ∈ ids ∨ noteId ∈ state.spent
  kept : ∀ noteId ∈ ids', noteId ∈ gone → noteId ∈ state.spent

variable {detector amountIsZero id}
  {state after : SweepState Id Addr Secret Field Note}
  {action : SweepAction Id Addr Secret Field}
  {ids gone fresh ids' : List Field} {noteId : Field}

theorem Moves.held (hmoves : Moves detector id state after ids gone fresh ids')
    (hinv : state.Invariant detector amountIsZero id) :
    ∀ ids, after.phase.toSweep detector = some ids → ∀ noteId ∈ ids,
      after.lifecycle.store.Owned id noteId ∨ noteId ∈ after.spent := by
  intro found hfound noteId hmem
  rw [hmoves.becomes, Option.some.injEq] at hfound
  subst hfound
  rw [hmoves.owned, hmoves.spent, List.mem_append]
  have hcases := (hmoves.covers noteId).mp (Or.inl hmem)
  by_cases hspent : noteId ∈ state.spent
  · exact Or.inr (Or.inl hspent)
  · have hids := hcases.resolve_right hspent
    have howned := (hinv.held ids hmoves.was noteId hids).resolve_right
      hspent
    apply Or.inl
    constructor
    · exact howned
    · intro hgone
      exact hspent (hmoves.kept noteId hmem hgone)

/-- The sweep itself loses nothing and finds nothing again. -/
theorem Moves.lost (hmoves : Moves detector id state after ids gone fresh ids') :
    after.Lost detector id noteId ↔ state.Lost detector id noteId := by
  have hcovers := hmoves.covers noteId
  unfold Lost
  rw [hmoves.owned, hmoves.spent, List.mem_append, hmoves.was, hmoves.becomes]
  simp only [Option.some.injEq, forall_eq']
  constructor
  · intro hlost
    obtain ⟨⟨howned, hgone⟩, hspent, hids'⟩ := hlost
    have hunspent : noteId ∉ state.spent := fun hmem => hspent (Or.inl hmem)
    have hfresh : noteId ∉ fresh := fun hmem => hspent (Or.inr hmem)
    refine ⟨howned, hunspent, ?_⟩
    intro hmem
    rcases hcovers.mpr (Or.inl hmem) with hin | hin | hin | hin
    · exact hids' hin
    · exact hgone hin
    · exact hfresh hin
    · exact hunspent hin
  · intro hlost
    obtain ⟨howned, hunspent, hids⟩ := hlost
    have hnone : ¬ (noteId ∈ ids ∨ noteId ∈ state.spent) := by
      intro hcases
      exact hcases.elim hids hunspent
    rw [← hcovers] at hnone
    push Not at hnone
    obtain ⟨hids', hgone, hfresh, _⟩ := hnone
    exact ⟨⟨howned, hgone⟩, fun hmem => hmem.elim hunspent hfresh, hids'⟩

/-- A step which removes and spends nothing. -/
theorem Moves.stay (hbefore : state.phase.toSweep detector = some ids)
    (hafter : after.phase.toSweep detector = some ids')
    (howned : ∀ noteId, after.lifecycle.store.Owned id noteId ↔
      state.lifecycle.store.Owned id noteId)
    (hspent : after.spent = state.spent)
    (hcovers : ∀ noteId, noteId ∈ ids' ∨ noteId ∈ state.spent ↔
      noteId ∈ ids ∨ noteId ∈ state.spent) :
    Moves detector id state after ids [] [] ids' where
  was := hbefore
  becomes := hafter
  owned noteId := by simp [howned]
  spent := by simp [hspent]
  covers noteId := by simpa using hcovers noteId
  kept noteId _ hmem := by cases hmem

theorem remove_moves {phase : SweepPhase Id Addr Field Note}
    (hbefore : state.phase.toSweep detector = some ids)
    (hafter : phase.toSweep detector = some ids')
    (hcovers : ∀ noteId,
      noteId ∈ ids' ∨ noteId ∈ gone ∨ noteId ∈ state.spent ↔
        noteId ∈ ids ∨ noteId ∈ state.spent)
    (hkept : ∀ noteId ∈ ids', noteId ∈ gone → noteId ∈ state.spent) :
    Moves detector id state { state.remove id gone with phase := phase }
      ids gone [] ids' where
  was := hbefore
  becomes := hafter
  owned noteId := by
    have howned :
        (state.lifecycle.store.removeSpentNotes id gone).Owned id noteId ↔
          state.lifecycle.store.Owned id noteId ∧
            ¬ (id = id ∧ noteId ∈ gone) :=
      CurvyDepositState.removeSpentNotes_owned
    simpa [remove] using howned
  spent := by simp [remove]
  covers noteId := by simpa using hcovers noteId
  kept := hkept

/-- What the sweep has not read yet, or has given up. -/
def Ends (detector : CurvyNoteDetector Addr Secret Field Owner Note) (id : Id)
    (state after : SweepState Id Addr Secret Field Note) : Prop :=
  after.phase.toSweep detector = none ∨
    ∃ ids gone fresh ids', Moves detector id state after ids gone fresh ids'

theorem reconcile_ends {awaited : Bool}
    {notes unspent : List (CommittedCurvyNote Id Addr Note)}
    {spentIds : List Field}
    (hbefore : state.phase.toSweep detector = some ids)
    (hcovers : ∀ noteId,
      noteId ∈ noteIds detector notes ++ noteIds detector unspent ∨
          noteId ∈ state.spent ↔
        noteId ∈ ids ∨ noteId ∈ state.spent) :
    Ends detector id state { state with
      phase := .reconcile amountIsZero awaited notes unspent spentIds } := by
  have hafter : (SweepPhase.reconcile amountIsZero awaited notes unspent
      spentIds).toSweep detector = none ∨ _ := reconcile_toSweep
  rcases hafter with hnone | hsome
  · exact Or.inl hnone
  · exact Or.inr ⟨_, _, _, _,
      Moves.stay hbefore hsome (fun _ => Iff.rfl) rfl hcovers⟩

theorem nullifierSpent_ends {awaited : Bool}
    {note : CommittedCurvyNote Id Addr Note}
    {notes unspent : List (CommittedCurvyNote Id Addr Note)}
    {spentIds : List Field} {reply : Except String Bool}
    (hphase : state.phase = .reconciling awaited (note :: notes) unspent
      spentIds)
    (hnext : state.nullifierSpent detector amountIsZero awaited note notes
      unspent spentIds reply = some after) :
    Ends detector id state after := by
  have hbefore : state.phase.toSweep detector =
      some (noteIds detector (note :: notes) ++ noteIds detector unspent) := by
    rw [hphase]
    rfl
  unfold nullifierSpent at hnext
  split at hnext
  · cases hnext
    exact Or.inl rfl
  · cases hnext
    apply reconcile_ends hbefore
    intro noteId
    simp only [noteIds, List.map_cons, List.map_append, List.map_nil,
      List.mem_append, List.mem_cons, List.not_mem_nil, or_false]
    tauto
  · split at hnext
    · rename_i hspent
      cases hnext
      apply reconcile_ends hbefore
      intro noteId
      by_cases hsame : noteId = detector.noteId note.note
      · subst hsame
        simp [hspent]
      · simp [noteIds, hsame]
    · cases hnext

/-- One attempt to remove the notes which were spent before. -/
theorem dropping_ends {awaited : Bool}
    {unspent : List (CommittedCurvyNote Id Addr Note)}
    {spentIds : List Field} {retries : ℕ}
    {reply : Except CurvyStateError Unit}
    (hphase : state.phase = .dropping awaited unspent spentIds retries)
    (hspent : spentIds ⊆ state.spent) :
    Ends detector id state
      (state.removeSpent id spentIds retries
        (.dropping awaited unspent spentIds)
        (.reconciled amountIsZero awaited unspent) reply) := by
  have hbefore : state.phase.toSweep detector =
      some (noteIds detector unspent) := by
    rw [hphase]
    rfl
  unfold removeSpent
  split
  · have hafter : (SweepPhase.reconciled amountIsZero awaited unspent :
        SweepPhase Id Addr Field Note).toSweep detector = none ∨ _ :=
      reconciled_toSweep
    rcases hafter with hnone | hsome
    · exact Or.inl hnone
    · refine Or.inr ⟨_, _, _, _, remove_moves hbefore hsome ?_ ?_⟩
      · intro noteId
        have := @hspent noteId
        tauto
      · intro noteId _ hgone
        exact hspent hgone
  · split
    · exact Or.inl rfl
    · exact Or.inr ⟨_, _, _, _,
        Moves.stay hbefore rfl (fun _ => Iff.rfl) rfl fun _ => Iff.rfl⟩

/-- One attempt to remove the swept notes. -/
theorem removing_ends {removed : List Field} {retries : ℕ}
    {reply : Except CurvyStateError Unit}
    (hphase : state.phase = .removing removed retries) :
    Ends detector id state
      (state.removeSpent id removed retries (.removing removed) .forgetting
        reply) := by
  have hbefore : state.phase.toSweep detector = some removed := by
    rw [hphase]
    rfl
  unfold removeSpent
  split
  · refine Or.inr ⟨_, _, _, _, remove_moves hbefore rfl ?_ ?_⟩
    · intro noteId
      simp
    · intro noteId hmem
      cases hmem
  · split
    · exact Or.inl rfl
    · exact Or.inr ⟨_, _, _, _,
        Moves.stay hbefore rfl (fun _ => Iff.rfl) rfl fun _ => Iff.rfl⟩

/-- A chunk spends notes which are being swept. -/
theorem spend_moves {phase : SweepPhase Id Addr Field Note}
    (hbefore : state.phase.toSweep detector = some ids)
    (hafter : phase.toSweep detector = some ids)
    (hfresh : fresh ⊆ ids) :
    Moves detector id state
      { state with spent := state.spent ++ fresh, phase := phase }
      ids [] fresh ids where
  was := hbefore
  becomes := hafter
  owned noteId := by simp
  spent := rfl
  covers noteId := by
    have := @hfresh noteId
    simp only [List.not_mem_nil, false_or]
    tauto
  kept noteId _ hmem := by cases hmem

section Withdrawing

variable {notes : List (CommittedCurvyNote Id Addr Note)}
  {pending : List (List Note)} {spentNoteIds : List Field}

variable (detector) in
omit [DecidableEq Id] [DecidableEq Field] in
theorem withdrawing_toSweep
    (hphase : state.phase = .withdrawing notes pending spentNoteIds) :
    state.phase.toSweep detector = some (noteIds detector notes) := by
  rw [hphase]
  rfl

theorem withdrawing_chunk {chunk : List Note}
    (hinv : state.Invariant detector amountIsZero id)
    (hphase : state.phase = .withdrawing notes (chunk :: pending)
      spentNoteIds) :
    chunk.map detector.noteId ⊆ noteIds detector notes := by
  have hconsistent := hinv.consistent
  rw [hphase] at hconsistent
  obtain ⟨_, _, hpending, _, _⟩ := hconsistent
  intro noteId hmem
  obtain ⟨note, hnote, rfl⟩ := List.mem_map.mp hmem
  apply hpending
  rw [List.flatten_cons, List.mem_append]
  exact Or.inl hnote

theorem withdrawFails_ends {message : String} {landed beforeDeadline : Bool}
    (hinv : state.Invariant detector amountIsZero id)
    (hphase : state.phase = .withdrawing notes pending spentNoteIds) :
    Ends detector id state
      (state.withdrawFails detector amountIsZero notes pending message landed
        beforeDeadline) := by
  have hbefore := withdrawing_toSweep detector hphase
  have hfresh : (pending.headD []).map detector.noteId ⊆
      noteIds detector notes := by
    cases pending with
    | nil => exact List.nil_subset _
    | cons chunk rest => exact withdrawing_chunk hinv hphase
  unfold withdrawFails
  dsimp only
  split
  · cases landed with
    | true => exact Or.inr ⟨_, _, _, _, spend_moves hbefore rfl hfresh⟩
    | false => exact Or.inr ⟨_, _, _, _,
        Moves.stay hbefore rfl (fun _ => Iff.rfl) rfl fun _ => Iff.rfl⟩
  · exact Or.inl rfl

/-- Once every chunk has landed the removed notes are those which were read,
except for spent ones. -/
theorem withdrawn_ends (hinv : state.Invariant detector amountIsZero id)
    (hphase : state.phase = .withdrawing notes [] spentNoteIds) :
    Ends detector id state { state with
      phase := .removing
        (spentNoteIds ++
          (notes.filter (·.deposit.amount.isZero)).map fun note =>
            detector.noteId note.note)
        removalRetries } := by
  have hconsistent := hinv.consistent
  rw [hphase] at hconsistent
  obtain ⟨_, hagree, _, hspentIds, hall⟩ := hconsistent
  have hbefore := withdrawing_toSweep detector hphase
  refine Or.inr ⟨_, _, _, _,
    Moves.stay hbefore rfl (fun _ => Iff.rfl) rfl ?_⟩
  intro noteId
  apply or_congr_left
  rw [List.mem_append]
  constructor
  · intro hmem
    rcases hmem with hspent | hzero
    · exact hspentIds noteId hspent
    · obtain ⟨note, hnote, rfl⟩ := List.mem_map.mp hzero
      exact List.mem_map.mpr ⟨note, (List.mem_filter.mp hnote).1, rfl⟩
  · intro hmem
    obtain ⟨note, hnote, rfl⟩ := List.mem_map.mp hmem
    by_cases hzero : note.deposit.amount.isZero = true
    · exact Or.inr (List.mem_map.mpr
        ⟨note, List.mem_filter.mpr ⟨hnote, hzero⟩, rfl⟩)
    · have hnonzero : amountIsZero note.note = false := by
        rw [hagree note hnote]
        exact Bool.eq_false_of_not_eq_true hzero
      rcases hall note hnote hnonzero with hspent | hpending
      · exact Or.inl hspent
      · cases hpending

end Withdrawing

theorem sweepOther_ends {other : Id} {noteIds : List Field} (hne : other ≠ id) :
    Ends detector id state (state.remove other noteIds) := by
  cases hbefore : state.phase.toSweep detector with
  | none => exact Or.inl hbefore
  | some ids =>
      refine Or.inr ⟨_, _, _, _, Moves.stay hbefore hbefore ?_ rfl
        fun _ => Iff.rfl⟩
      intro noteId
      apply CurvyDepositState.removeSpentNotes_owned.trans
      rw [and_iff_left_iff_imp]
      intro _ hboth
      exact hne hboth.1.symm

/-- Once the notes are read a step of the sweep keeps to them. -/
theorem next_ends (hinv : state.Invariant detector amountIsZero id)
    (hread : ¬ action.IsRead)
    (hlifecycle : ∀ step, action ≠ .lifecycle step)
    (hnext : state.next detector amountIsZero id action = some after) :
    Ends detector id state after := by
  cases action with
  | lifecycle step => exact absurd rfl (hlifecycle step)
  | sweepOther other noteIds =>
      simp only [next] at hnext
      split at hnext
      · cases hnext
      · rename_i hne
        cases hnext
        exact sweepOther_ends hne
  | enter reply =>
      simp only [next] at hnext
      split at hnext
      · split at hnext
        · cases hnext
          exact Or.inl rfl
        · cases hnext
          exact Or.inl rfl
      · split at hnext
        · cases hnext
          exact Or.inl rfl
        · cases hnext
          exact Or.inl rfl
      · cases hnext
  | readNotes reply =>
      simp only [next] at hnext
      split at hnext
      · cases reply with
        | error error =>
            cases hnext
            exact Or.inl rfl
        | ok _ => exact absurd trivial hread
      · cases hnext
  | nullifierSpent reply =>
      simp only [next] at hnext
      split at hnext
      · rename_i hphase
        exact nullifierSpent_ends hphase hnext
      · cases hnext
  | removeSpent reply =>
      simp only [next] at hnext
      split at hnext
      · rename_i hphase
        cases hnext
        have hconsistent := hinv.consistent
        rw [hphase] at hconsistent
        exact dropping_ends hphase hconsistent.1
      · rename_i hphase
        cases hnext
        exact removing_ends hphase
      · cases hnext
  | awaitCommitment reply =>
      simp only [next] at hnext
      split at hnext
      · cases hnext
        exact Or.inl rfl
      · cases hnext
        exact Or.inl rfl
      · cases hnext
  | withdrawChunk =>
      simp only [next] at hnext
      split at hnext
      · rename_i hphase
        cases hnext
        exact Or.inr ⟨_, _, _, _, spend_moves
          (withdrawing_toSweep detector hphase) rfl
          (withdrawing_chunk hinv hphase)⟩
      · cases hnext
  | withdrawFails message landed beforeDeadline =>
      simp only [next] at hnext
      split at hnext
      · rename_i hphase
        cases hnext
        exact withdrawFails_ends hinv hphase
      · cases hnext
  | withdrawn =>
      simp only [next] at hnext
      split at hnext
      · rename_i hphase
        cases hnext
        exact withdrawn_ends hinv hphase
      · cases hnext
  | removeScanSecret =>
      simp only [next] at hnext
      split at hnext
      · cases hnext
        exact Or.inl rfl
      · cases hnext

/-! ## What stays consistent -/

theorem removeSpent_consistent {noteIds : List Field} {retries : ℕ}
    {again : ℕ → SweepPhase Id Addr Field Note}
    {removed : SweepPhase Id Addr Field Note}
    {reply : Except CurvyStateError Unit}
    (hagain : ∀ retries,
      (again retries).Consistent detector amountIsZero state.spent)
    (hremoved : removed.Consistent detector amountIsZero state.spent) :
    (state.removeSpent id noteIds retries again removed reply).phase.Consistent
      detector amountIsZero
      (state.removeSpent id noteIds retries again removed reply).spent := by
  unfold removeSpent
  split
  · exact hremoved
  · split
    · trivial
    · exact hagain _

theorem readNotes_consistent {awaited : Bool}
    {reply : Except CurvyStateError Unit}
    (hdetected : state.lifecycle.store.Detected detector amountIsZero) :
    (state.readNotes amountIsZero id awaited reply).phase.Consistent detector
      amountIsZero (state.readNotes amountIsZero id awaited reply).spent := by
  unfold readNotes
  split
  · trivial
  · split
    · trivial
    · rename_i notes hnotes
      apply reconcile_consistent (List.nil_subset _)
      · intro note hmem
        obtain ⟨noteId, record, hlookup, _, hdeposit, hnote⟩ :=
          CurvyDepositState.mem_committedNotes hnotes hmem
        rw [hdeposit, hnote]
        exact (hdetected id noteId record hlookup).2
      · intro note hmem
        cases hmem

theorem nullifierSpent_consistent {awaited : Bool}
    {note : CommittedCurvyNote Id Addr Note}
    {notes unspent : List (CommittedCurvyNote Id Addr Note)}
    {spentIds : List Field} {reply : Except String Bool}
    (hinv : state.Invariant detector amountIsZero id)
    (hphase : state.phase = .reconciling awaited (note :: notes) unspent
      spentIds)
    (hnext : state.nullifierSpent detector amountIsZero awaited note notes
      unspent spentIds reply = some after) :
    after.phase.Consistent detector amountIsZero after.spent := by
  have hconsistent := hinv.consistent
  rw [hphase] at hconsistent
  obtain ⟨hspent, hnotes, hunspent⟩ := hconsistent
  have hrest : AmountsAgree amountIsZero notes :=
    fun other hmem => hnotes other (List.mem_cons_of_mem note hmem)
  unfold nullifierSpent at hnext
  split at hnext
  · cases hnext
    trivial
  · cases hnext
    apply reconcile_consistent hspent hrest
    intro other hmem
    rcases List.mem_append.mp hmem with hold | hnew
    · exact hunspent other hold
    · rw [List.mem_singleton.mp hnew]
      exact hnotes note List.mem_cons_self
  · split at hnext
    · rename_i hseen
      cases hnext
      apply reconcile_consistent _ hrest hunspent
      intro noteId hmem
      rcases List.mem_append.mp hmem with hold | hnew
      · exact hspent hold
      · rw [List.mem_singleton.mp hnew]
        exact hseen
    · cases hnext

theorem withdrawChunk_consistent
    {notes : List (CommittedCurvyNote Id Addr Note)} {chunk : List Note}
    {pending : List (List Note)} {spentNoteIds : List Field}
    (hinv : state.Invariant detector amountIsZero id)
    (hphase : state.phase = .withdrawing notes (chunk :: pending)
      spentNoteIds) :
    (SweepPhase.withdrawing notes pending
        (spentNoteIds ++ chunk.map detector.noteId) :
      SweepPhase Id Addr Field Note).Consistent detector amountIsZero
        (state.spent ++ chunk.map detector.noteId) := by
  have hconsistent := hinv.consistent
  rw [hphase] at hconsistent
  obtain ⟨hspent, hagree, hpending, hspentIds, hall⟩ := hconsistent
  refine ⟨?_, hagree, ?_, ?_, ?_⟩
  · intro noteId hmem
    rw [List.mem_append] at hmem ⊢
    exact hmem.imp_left fun hold => hspent hold
  · intro note hmem
    apply hpending
    rw [List.flatten_cons]
    exact List.mem_append_right chunk hmem
  · intro noteId hmem
    rcases List.mem_append.mp hmem with hold | hnew
    · exact hspentIds noteId hold
    · exact withdrawing_chunk hinv hphase hnew
  · intro note hmem hzero
    rw [List.mem_append]
    rcases hall note hmem hzero with hold | hleft
    · exact Or.inl (Or.inl hold)
    · rw [List.flatten_cons, List.mem_append] at hleft
      rcases hleft with hchunk | hleft
      · exact Or.inl (Or.inr (List.mem_map.mpr ⟨note.note, hchunk, rfl⟩))
      · exact Or.inr hleft

omit [DecidableEq Id] [DecidableEq Field] in
theorem withdrawFails_consistent
    {notes : List (CommittedCurvyNote Id Addr Note)}
    {pending : List (List Note)} {message : String}
    {landed beforeDeadline : Bool}
    (hagree : AmountsAgree amountIsZero notes) :
    (state.withdrawFails detector amountIsZero notes pending message landed
      beforeDeadline).phase.Consistent detector amountIsZero
      (state.withdrawFails detector amountIsZero notes pending message landed
        beforeDeadline).spent := by
  unfold withdrawFails
  dsimp only
  split
  · exact withdrawing_consistent hagree
  · trivial

theorem next_consistent (hinv : state.Invariant detector amountIsZero id)
    (hnext : state.next detector amountIsZero id action = some after) :
    after.phase.Consistent detector amountIsZero after.spent := by
  have hconsistent := hinv.consistent
  cases action with
  | lifecycle step =>
      simp only [next] at hnext
      obtain ⟨lifecycle, _, hafter⟩ := Option.bind_eq_some_iff.mp hnext
      cases hafter
      cases step with
      | crash order => trivial
      | _ => exact hconsistent
  | sweepOther other noteIds =>
      simp only [next] at hnext
      split at hnext
      · cases hnext
      · cases hnext
        exact hconsistent
  | enter reply =>
      simp only [next] at hnext
      split at hnext
      · split at hnext
        · cases hnext
          trivial
        · cases hnext
          trivial
      · split at hnext
        · cases hnext
          trivial
        · cases hnext
          trivial
      · cases hnext
  | readNotes reply =>
      simp only [next] at hnext
      split at hnext
      · cases hnext
        exact readNotes_consistent hinv.detected
      · cases hnext
  | nullifierSpent reply =>
      simp only [next] at hnext
      split at hnext
      · rename_i hphase
        exact nullifierSpent_consistent hinv hphase hnext
      · cases hnext
  | removeSpent reply =>
      simp only [next] at hnext
      split at hnext
      · rename_i hphase
        cases hnext
        rw [hphase] at hconsistent
        exact removeSpent_consistent (fun _ => hconsistent)
          (reconciled_consistent hconsistent.2)
      · cases hnext
        exact removeSpent_consistent (fun _ => trivial) trivial
      · cases hnext
  | awaitCommitment reply =>
      simp only [next] at hnext
      split at hnext
      · cases hnext
        trivial
      · cases hnext
        trivial
      · cases hnext
  | withdrawChunk =>
      simp only [next] at hnext
      split at hnext
      · rename_i hphase
        cases hnext
        exact withdrawChunk_consistent hinv hphase
      · cases hnext
  | withdrawFails message landed beforeDeadline =>
      simp only [next] at hnext
      split at hnext
      · rename_i hphase
        cases hnext
        rw [hphase] at hconsistent
        exact withdrawFails_consistent hconsistent.2.1
      · cases hnext
  | withdrawn =>
      simp only [next] at hnext
      split at hnext
      · cases hnext
        trivial
      · cases hnext
  | removeScanSecret =>
      simp only [next] at hnext
      split at hnext
      · cases hnext
        trivial
      · cases hnext

/-- A step removes records, goes on with the lifecycle or leaves the store. -/
theorem next_store (hnext : state.next detector amountIsZero id action =
      some after) :
    (∃ owner noteIds, after.lifecycle.store =
        state.lifecycle.store.removeSpentNotes owner noteIds) ∨
      (∃ step, action = .lifecycle step ∧
        state.lifecycle.next detector step = some after.lifecycle) ∨
      after.lifecycle.store = state.lifecycle.store := by
  have hremove : ∀ {noteIds : List Field} {retries : ℕ}
      {again : ℕ → SweepPhase Id Addr Field Note}
      {removed : SweepPhase Id Addr Field Note}
      {reply : Except CurvyStateError Unit},
      (∃ owner ids, (state.removeSpent id noteIds retries again removed
          reply).lifecycle.store =
          state.lifecycle.store.removeSpentNotes owner ids) ∨
        (state.removeSpent id noteIds retries again removed
          reply).lifecycle.store = state.lifecycle.store := by
    intro noteIds retries again removed reply
    unfold removeSpent
    split
    · exact Or.inl ⟨id, noteIds, rfl⟩
    · split
      · exact Or.inr rfl
      · exact Or.inr rfl
  cases action with
  | lifecycle step =>
      simp only [next] at hnext
      obtain ⟨lifecycle, hstep, hafter⟩ := Option.bind_eq_some_iff.mp hnext
      cases hafter
      exact Or.inr (Or.inl ⟨step, rfl, hstep⟩)
  | sweepOther other noteIds =>
      simp only [next] at hnext
      split at hnext
      · cases hnext
      · cases hnext
        exact Or.inl ⟨other, noteIds, rfl⟩
  | enter reply =>
      simp only [next] at hnext
      split at hnext
      · split at hnext
        · cases hnext
          exact Or.inr (Or.inr rfl)
        · cases hnext
          exact Or.inr (Or.inr rfl)
      · split at hnext
        · cases hnext
          exact Or.inr (Or.inr rfl)
        · cases hnext
          exact Or.inr (Or.inr rfl)
      · cases hnext
  | readNotes reply =>
      simp only [next] at hnext
      split at hnext
      · cases hnext
        unfold readNotes
        split
        · exact Or.inr (Or.inr rfl)
        · split
          · exact Or.inr (Or.inr rfl)
          · exact Or.inr (Or.inr rfl)
      · cases hnext
  | nullifierSpent reply =>
      simp only [next] at hnext
      split at hnext
      · unfold nullifierSpent at hnext
        split at hnext
        · cases hnext
          exact Or.inr (Or.inr rfl)
        · cases hnext
          exact Or.inr (Or.inr rfl)
        · split at hnext
          · cases hnext
            exact Or.inr (Or.inr rfl)
          · cases hnext
      · cases hnext
  | removeSpent reply =>
      simp only [next] at hnext
      split at hnext
      · cases hnext
        exact hremove.imp_right Or.inr
      · cases hnext
        exact hremove.imp_right Or.inr
      · cases hnext
  | awaitCommitment reply =>
      simp only [next] at hnext
      split at hnext
      · cases hnext
        exact Or.inr (Or.inr rfl)
      · cases hnext
        exact Or.inr (Or.inr rfl)
      · cases hnext
  | withdrawChunk =>
      simp only [next] at hnext
      split at hnext
      · cases hnext
        exact Or.inr (Or.inr rfl)
      · cases hnext
  | withdrawFails message landed beforeDeadline =>
      simp only [next] at hnext
      split at hnext
      · cases hnext
        unfold withdrawFails
        cases landed with
        | true =>
            dsimp only
            split
            · exact Or.inr (Or.inr rfl)
            · exact Or.inr (Or.inr rfl)
        | false =>
            dsimp only
            split
            · exact Or.inr (Or.inr rfl)
            · exact Or.inr (Or.inr rfl)
      · cases hnext
  | withdrawn =>
      simp only [next] at hnext
      split at hnext
      · cases hnext
        exact Or.inr (Or.inr rfl)
      · cases hnext
  | removeScanSecret =>
      simp only [next] at hnext
      split at hnext
      · cases hnext
        exact Or.inr (Or.inr rfl)
      · cases hnext

theorem next_eachRecord
    {Holds : Field → DetectedCurvyNote Id Addr Note → Prop}
    (hholds : ∀ candidate (watched : List (WatchedAllocation Id Addr Secret))
      noteId detected,
      detector.detectOwnedNote candidate watched = .ok (some detected) →
      detector.parseNoteId candidate.noteId = .ok noteId →
        Holds noteId detected)
    (heach : state.lifecycle.store.EachRecord Holds)
    (hnext : state.next detector amountIsZero id action = some after) :
    after.lifecycle.store.EachRecord Holds := by
  rcases next_store hnext with
    ⟨owner, noteIds, hstore⟩ | ⟨step, _, hstep⟩ | hstore
  · rw [hstore]
    exact CurvyDepositState.removeSpentNotes_eachRecord heach
  · exact LifecycleState.next_eachRecord hholds hstep heach
  · rw [hstore]
    exact heach

theorem next_detected
    (hamount : CurvyDepositState.AmountKnown detector amountIsZero)
    (hdetected : state.lifecycle.store.Detected detector amountIsZero)
    (hnext : state.next detector amountIsZero id action = some after) :
    after.lifecycle.store.Detected detector amountIsZero :=
  next_eachRecord
    (fun _ _ _ _ hdetect hparse =>
      CurvyNoteDetector.detectOwnedNote_known hamount hdetect hparse)
    hdetected hnext

end SweepState

end HoprStrategy.Curvy
