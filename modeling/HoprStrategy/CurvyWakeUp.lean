import HoprStrategy.CurvyCatchUp
import HoprStrategy.CurvyWaiters

/-!
# No waiter is left behind

A waiter whose amount is committed is owed a notification.  The pass which
records the completion delivers it, or else a replay is still to come which
reads the completion again.
-/

namespace HoprStrategy.Curvy

open Library

variable {Id Addr Secret Field Owner Note : Type}
  [DecidableEq Id] [DecidableEq Addr] [DecidableEq Secret] [DecidableEq Field]

section

variable (detector : CurvyNoteDetector Addr Secret Field Owner Note)
  (registered : Set (WatchedAllocation Id Addr Secret))

/-- Every record is attributed to its allocation, which recomputes its id. -/
def CurvyDepositState.OwnedSoundly
    (store : CurvyDepositState Id Addr Field Note) : Prop :=
  ∀ id key record, store.ownedNotes.lookup (id, key) = some record →
    store.noteSessions.lookup key = some id ∧
      record.detected.deposit.id = id ∧
      detector.Recomputes registered id key

/-- The event completes a note which is recorded as committed for `id`. -/
def CompletesFor (store : CurvyDepositState Id Addr Field Note) (id : Id)
    (completion : CurvyCommittedNote) : Prop :=
  ∃ key, store.RecordedCommitted id key ∧ Completes detector completion key

/-- Every committed note was completed by a final event. -/
def CommittedByEvents (index : BlokliIndex)
    (store : CurvyDepositState Id Addr Field Note) : Prop :=
  ∀ id key, store.RecordedCommitted id key →
    ∃ completion ∈ index.committed, Completes detector completion key ∧
      completion.position.block ≤ index.indexedBlock - index.finality

/-- A final completion for `id` is still to be read. -/
def Ahead (index : BlokliIndex) (store : CurvyDepositState Id Addr Field Note)
    (id : Id) (pass : CommittedPass) : Prop :=
  ∃ completion ∈ index.committed,
    CompletesFor detector store id completion ∧
      completion.position.block ≤ pass.finalizedThrough ∧
      Later pass.committedAfter completion.position

/-- It is among the notes at hand, or after them if the page was full. -/
def AheadIn (index : BlokliIndex)
    (store : CurvyDepositState Id Addr Field Note) (id : Id)
    (pass : CommittedPass) (notes : List CurvyCommittedNote) (pageLen : ℕ) :
    Prop :=
  ∃ completion ∈ index.committed,
    CompletesFor detector store id completion ∧
      completion.position.block ≤ pass.finalizedThrough ∧
      Later pass.committedAfter completion.position ∧
      (completion ∈ notes ∨ queryPageSize ≤ pageLen ∧
        ∀ note ∈ notes, note.position < completion.position)

/-- The pass is a replay which reads a completion for `id` again, or a replay
is asked for after a pass which failed. -/
def CatchUp.Revisits (index : BlokliIndex)
    (store : CurvyDepositState Id Addr Field Note) (replayHistory : Bool)
    (completed : Bool) (id : Id) : CatchUp → Prop
  | .idle => replayHistory = true ∧ completed = false
  | .requestPending replay _ => replay = true
  | .candidates replay _ _ _ => replay = true
  | .readHead replay _ => replay = true
  | .requestCommitted pass =>
      pass.replay = true ∧ Ahead detector index store id pass
  | .requestCandidates pass page =>
      pass.replay = true ∧
        AheadIn detector index store id pass page page.length
  | .discoveries pass page _ =>
      pass.replay = true ∧
        AheadIn detector index store id pass page page.length
  | .completions pass notes pageLen =>
      pass.replay = true ∧ AheadIn detector index store id pass notes pageLen

/-- What the second half holds continues the log, up to a final block. -/
def CatchUp.PageRead (index : BlokliIndex) : CatchUp → Prop
  | .requestCommitted pass =>
      pass.finalizedThrough ≤ index.indexedBlock - index.finality
  | .requestCandidates pass page | .discoveries pass page _ =>
      pass.finalizedThrough ≤ index.indexedBlock - index.finality ∧
        Reading CurvyCommittedNote.position index.committed
          pass.committedAfter page
  | .completions pass notes _ =>
      pass.finalizedThrough ≤ index.indexedBlock - index.finality ∧
        Reading CurvyCommittedNote.position index.committed
          pass.committedAfter notes
  | _ => True

end

/-- The committed amount of the waiter's allocation has reached its minimum. -/
def DepositWaiter.Owed (store : CurvyDepositState Id Addr Field Note)
    (waiter : DepositWaiter Id Addr Secret) : Prop :=
  waiter.canceled = false ∧
    ∃ committed, store.committedAmount waiter.allocation.id = .ok committed ∧
      waiter.minimum ≤ committed

namespace TrackerState

variable (detector : CurvyNoteDetector Addr Secret Field Owner Note)
  (registered : Set (WatchedAllocation Id Addr Secret))

/-- The waiters of `id` are notified next, or the pass comes back to them. -/
def Covered (state : TrackerState Id Addr Secret Field Note) (id : Id) :
    Prop :=
  (∃ committed, state.recorded = some (id, committed)) ∨
    state.lifecycle.pass.Revisits detector state.lifecycle.index
      state.lifecycle.store state.lifecycle.replayHistory state.completed id

structure Invariant (state : TrackerState Id Addr Secret Field Note) :
    Prop where
  sorted : Chronological CurvyCommittedNote.position
    state.lifecycle.index.committed
  owned : state.lifecycle.store.OwnedSoundly detector registered
  byEvents : CommittedByEvents detector state.lifecycle.index
    state.lifecycle.store
  pageRead : state.lifecycle.pass.PageRead state.lifecycle.index
  known : ∀ waiter, waiter ∈ state.waiters ∨ waiter ∈ state.registering →
    waiter.allocation ∈ registered ∧ 0 < waiter.minimum.wei
  recordedPass : state.recorded ≠ none →
    ∃ pass notes pageLen, state.lifecycle.pass = .completions pass notes pageLen
  amountRead : ∀ id committed, state.recorded = some (id, some committed) →
    state.lifecycle.store.committedAmount id = .ok committed
  owed : ∀ waiter ∈ state.waiters, waiter.Owed state.lifecycle.store →
    state.Covered detector waiter.allocation.id
  locked : ∀ waiter ∈ state.registering, waiter.Owed state.lifecycle.store →
    (∃ committed, state.recorded = some (waiter.allocation.id, committed)) ∨
      state.lifecycle.pass = .idle ∧ state.completed = false

end TrackerState

section Store

omit [DecidableEq Addr] [DecidableEq Secret]

variable {detector : CurvyNoteDetector Addr Secret Field Owner Note}
  {registered : Set (WatchedAllocation Id Addr Secret)}
  {index : BlokliIndex} {store stored : CurvyDepositState Id Addr Field Note}
  {watched : List (WatchedAllocation Id Addr Secret)}

/-! ## The store -/

theorem OwnedSoundly.attributed {id : Id} {key : Field}
    (howned : store.OwnedSoundly detector registered)
    (hrecorded : store.RecordedCommitted id key) : store.Attributed id key := by
  obtain ⟨record, hlookup, _⟩ := hrecorded
  refine ⟨(howned id key record hlookup).1, ?_⟩
  rw [hlookup]
  rfl

theorem recordOwnedCandidate_ownedSoundly (hsound : detector.Sound registered)
    {key : Field} {note : DetectedCurvyNote Id Addr Note}
    {cursor : CurvyEventCursor}
    (howned : store.OwnedSoundly detector registered)
    (hrecomputes : detector.Recomputes registered note.deposit.id key) :
    (store.recordOwnedCandidate key note cursor).OwnedSoundly detector
      registered := by
  intro id other record hlookup
  by_cases hkey : (id, other) = (note.deposit.id, key)
  · cases hkey
    have hsession : AList.lookup key
        (store.recordOwnedCandidate key note cursor).noteSessions =
          some note.deposit.id := AList.lookup_insert _
    refine ⟨hsession, ?_, hrecomputes⟩
    unfold CurvyDepositState.recordOwnedCandidate at hlookup
    simp only at hlookup
    split at hlookup
    · rw [AList.lookup_insert, Option.some.injEq] at hlookup
      rw [← hlookup]
      rfl
    · exact (howned _ _ _ hlookup).2.1
  · have hold : store.ownedNotes.lookup (id, other) = some record := by
      unfold CurvyDepositState.recordOwnedCandidate at hlookup
      simp only at hlookup
      split at hlookup
      · rw [AList.lookup_insert_ne hkey] at hlookup
        exact hlookup
      · exact hlookup
    obtain ⟨hsession, hid, hrecomputed⟩ := howned id other record hold
    refine ⟨?_, hid, hrecomputed⟩
    by_cases hsame : other = key
    · subst hsame
      have heq := CurvyNoteDetector.Recomputes.unique hsound hrecomputed
        hrecomputes
      exact absurd (by rw [heq]) hkey
    · exact (AList.lookup_insert_ne hsame).trans hsession

/-- No discovery changes an amount or a committed note. -/
structure Discovers (store stored : CurvyDepositState Id Addr Field Note) :
    Prop where
  amount : ∀ id, stored.committedAmount id = store.committedAmount id
  recorded : ∀ id key, stored.RecordedCommitted id key ↔
    store.RecordedCommitted id key

theorem recordOwnedCandidate_discovers {key : Field}
    {note : DetectedCurvyNote Id Addr Note} {cursor : CurvyEventCursor} :
    Discovers store (store.recordOwnedCandidate key note cursor) := by
  constructor
  · intro id
    exact CurvyDepositState.recordOwnedCandidate_amount note
  · intro id other
    constructor
    · intro hrecorded
      obtain ⟨record, hlookup, hcommitted⟩ := hrecorded
      unfold CurvyDepositState.recordOwnedCandidate at hlookup
      simp only at hlookup
      split at hlookup
      · by_cases hkey : (id, other) = (note.deposit.id, key)
        · rw [hkey, AList.lookup_insert, Option.some.injEq] at hlookup
          rw [← hlookup] at hcommitted
          cases hcommitted
        · rw [AList.lookup_insert_ne hkey] at hlookup
          exact ⟨record, hlookup, hcommitted⟩
      · exact ⟨record, hlookup, hcommitted⟩
    · exact CurvyDepositState.recordOwnedCandidate_recorded

theorem processCandidate_discovers {candidate : CurvyPendingNote}
    {watching : Bool}
    (hprocess : store.processCandidate detector watched candidate =
      .ok (stored, watching)) : Discovers store stored := by
  rcases processCandidate_cases hprocess with
    ⟨_, _, rfl⟩ | ⟨_, rfl⟩ | ⟨key, note, _, _, _, rfl⟩
  · exact ⟨fun _ => rfl, fun _ _ => Iff.rfl⟩
  · exact ⟨fun _ => rfl, fun _ _ => Iff.rfl⟩
  · exact recordOwnedCandidate_discovers

theorem processCandidate_ownedSoundly (hsound : detector.Sound registered)
    {candidate : CurvyPendingNote} {watching : Bool}
    (hregistered : ∀ other ∈ watched, other ∈ registered)
    (howned : store.OwnedSoundly detector registered)
    (hprocess : store.processCandidate detector watched candidate =
      .ok (stored, watching)) : stored.OwnedSoundly detector registered := by
  rcases processCandidate_cases hprocess with
    ⟨_, _, rfl⟩ | ⟨_, rfl⟩ | ⟨key, note, _, hdetect, hkey, rfl⟩
  · exact howned
  · exact howned
  · obtain ⟨recomputed, hparse, hrecomputes⟩ :=
      CurvyNoteDetector.recomputes_of_detected hregistered hdetect
    rw [hkey, Except.ok.injEq] at hparse
    subst hparse
    exact recordOwnedCandidate_ownedSoundly hsound howned hrecomputes

theorem Discovers.owed {waiter : DepositWaiter Id Addr Secret}
    (hdiscovers : Discovers store stored) (howed : waiter.Owed stored) :
    waiter.Owed store := by
  obtain ⟨hlive, committed, hamount, hle⟩ := howed
  rw [hdiscovers.amount] at hamount
  exact ⟨hlive, committed, hamount, hle⟩

theorem Discovers.byEvents (hdiscovers : Discovers store stored)
    (hevents : CommittedByEvents detector index store) :
    CommittedByEvents detector index stored := by
  intro id key hrecorded
  exact hevents id key ((hdiscovers.recorded id key).mp hrecorded)

theorem Discovers.completesFor {id : Id} {completion : CurvyCommittedNote}
    (hdiscovers : Discovers store stored)
    (hcompletes : CompletesFor detector store id completion) :
    CompletesFor detector stored id completion := by
  obtain ⟨key, hrecorded, hevent⟩ := hcompletes
  exact ⟨key, (hdiscovers.recorded id key).mpr hrecorded, hevent⟩

section WriteCompletion

variable {completion : CurvyCommittedNote} {owner : Option Id}

theorem writeCompletion_ownedSoundly
    (howned : store.OwnedSoundly detector registered)
    (hwrite : store.writeCompletion detector completion =
      .ok (stored, owner)) : stored.OwnedSoundly detector registered := by
  rcases writeCompletion_cases hwrite with
    ⟨_, rfl, _⟩ | ⟨id, key, record, leafIndex, _, _, _, hlookup, _, rfl⟩
  · exact howned
  · intro other key' record' hlookup'
    by_cases hkey : (other, key') = (id, key)
    · cases hkey
      have hnew : record' = ⟨record.detected, true, leafIndex⟩ := by
        simp only [AList.lookup_insert, Option.some.injEq] at hlookup'
        exact hlookup'.symm
      rw [hnew]
      exact howned id key record hlookup
    · simp only [AList.lookup_insert_ne hkey] at hlookup'
      exact howned other key' record' hlookup'

theorem writeCompletion_recorded {id : Id} {key : Field}
    (hwrite : store.writeCompletion detector completion =
      .ok (stored, owner))
    (hrecorded : store.RecordedCommitted id key) :
    stored.RecordedCommitted id key := by
  rcases writeCompletion_cases hwrite with
    ⟨_, rfl, _⟩ | ⟨other, key', record, leafIndex, _, _, _, _, _, rfl⟩
  · exact hrecorded
  · obtain ⟨record', hlookup, hcommitted⟩ := hrecorded
    by_cases hkey : (id, key) = (other, key')
    · cases hkey
      exact ⟨_, AList.lookup_insert _, rfl⟩
    · exact ⟨record', (AList.lookup_insert_ne hkey).trans hlookup, hcommitted⟩

theorem writeCompletion_byEvents
    (hevents : CommittedByEvents detector index store)
    (hmem : completion ∈ index.committed)
    (hfinal : completion.position.block ≤
      index.indexedBlock - index.finality)
    (hwrite : store.writeCompletion detector completion =
      .ok (stored, owner)) : CommittedByEvents detector index stored := by
  rcases writeCompletion_cases hwrite with
    ⟨_, rfl, _⟩ | ⟨id, key, record, leafIndex, hcompletes, _, _, _, _, rfl⟩
  · exact hevents
  · intro other key' hrecorded
    by_cases hkey : (other, key') = (id, key)
    · cases hkey
      exact ⟨completion, hmem, hcompletes, hfinal⟩
    · obtain ⟨record', hlookup, hcommitted⟩ := hrecorded
      simp only [AList.lookup_insert_ne hkey] at hlookup
      exact hevents other key' ⟨record', hlookup, hcommitted⟩

/-- Only the owner's amount changes. -/
theorem writeCompletion_amount {id : Id}
    (howned : store.OwnedSoundly detector registered)
    (hwrite : store.writeCompletion detector completion =
      .ok (stored, owner)) (hne : owner ≠ some id) :
    stored.committedAmount id = store.committedAmount id := by
  rcases writeCompletion_cases hwrite with
    ⟨_, rfl, _⟩ | ⟨other, key, record, leafIndex, _, _, _, hlookup, rfl, rfl⟩
  · rfl
  · rw [(howned other key record hlookup).2.1] at hne
    apply CurvyDepositState.committedAmount_congr
    apply CurvyDepositState.sessionRecords_insert_ne rfl
    intro heq
    exact hne (congrArg some heq)

/-- The completion of a note which is recorded as committed finds its owner
again. -/
theorem writeCompletion_owner {id : Id}
    (howned : store.OwnedSoundly detector registered)
    (hwrite : store.writeCompletion detector completion =
      .ok (stored, owner))
    (hcompletes : CompletesFor detector store id completion) :
    owner = some id := by
  obtain ⟨key, hrecorded, hevent⟩ := hcompletes
  have hattributed := OwnedSoundly.attributed howned hrecorded
  rcases writeCompletion_cases hwrite with
    ⟨_, _, hnone⟩ | ⟨other, key', record, _, hevent', _, hsession, hlookup, rfl, _⟩
  · exact absurd hattributed (hnone id key hevent)
  · have hkey := hevent.2.symm.trans hevent'.2
    rw [Except.ok.injEq] at hkey
    subst hkey
    have hsame := hattributed.1.symm.trans hsession
    rw [Option.some.injEq] at hsame
    rw [(howned other key record hlookup).2.1, hsame]

end WriteCompletion

/-! ## The completions which are still to be read -/

variable {id : Id} {pass : CommittedPass}

/-- A page holds the completion, or is full and stops before it. -/
theorem Ahead.page
    (hsorted : Chronological CurvyCommittedNote.position index.committed)
    (hahead : Ahead detector index store id pass) :
    AheadIn detector index store id pass
      (index.committedNotes pass.committedAfter queryPageSize)
      (index.committedNotes pass.committedAfter queryPageSize).length := by
  obtain ⟨completion, hmem, hcompletes, hfinal, hlater⟩ := hahead
  refine ⟨completion, hmem, hcompletes, hfinal, hlater, ?_⟩
  have hrest : completion ∈
      eventsAfter CurvyCommittedNote.position index.committed
        pass.committedAfter :=
    List.mem_filter.mpr ⟨hmem, by simpa using hlater⟩
  have hchron : (eventsAfter CurvyCommittedNote.position index.committed
      pass.committedAfter).Pairwise
        fun earlier later => earlier.position < later.position :=
    List.Pairwise.sublist List.filter_sublist hsorted
  unfold BlokliIndex.committedNotes eventPage
  rw [← List.take_append_drop queryPageSize (eventsAfter _ _ _),
    List.mem_append] at hrest
  rcases hrest with hpage | hbeyond
  · exact Or.inl hpage
  · right
    constructor
    · by_contra hshort
      have hlength : (eventsAfter CurvyCommittedNote.position index.committed
          pass.committedAfter).length ≤ queryPageSize := by
        rw [List.length_take] at hshort
        omega
      rw [List.drop_eq_nil_of_le hlength] at hbeyond
      cases hbeyond
    · intro note hnote
      rw [← List.take_append_drop queryPageSize (eventsAfter _ _ _)] at hchron
      exact (List.pairwise_append.mp hchron).2.2 note hnote completion hbeyond

/-- A pass which ends has nothing ahead. -/
theorem AheadIn.not_short {pageLen : ℕ}
    (hahead : AheadIn detector index store id pass [] pageLen) :
    queryPageSize ≤ pageLen ∧ Ahead detector index store id pass := by
  obtain ⟨completion, hmem, hcompletes, hfinal, hlater, hwhere⟩ := hahead
  rcases hwhere with hnil | hfull
  · cases hnil
  · exact ⟨hfull.1, completion, hmem, hcompletes, hfinal, hlater⟩

section NextNote

variable {note : CurvyCommittedNote} {notes : List CurvyCommittedNote}
  {pageLen : ℕ}

/-- The next note is the completion, or stands before it. -/
theorem AheadIn.next
    (hsorted : Chronological CurvyCommittedNote.position index.committed)
    (hreading : Reading CurvyCommittedNote.position index.committed
      pass.committedAfter (note :: notes))
    (hahead : AheadIn detector index store id pass (note :: notes) pageLen) :
    note.position.block ≤ pass.finalizedThrough ∧
      (CompletesFor detector store id note ∨
        AheadIn detector index store id
          { pass with committedAfter := some note.position } notes pageLen) := by
  obtain ⟨completion, hmem, hcompletes, hfinal, hlater, hwhere⟩ := hahead
  have hrest := (hreading.advance hsorted).1
  by_cases heq : completion = note
  · rw [← heq]
    exact ⟨hfinal, Or.inl hcompletes⟩
  · have hlt : note.position < completion.position ∧
        (completion ∈ notes ∨ queryPageSize ≤ pageLen ∧
          ∀ other ∈ notes, other.position < completion.position) := by
      rcases hwhere with hin | ⟨hfull, hall⟩
      · rcases List.mem_cons.mp hin with hhead | htail
        · exact absurd hhead heq
        · have hafter := hrest.later htail
          rw [later_some] at hafter
          exact ⟨hafter, Or.inl htail⟩
      · refine ⟨hall note List.mem_cons_self, Or.inr ⟨hfull, ?_⟩⟩
        intro other hother
        exact hall other (List.mem_cons_of_mem note hother)
    constructor
    · exact le_trans (CurvyEventCursor.block_le_of_lt hlt.1) hfinal
    · exact Or.inr ⟨completion, hmem, hcompletes, hfinal,
        (later_some _ _).mpr hlt.1, hlt.2⟩

theorem AheadIn.mono (hahead : AheadIn detector index store id pass notes
      pageLen)
    (hkeeps : ∀ completion, CompletesFor detector store id completion →
      CompletesFor detector stored id completion) :
    AheadIn detector index stored id pass notes pageLen := by
  obtain ⟨completion, hmem, hcompletes, hrest⟩ := hahead
  exact ⟨completion, hmem, hkeeps completion hcompletes, hrest⟩

end NextNote

end Store

/-! ## Steps which are not the pass's -/

section Passes

omit [DecidableEq Addr] [DecidableEq Secret]

variable {detector : CurvyNoteDetector Addr Secret Field Owner Note}
  {index : BlokliIndex} {store : CurvyDepositState Id Addr Field Note}
  {replayHistory completed : Bool} {id : Id} {pass : CatchUp}

/-- Where the pass fails, a replay is asked for. -/
theorem CatchUp.Revisits.replay
    (hrevisits : pass.Revisits detector index store replayHistory completed
      id) : (replayHistory || pass.replay) = true := by
  cases pass with
  | idle => exact Bool.or_eq_true _ _ ▸ Or.inl hrevisits.1
  | requestPending replay after =>
      exact Bool.or_eq_true _ _ ▸ Or.inr hrevisits
  | candidates replay after notes hasMore =>
      exact Bool.or_eq_true _ _ ▸ Or.inr hrevisits
  | readHead replay after => exact Bool.or_eq_true _ _ ▸ Or.inr hrevisits
  | requestCommitted pass => exact Bool.or_eq_true _ _ ▸ Or.inr hrevisits.1
  | requestCandidates pass page =>
      exact Bool.or_eq_true _ _ ▸ Or.inr hrevisits.1
  | discoveries pass page found =>
      exact Bool.or_eq_true _ _ ▸ Or.inr hrevisits.1
  | completions pass notes pageLen =>
      exact Bool.or_eq_true _ _ ▸ Or.inr hrevisits.1

/-- A registration asks for a replay. -/
theorem CatchUp.Revisits.asked
    (hrevisits : pass.Revisits detector index store replayHistory completed
      id) : pass.Revisits detector index store true completed id := by
  cases pass with
  | idle => exact ⟨rfl, hrevisits.2⟩
  | _ => exact hrevisits

variable {announced : List CurvyPendingNote}
  {grown : List CurvyCommittedNote} {indexedBlock : ℕ}

theorem AheadIn.grow {pass : CommittedPass}
    {notes : List CurvyCommittedNote} {pageLen : ℕ}
    (hahead : AheadIn detector index store id pass notes pageLen) :
    AheadIn detector (index.grown announced grown indexedBlock) store id pass
      notes pageLen := by
  obtain ⟨completion, hmem, hrest⟩ := hahead
  exact ⟨completion, List.mem_append_left _ hmem, hrest⟩

theorem CatchUp.Revisits.grow
    (hrevisits : pass.Revisits detector index store replayHistory completed
      id) :
    pass.Revisits detector (index.grown announced grown indexedBlock) store
      replayHistory completed id := by
  cases pass with
  | requestCommitted pass =>
      obtain ⟨hreplay, completion, hmem, hrest⟩ := hrevisits
      exact ⟨hreplay, completion, List.mem_append_left _ hmem, hrest⟩
  | requestCandidates pass page => exact ⟨hrevisits.1, hrevisits.2.grow⟩
  | discoveries pass page found => exact ⟨hrevisits.1, hrevisits.2.grow⟩
  | completions pass notes pageLen => exact ⟨hrevisits.1, hrevisits.2.grow⟩
  | _ => exact hrevisits

theorem CatchUp.PageRead.grow (hle : index.indexedBlock ≤ indexedBlock)
    (hread : pass.PageRead index) :
    pass.PageRead (index.grown announced grown indexedBlock) := by
  have hfinal : index.indexedBlock - index.finality ≤
      indexedBlock - index.finality := by omega
  cases pass with
  | requestCommitted pass => exact le_trans hread hfinal
  | requestCandidates pass page =>
      exact ⟨le_trans hread.1 hfinal, hread.2.grow⟩
  | discoveries pass page found =>
      exact ⟨le_trans hread.1 hfinal, hread.2.grow⟩
  | completions pass notes pageLen =>
      exact ⟨le_trans hread.1 hfinal, hread.2.grow⟩
  | _ => trivial

end Passes

namespace TrackerState

variable {detector : CurvyNoteDetector Addr Secret Field Owner Note}
  {registered : Set (WatchedAllocation Id Addr Secret)}
  {state after : TrackerState Id Addr Secret Field Note}

/-- A waiter of the allocation is owed a notification. -/
def Owes (state : TrackerState Id Addr Secret Field Note) (id : Id) : Prop :=
  ∃ waiter ∈ state.waiters, waiter.allocation.id = id ∧
    waiter.Owed state.lifecycle.store

/-- The pass is not interrupted between the record of a completion and the
notification which it owes, unless it is a replay or one is asked for. -/
structure ReadsAnswered (registered : Set (WatchedAllocation Id Addr Secret))
    (state : TrackerState Id Addr Secret Field Note)
    (action : TrackerAction Id Addr Secret) : Prop where
  registered : ∀ allocation minimum, action = .watch allocation minimum →
    allocation ∈ registered
  answered : action = .interrupt → ∀ id committed,
    state.recorded = some (id, committed) → state.Owes id →
    (state.lifecycle.replayHistory || state.lifecycle.pass.replay) = true

omit [DecidableEq Addr] [DecidableEq Secret] in
theorem failed_invariant (hinv : state.Invariant detector registered)
    (hcovered : ∀ id committed, state.recorded = some (id, committed) →
      state.Owes id →
      (state.lifecycle.replayHistory || state.lifecycle.pass.replay) = true) :
    state.failed.Invariant detector registered where
  sorted := hinv.sorted
  owned := hinv.owned
  byEvents := hinv.byEvents
  pageRead := trivial
  known := hinv.known
  recordedPass := fun hnone => absurd rfl hnone
  amountRead := by
    intro id committed hrecorded
    cases hrecorded
  owed := by
    intro waiter hmem howed
    right
    refine ⟨?_, rfl⟩
    rcases hinv.owed waiter hmem howed with ⟨committed, hrecorded⟩ | hrevisits
    · exact hcovered _ committed hrecorded ⟨waiter, hmem, rfl, howed⟩
    · exact hrevisits.replay
  locked := by
    intro waiter _ _
    exact Or.inr ⟨rfl, rfl⟩

omit [DecidableEq Addr] [DecidableEq Secret] in
theorem grow_invariant {announced : List CurvyPendingNote}
    {grown : List CurvyCommittedNote} {indexedBlock : ℕ}
    (hgrows : state.lifecycle.index.Grows announced grown indexedBlock)
    (hinv : state.Invariant detector registered) :
    Invariant detector registered { state with
      lifecycle := { state.lifecycle with
        index := state.lifecycle.index.grown announced grown indexedBlock } }
    where
  sorted := hgrows.2.2.1
  owned := hinv.owned
  byEvents := by
    intro id key hrecorded
    obtain ⟨completion, hmem, hcompletes, hfinal⟩ :=
      hinv.byEvents id key hrecorded
    refine ⟨completion, List.mem_append_left _ hmem, hcompletes, ?_⟩
    have hle := hgrows.1
    show completion.position.block ≤
      indexedBlock - state.lifecycle.index.finality
    omega
  pageRead := hinv.pageRead.grow hgrows.1
  known := hinv.known
  recordedPass := hinv.recordedPass
  amountRead := hinv.amountRead
  owed := by
    intro waiter hmem howed
    rcases hinv.owed waiter hmem howed with hrecorded | hrevisits
    · exact Or.inl hrecorded
    · exact Or.inr hrevisits.grow
  locked := hinv.locked

omit [DecidableEq Addr] [DecidableEq Secret] in
theorem watch_invariant {allocation : WatchedAllocation Id Addr Secret}
    {minimum : HoprBalance} (hknown : allocation ∈ registered)
    (hinv : state.Invariant detector registered)
    (hwatch : state.watch detector allocation minimum = some after) :
    after.Invariant detector registered := by
  unfold watch at hwatch
  split at hwatch
  · cases hwatch
  · split at hwatch
    · cases hwatch
      exact hinv
    · split at hwatch
      · cases hwatch
        exact hinv
      · rename_i committed hcommitted
        split at hwatch
        · cases hwatch
          exact hinv
        · rename_i hbelow
          cases hwatch
          exact { hinv with
            known := by
              intro waiter hmem
              rcases hmem with hold | hnew
              · exact hinv.known waiter (Or.inl hold)
              · cases hnew
                refine ⟨hknown, ?_⟩
                have hlt : committed.wei < minimum.wei :=
                  Nat.lt_of_not_le hbelow
                exact Nat.lt_of_le_of_lt (Nat.zero_le _) hlt
            locked := by
              intro waiter hmem howed
              cases hmem
              obtain ⟨_, amount, hamount, hle⟩ := howed
              rw [hcommitted, Except.ok.injEq] at hamount
              rw [← hamount] at hle
              exact absurd hle hbelow }

theorem insert_invariant {waiter : DepositWaiter Id Addr Secret}
    (hholder : state.registering = some waiter)
    (hinv : state.Invariant detector registered) :
    (state.insert waiter).Invariant detector registered := by
  have hwaiter : waiter ∈ state.registering := hholder
  unfold insert
  split
  · exact { hinv with
      known := by
        intro other hmem
        rcases hmem with hold | hnone
        · exact hinv.known other (Or.inl hold)
        · cases hnone
      locked := by
        intro other hmem
        cases hmem }
  · exact { hinv with
      known := by
        intro other hmem
        rcases hmem with hold | hnone
        · rcases List.mem_append.mp hold with hbefore | hnew
          · exact hinv.known other (Or.inl hbefore)
          · rw [List.mem_singleton.mp hnew]
            exact hinv.known waiter (Or.inr hwaiter)
        · cases hnone
      owed := by
        intro other hmem howed
        rcases List.mem_append.mp hmem with hbefore | hnew
        · rcases hinv.owed other hbefore howed with hrecorded | hrevisits
          · exact Or.inl hrecorded
          · exact Or.inr hrevisits.asked
        · rw [List.mem_singleton.mp hnew] at howed ⊢
          rcases hinv.locked waiter hwaiter howed with hrecorded | ⟨hidle, hfailed⟩
          · exact Or.inl hrecorded
          · right
            show CatchUp.Revisits detector _ _ true state.completed _
              state.lifecycle.pass
            rw [hidle]
            exact ⟨rfl, hfailed⟩
      locked := by
        intro other hmem
        cases hmem }

omit [DecidableEq Addr] [DecidableEq Secret] in
theorem cancel_invariant (index : ℕ)
    (hinv : state.Invariant detector registered) :
    (state.cancel index).Invariant detector registered := by
  have hmodified : ∀ waiter ∈ (state.cancel index).waiters,
      waiter ∈ state.waiters ∨ ∃ old ∈ state.waiters,
        waiter = { old with canceled := true } := by
    intro waiter hmem
    obtain ⟨position, hposition, hget⟩ := List.getElem_of_mem hmem
    simp only [cancel] at hget hposition
    rw [List.getElem_modify] at hget
    rw [List.length_modify] at hposition
    split at hget
    · exact Or.inr ⟨_, List.getElem_mem hposition, hget.symm⟩
    · rw [← hget]
      exact Or.inl (List.getElem_mem hposition)
  exact { hinv with
    known := by
      intro waiter hmem
      rcases hmem with hin | hholder
      · rcases hmodified waiter hin with hold | ⟨old, hold, rfl⟩
        · exact hinv.known waiter (Or.inl hold)
        · exact hinv.known old (Or.inl hold)
      · exact hinv.known waiter (Or.inr hholder)
    owed := by
      intro waiter hmem howed
      rcases hmodified waiter hmem with hold | ⟨old, hold, rfl⟩
      · exact hinv.owed waiter hold howed
      · exact absurd howed.1 (by simp) }

theorem readAmount_invariant (hinv : state.Invariant detector registered)
    (hnext : next detector state .readAmount = some after) :
    after.Invariant detector registered := by
  simp only [next] at hnext
  split at hnext
  · rename_i id hrecorded
    split at hnext
    · rename_i error hfails
      cases hnext
      apply failed_invariant hinv
      intro other committed hother howes
      rw [hrecorded] at hother
      cases hother
      obtain ⟨waiter, _, rfl, _, amount, hamount, _⟩ := howes
      rw [hfails] at hamount
      cases hamount
    · rename_i amount hamount
      cases hnext
      exact { hinv with
        recordedPass := fun _ => hinv.recordedPass (by rw [hrecorded]; simp)
        amountRead := by
          intro other committed hother
          cases hother
          exact hamount
        owed := by
          intro waiter hmem howed
          rcases hinv.owed waiter hmem howed with ⟨committed, hold⟩ | hrevisits
          · rw [hrecorded] at hold
            cases hold
            exact Or.inl ⟨some amount, rfl⟩
          · exact Or.inr hrevisits
        locked := by
          intro waiter hmem howed
          rcases hinv.locked waiter hmem howed with ⟨committed, hold⟩ | hidle
          · rw [hrecorded] at hold
            cases hold
            exact Or.inl ⟨some amount, rfl⟩
          · exact Or.inr hidle }
  · cases hnext

/-- Who is left after a notification is owed nothing by it. -/
theorem notify_invariant (hinv : state.Invariant detector registered)
    (hnext : next detector state .notify = some after) :
    after.Invariant detector registered := by
  simp only [next] at hnext
  split at hnext
  · rename_i id committed hrecorded hholder
    cases hnext
    have hkept : ∀ waiter ∈ notifyWaiters id committed state.waiters,
        waiter ∈ state.waiters ∧ (waiter.allocation.id ≠ id ∨
          ¬ waiter.minimum ≤ committed ∧ waiter.canceled = false) := by
      intro waiter hmem
      have hfilter := List.mem_filter.mp hmem
      exact ⟨hfilter.1, of_decide_eq_true hfilter.2⟩
    exact { hinv with
      known := by
        intro waiter hmem
        rcases hmem with hin | hlocked
        · exact hinv.known waiter (Or.inl (hkept waiter hin).1)
        · exact hinv.known waiter (Or.inr hlocked)
      recordedPass := fun hnone => absurd rfl hnone
      amountRead := by
        intro other amount hother
        cases hother
      owed := by
        intro waiter hmem howed
        obtain ⟨hold, hwhy⟩ := hkept waiter hmem
        rcases hinv.owed waiter hold howed with ⟨read, hread⟩ | hrevisits
        · rw [hrecorded] at hread
          cases hread
          obtain ⟨_, amount, hamount, hle⟩ := howed
          have hsame := hinv.amountRead _ _ hrecorded
          rw [hamount, Except.ok.injEq] at hsame
          rcases hwhy with hne | ⟨hbelow, _⟩
          · exact absurd rfl hne
          · rw [hsame] at hle
            exact absurd hle hbelow
        · exact Or.inr hrevisits
      locked := by
        intro waiter hmem
        rw [hholder] at hmem
        cases hmem }
  · cases hnext

/-! ## The steps of a pass -/

/-- Asking who is watched only drops waiters who have gone. -/
theorem watchedAllocations_invariant
    {watched : List (WatchedAllocation Id Addr Secret)}
    (hinv : state.Invariant detector registered)
    (hasked : state.watchedAllocations watched = some after) :
    after.Invariant detector registered ∧ state.registering = none ∧
      after = { state with
        waiters := state.live
        lifecycle := { state.lifecycle with watched := watched } } ∧
      (∀ other ∈ watched, other ∈ registered) ∧
      (watched = [] → ∀ waiter ∈ after.waiters, waiter.canceled = true) := by
  unfold watchedAllocations at hasked
  split at hasked
  · cases hasked
  · rename_i hfree
    split at hasked
    · rename_i hperm
      cases hasked
      have hlive : ∀ waiter ∈ state.live, waiter ∈ state.waiters :=
        fun waiter hmem => (List.mem_filter.mp hmem).1
      refine ⟨?_, hfree, rfl, ?_, ?_⟩
      · exact { hinv with
          known := by
            intro waiter hmem
            rcases hmem with hin | hlocked
            · exact hinv.known waiter (Or.inl (hlive waiter hin))
            · exact hinv.known waiter (Or.inr hlocked)
          owed := by
            intro waiter hmem howed
            exact hinv.owed waiter (hlive waiter hmem) howed }
      · intro other hmem
        have hmapped := List.mem_dedup.mp (hperm.subset hmem)
        obtain ⟨waiter, hin, rfl⟩ := List.mem_map.mp hmapped
        exact (hinv.known waiter (Or.inl (hlive waiter hin))).1
      · intro hnil waiter hmem
        have hmapped : waiter.allocation ∈
            (state.live.map (·.allocation)).dedup :=
          List.mem_dedup.mpr (List.mem_map_of_mem hmem)
        rw [hnil] at hperm
        rw [List.nil_perm.mp hperm] at hmapped
        cases hmapped
    · cases hasked

omit [DecidableEq Addr] [DecidableEq Secret] in
/-- A step of the pass which changes no amount. -/
theorem passed_invariant {lifecycle : LifecycleState Id Addr Secret Field Note}
    (hinv : state.Invariant detector registered)
    (hbusy : state.lifecycle.pass ≠ .idle) (hrecorded : state.recorded = none)
    (hindex : lifecycle.index = state.lifecycle.index)
    (howned : lifecycle.store.OwnedSoundly detector registered)
    (hdiscovers : Discovers state.lifecycle.store lifecycle.store)
    (hread : lifecycle.pass.PageRead state.lifecycle.index)
    (hrevisits : ∀ id, state.Owes id →
      state.lifecycle.pass.Revisits detector state.lifecycle.index
        state.lifecycle.store state.lifecycle.replayHistory state.completed
        id →
      lifecycle.pass ≠ .idle ∧ ∀ replayHistory completed,
        lifecycle.pass.Revisits detector state.lifecycle.index lifecycle.store
          replayHistory completed id) :
    (state.passed lifecycle).Invariant detector registered where
  sorted := by
    show Chronological _ lifecycle.index.committed
    rw [hindex]
    exact hinv.sorted
  owned := howned
  byEvents := by
    show CommittedByEvents detector lifecycle.index lifecycle.store
    rw [hindex]
    exact hdiscovers.byEvents hinv.byEvents
  pageRead := by
    show lifecycle.pass.PageRead lifecycle.index
    rw [hindex]
    exact hread
  known := hinv.known
  recordedPass := fun hsome => absurd hrecorded hsome
  amountRead := by
    intro id committed hread
    have hnone : state.recorded = some (id, some committed) := hread
    rw [hrecorded] at hnone
    cases hnone
  owed := by
    intro waiter hmem howed
    have hbefore := hdiscovers.owed howed
    right
    show CatchUp.Revisits detector lifecycle.index _ _ _ _ lifecycle.pass
    rw [hindex]
    rcases hinv.owed waiter hmem hbefore with ⟨committed, hsome⟩ | hrevisit
    · rw [hrecorded] at hsome
      cases hsome
    · exact (hrevisits _ ⟨waiter, hmem, rfl, hbefore⟩ hrevisit).2 _ _
  locked := by
    intro waiter hmem howed
    rcases hinv.locked waiter hmem (hdiscovers.owed howed) with
      ⟨committed, hsome⟩ | ⟨hidle, _⟩
    · rw [hrecorded] at hsome
      cases hsome
    · exact absurd hidle hbusy

theorem start_invariant {watched : List (WatchedAllocation Id Addr Secret)}
    (hinv : state.Invariant detector registered)
    (hnext : next detector state (.start watched) = some after) :
    after.Invariant detector registered := by
  simp only [next] at hnext
  obtain ⟨asked, hasked, hnext⟩ := Option.bind_eq_some_iff.mp hnext
  obtain ⟨lifecycle, hstart, hnext⟩ := Option.bind_eq_some_iff.mp hnext
  cases hnext
  obtain ⟨hasking, hfree, hform, _, _⟩ :=
    watchedAllocations_invariant hinv hasked
  have hregistering : asked.registering = none := by
    rw [hform]
    exact hfree
  simp only [LifecycleState.next] at hstart
  split at hstart
  · rename_i hidle
    have hrecorded : asked.recorded = none := by
      by_contra hsome
      obtain ⟨pass, notes, pageLen, hpass⟩ := hasking.recordedPass hsome
      rw [hidle] at hpass
      cases hpass
    split at hstart
    · cases hstart
    · cases hstart
      exact { hasking with
        pageRead := trivial
        recordedPass := fun hsome => absurd hrecorded hsome
        owed := by
          intro waiter hmem howed
          right
          rcases hasking.owed waiter hmem howed with ⟨_, hsome⟩ | hrevisits
          · rw [hrecorded] at hsome
            cases hsome
          · rw [hidle] at hrevisits
            exact hrevisits.1
        locked := by
          intro waiter hmem
          have hnone : waiter ∈ asked.registering := hmem
          rw [hregistering] at hnone
          cases hnone }
  · cases hstart

omit [DecidableEq Addr] [DecidableEq Secret] in
/-- A completion is recorded, and its waiters come next. -/
theorem complete_invariant {pass : CommittedPass} {note : CurvyCommittedNote}
    {notes : List CurvyCommittedNote} {pageLen : ℕ}
    (hinv : state.Invariant detector registered)
    (hrecorded : state.recorded = none)
    (hpass : state.lifecycle.pass =
      .completions pass (note :: notes) pageLen) :
    (state.complete detector pass note notes pageLen).Invariant detector
      registered := by
  have hread := hinv.pageRead
  rw [hpass] at hread
  have hbusy : state.lifecycle.pass ≠ .idle := by
    rw [hpass]
    intro heq
    cases heq
  unfold complete
  split
  · rename_i hunfinal
    apply passed_invariant hinv hbusy hrecorded
    · rfl
    · exact hinv.owned
    · exact ⟨fun _ => rfl, fun _ _ => Iff.rfl⟩
    · trivial
    · intro id _ hrevisits
      rw [hpass] at hrevisits
      have hnext := hrevisits.2.next hinv.sorted hread.2
      exact absurd hunfinal (Nat.not_lt.mpr hnext.1)
  · rename_i hfinal
    split
    · apply failed_invariant hinv
      intro id committed hsome
      rw [hrecorded] at hsome
      cases hsome
    · rename_i store owner hwrite
      have hmem : note ∈ state.lifecycle.index.committed :=
        hread.2.mem List.mem_cons_self
      have hblock := le_trans (Nat.le_of_not_lt hfinal) hread.1
      -- Whoever is owed now is the owner, or was owed before.
      have howed : ∀ waiter : DepositWaiter Id Addr Secret,
          waiter.Owed store → owner ≠ some waiter.allocation.id →
          waiter.Owed state.lifecycle.store := by
        intro waiter howed hne
        obtain ⟨hlive, amount, hamount, hle⟩ := howed
        rw [writeCompletion_amount hinv.owned hwrite hne] at hamount
        exact ⟨hlive, amount, hamount, hle⟩
      exact {
        sorted := hinv.sorted
        owned := writeCompletion_ownedSoundly hinv.owned hwrite
        byEvents := writeCompletion_byEvents hinv.byEvents hmem hblock hwrite
        pageRead := ⟨hread.1, (hread.2.advance hinv.sorted).1⟩
        known := hinv.known
        recordedPass := fun _ => ⟨_, _, _, rfl⟩
        amountRead := by
          intro id committed hsome
          cases owner with
          | none => cases hsome
          | some owner => cases hsome
        owed := by
          intro waiter hwaiter hnow
          by_cases howner : owner = some waiter.allocation.id
          · exact Or.inl ⟨none, by rw [howner]; rfl⟩
          · rcases hinv.owed waiter hwaiter (howed waiter hnow howner) with
              ⟨committed, hsome⟩ | hrevisits
            · rw [hrecorded] at hsome
              cases hsome
            · rw [hpass] at hrevisits
              rcases (hrevisits.2.next hinv.sorted hread.2).2 with
                hcompletes | hahead
              · exact absurd (writeCompletion_owner hinv.owned hwrite
                  hcompletes) howner
              · right
                refine ⟨hrevisits.1, hahead.mono ?_⟩
                intro completion hcompletes
                obtain ⟨key, hkey, hevent⟩ := hcompletes
                exact ⟨key, writeCompletion_recorded hwrite hkey, hevent⟩
        locked := by
          intro waiter hwaiter hnow
          by_cases howner : owner = some waiter.allocation.id
          · exact Or.inl ⟨none, by rw [howner]; rfl⟩
          · rcases hinv.locked waiter hwaiter (howed waiter hnow howner) with
              ⟨committed, hsome⟩ | ⟨hidle, _⟩
            · rw [hrecorded] at hsome
              cases hsome
            · exact absurd hidle hbusy }

omit [DecidableEq Addr] [DecidableEq Secret] in
/-- A step of the pass which leaves the store as it is. -/
theorem moved_invariant {pass : CatchUp}
    (hinv : state.Invariant detector registered)
    (hbusy : state.lifecycle.pass ≠ .idle) (hrecorded : state.recorded = none)
    (hread : pass.PageRead state.lifecycle.index)
    (hrevisits : ∀ id, state.Owes id →
      state.lifecycle.pass.Revisits detector state.lifecycle.index
        state.lifecycle.store state.lifecycle.replayHistory state.completed
        id →
      pass ≠ .idle ∧ ∀ replayHistory completed,
        pass.Revisits detector state.lifecycle.index state.lifecycle.store
          replayHistory completed id) :
    (state.passed { state.lifecycle with pass := pass }).Invariant detector
      registered := by
  apply passed_invariant hinv hbusy hrecorded
  · rfl
  · exact hinv.owned
  · exact ⟨fun _ => rfl, fun _ _ => Iff.rfl⟩
  · exact hread
  · exact hrevisits

omit [DecidableEq Addr] [DecidableEq Secret] in
/-- A note is discovered, or nobody is watched and the pass returns. -/
theorem discovered_invariant (hsound : detector.Sound registered)
    {watched : List (WatchedAllocation Id Addr Secret)}
    {candidate : CurvyPendingNote} {watching : Bool}
    {store : CurvyDepositState Id Addr Field Note} {pass : CatchUp}
    (hinv : state.Invariant detector registered)
    (hbusy : state.lifecycle.pass ≠ .idle) (hrecorded : state.recorded = none)
    (hregistered : ∀ other ∈ watched, other ∈ registered)
    (hnobody : watched = [] →
      ∀ waiter ∈ state.waiters, waiter.canceled = true)
    (hprocess : state.lifecycle.store.processCandidate detector watched
      candidate = .ok (store, watching))
    (hread : pass.PageRead state.lifecycle.index)
    (hrevisits : watching = true → ∀ id,
      state.lifecycle.pass.Revisits detector state.lifecycle.index
        state.lifecycle.store state.lifecycle.replayHistory state.completed
        id →
      pass ≠ .idle ∧ ∀ replayHistory completed,
        pass.Revisits detector state.lifecycle.index store
          replayHistory completed id) :
    (state.passed { state.lifecycle with store := store, pass := pass }
      ).Invariant detector registered := by
  apply passed_invariant hinv hbusy hrecorded
  · rfl
  · exact processCandidate_ownedSoundly hsound hregistered hinv.owned hprocess
  · exact processCandidate_discovers hprocess
  · exact hread
  · intro id howes hrevisit
    cases hwatching : watching with
    | true => exact hrevisits hwatching id hrevisit
    | false =>
        obtain ⟨waiter, hmem, _, hlive, _⟩ := howes
        have hempty : watched = [] := by
          rcases processCandidate_cases hprocess with
            ⟨_, hnil, _⟩ | ⟨htrue, _⟩ | ⟨_, _, htrue, _⟩
          · exact hnil
          · rw [hwatching] at htrue
            cases htrue
          · rw [hwatching] at htrue
            cases htrue
        rw [hnobody hempty waiter hmem] at hlive
        cases hlive

/-- Away from the completions, a step of the pass is one of the lifecycle. -/
theorem advance_quiet {watched : List (WatchedAllocation Id Addr Secret)}
    (hasks : state.lifecycle.pass.asksWatched = false)
    (hpage : ∀ pass note notes pageLen,
      state.lifecycle.pass ≠ .completions pass (note :: notes) pageLen)
    (hadvance : state.advance detector watched = some after) :
    ∃ lifecycle, state.lifecycle.advance detector = some lifecycle ∧
      after = state.passed lifecycle := by
  unfold advance at hadvance
  split at hadvance
  · cases hadvance
  · split at hadvance
    · rename_i pass note notes pageLen hpass
      exact absurd hpass (hpage pass note notes pageLen)
    · rw [if_neg (by simp [hasks])] at hadvance
      obtain ⟨lifecycle, hlifecycle, hafter⟩ :=
        Option.bind_eq_some_iff.mp hadvance
      cases hafter
      exact ⟨lifecycle, hlifecycle, rfl⟩

theorem advance_asking {watched : List (WatchedAllocation Id Addr Secret)}
    (hasks : state.lifecycle.pass.asksWatched = true)
    (hadvance : state.advance detector watched = some after) :
    ∃ asked lifecycle, state.watchedAllocations watched = some asked ∧
      asked.lifecycle.advance detector = some lifecycle ∧
      after = asked.passed lifecycle := by
  unfold advance at hadvance
  split at hadvance
  · cases hadvance
  · split at hadvance
    · rename_i pass note notes pageLen hpass
      rw [hpass] at hasks
      cases hasks
    · rw [if_pos hasks] at hadvance
      obtain ⟨asked, hasked, hrest⟩ := Option.bind_eq_some_iff.mp hadvance
      obtain ⟨lifecycle, hlifecycle, hafter⟩ :=
        Option.bind_eq_some_iff.mp hrest
      cases hafter
      exact ⟨asked, lifecycle, hasked, hlifecycle, rfl⟩

theorem asking_invariant (hsound : detector.Sound registered)
    {watched : List (WatchedAllocation Id Addr Secret)}
    (hinv : state.Invariant detector registered)
    (hrecorded : state.recorded = none)
    (hasks : state.lifecycle.pass.asksWatched = true)
    (hadvance : state.advance detector watched = some after) :
    after.Invariant detector registered := by
  obtain ⟨asked, lifecycle, hasked, hlifecycle, rfl⟩ :=
    advance_asking hasks hadvance
  obtain ⟨hasking, _, hform, hregistered, hnobody⟩ :=
    watchedAllocations_invariant hinv hasked
  have hpass : asked.lifecycle.pass = state.lifecycle.pass := by rw [hform]
  have hwatched : asked.lifecycle.watched = watched := by rw [hform]
  have hnone : asked.recorded = none := by rw [hform]; exact hrecorded
  have hread := hasking.pageRead
  rw [← hpass] at hasks
  rw [← hwatched] at hregistered hnobody
  have hbusy : asked.lifecycle.pass ≠ .idle := by
    intro hidle
    rw [hidle] at hasks
    cases hasks
  unfold CatchUp.asksWatched at hasks
  split at hasks
  · rename_i replay cursor note notes hasMore hcandidates
    unfold LifecycleState.advance at hlifecycle
    rw [hcandidates] at hlifecycle
    dsimp only at hlifecycle
    split at hlifecycle
    · rename_i error hprocess
      exact absurd hprocess processCandidate_ne_error
    · rename_i store hprocess
      cases hlifecycle
      apply discovered_invariant hsound hasking hbusy hnone hregistered
        hnobody hprocess
      · trivial
      · intro hwatching
        cases hwatching
    · rename_i store hprocess
      cases hlifecycle
      apply discovered_invariant hsound hasking hbusy hnone hregistered
        hnobody hprocess
      · trivial
      · intro _ id hrevisits
        rw [hcandidates] at hrevisits
        exact ⟨by simp, fun _ _ => hrevisits⟩
  · rename_i pass page note found hdiscoveries
    rw [hdiscoveries] at hread
    unfold LifecycleState.advance at hlifecycle
    rw [hdiscoveries] at hlifecycle
    dsimp only at hlifecycle
    split at hlifecycle
    · rename_i error hprocess
      exact absurd hprocess processCandidate_ne_error
    · rename_i store hprocess
      cases hlifecycle
      apply discovered_invariant hsound hasking hbusy hnone hregistered
        hnobody hprocess
      · trivial
      · intro hwatching
        cases hwatching
    · rename_i store hprocess
      cases hlifecycle
      have hdiscovers := processCandidate_discovers hprocess
      apply discovered_invariant hsound hasking hbusy hnone hregistered
        hnobody hprocess
      · exact hread
      · intro _ id hrevisits
        rw [hdiscoveries] at hrevisits
        refine ⟨by simp, fun _ _ => ⟨hrevisits.1, ?_⟩⟩
        exact hrevisits.2.mono fun _ => hdiscovers.completesFor
  · cases hasks

omit [DecidableEq Addr] [DecidableEq Secret] in
/-- Behind what is owed there is a final completion. -/
theorem Owes.completed {id : Id} (howes : state.Owes id)
    (hinv : state.Invariant detector registered) :
    ∃ completion ∈ state.lifecycle.index.committed,
      CompletesFor detector state.lifecycle.store id completion ∧
      completion.position.block ≤
        state.lifecycle.index.indexedBlock - state.lifecycle.index.finality := by
  obtain ⟨waiter, hmem, rfl, _, amount, hamount, hle⟩ := howes
  have hpos : 0 < amount.wei :=
    Nat.lt_of_lt_of_le (hinv.known waiter (Or.inl hmem)).2 hle
  obtain ⟨key, hrecorded⟩ :=
    CurvyDepositState.exists_recorded_of_amount hamount hpos
  obtain ⟨completion, hcompletion, hcompletes, hfinal⟩ :=
    hinv.byEvents waiter.allocation.id key hrecorded
  exact ⟨completion, hcompletion, ⟨key, hrecorded, hcompletes⟩, hfinal⟩

theorem quiet_invariant {watched : List (WatchedAllocation Id Addr Secret)}
    (hinv : state.Invariant detector registered)
    (hrecorded : state.recorded = none)
    (hasks : state.lifecycle.pass.asksWatched = false)
    (hpage : ∀ pass note notes pageLen,
      state.lifecycle.pass ≠ .completions pass (note :: notes) pageLen)
    (hadvance : state.advance detector watched = some after) :
    after.Invariant detector registered := by
  have hread := hinv.pageRead
  obtain ⟨lifecycle, hlifecycle, rfl⟩ := advance_quiet hasks hpage hadvance
  unfold LifecycleState.advance at hlifecycle
  split at hlifecycle
  · cases hlifecycle
  · rename_i replay cursor hpass
    cases hlifecycle
    apply moved_invariant hinv (by simp [hpass]) hrecorded
    · trivial
    · intro id _ hrevisits
      rw [hpass] at hrevisits
      exact ⟨by simp, fun _ _ => hrevisits⟩
  · rename_i replay cursor hasMore hpass
    cases hlifecycle
    apply moved_invariant hinv (by simp [hpass]) hrecorded
    · cases hasMore <;> trivial
    · intro id _ hrevisits
      rw [hpass] at hrevisits
      cases hasMore with
      | true => exact ⟨by simp, fun _ _ => hrevisits⟩
      | false => exact ⟨by simp, fun _ _ => hrevisits⟩
  · rename_i hpass
    rw [hpass] at hasks
    cases hasks
  · rename_i replay pendingAfter hpass
    cases hlifecycle
    apply moved_invariant hinv (by simp [hpass]) hrecorded
    · exact le_refl _
    · -- The second half of a replay has every final completion before it.
      intro id howes hrevisits
      rw [hpass] at hrevisits
      have hreplay : replay = true := hrevisits
      obtain ⟨completion, hmem, hcompletes, hfinal⟩ := howes.completed hinv
      refine ⟨by simp, fun _ _ => ⟨hreplay, completion, hmem, hcompletes,
        hfinal, ?_⟩⟩
      simp [LifecycleState.catchUpCursor, hreplay]
  · rename_i pass hpass
    cases hlifecycle
    rw [hpass] at hread
    apply moved_invariant hinv (by simp [hpass]) hrecorded
    · split
      · exact ⟨hread, Reading.page _ _ _⟩
      · exact ⟨hread, Reading.page _ _ _⟩
    · intro id _ hrevisits
      rw [hpass] at hrevisits
      have hahead := hrevisits.2.page hinv.sorted
      split
      · exact ⟨by simp, fun _ _ => ⟨hrevisits.1, hahead⟩⟩
      · exact ⟨by simp, fun _ _ => ⟨hrevisits.1, hahead⟩⟩
  · rename_i pass page hpass
    cases hlifecycle
    rw [hpass] at hread
    apply moved_invariant hinv (by simp [hpass]) hrecorded
    · exact hread
    · intro id _ hrevisits
      rw [hpass] at hrevisits
      exact ⟨by simp, fun _ _ => hrevisits⟩
  · rename_i pass page hpass
    cases hlifecycle
    rw [hpass] at hread
    apply moved_invariant hinv (by simp [hpass]) hrecorded
    · exact hread
    · intro id _ hrevisits
      rw [hpass] at hrevisits
      exact ⟨by simp, fun _ _ => hrevisits⟩
  · rename_i hpass
    rw [hpass] at hasks
    cases hasks
  · rename_i pass pageLen hpass
    cases hlifecycle
    rw [hpass] at hread
    apply moved_invariant hinv (by simp [hpass]) hrecorded
    · split
      · trivial
      · exact hread.1
    · intro id _ hrevisits
      rw [hpass] at hrevisits
      obtain ⟨hfull, hahead⟩ := hrevisits.2.not_short
      rw [if_neg (Nat.not_lt.mpr hfull)]
      exact ⟨by simp, fun _ _ => ⟨hrevisits.1, hahead⟩⟩
  · rename_i pass note notes pageLen hpass
    exact absurd hpass (hpage pass note notes pageLen)

theorem advance_invariant (hsound : detector.Sound registered)
    {watched : List (WatchedAllocation Id Addr Secret)}
    (hinv : state.Invariant detector registered)
    (hadvance : state.advance detector watched = some after) :
    after.Invariant detector registered := by
  cases hrecorded : state.recorded with
  | some recorded => simp [advance, hrecorded] at hadvance
  | none =>
      by_cases hasks : state.lifecycle.pass.asksWatched = true
      · exact asking_invariant hsound hinv hrecorded hasks hadvance
      · rw [Bool.not_eq_true] at hasks
        by_cases hpage : ∃ pass note notes pageLen,
            state.lifecycle.pass = .completions pass (note :: notes) pageLen
        · obtain ⟨pass, note, notes, pageLen, hpass⟩ := hpage
          simp only [advance, hrecorded, hpass, Option.some.injEq] at hadvance
          subst hadvance
          exact complete_invariant hinv hrecorded hpass
        · apply quiet_invariant hinv hrecorded hasks _ hadvance
          intro pass note notes pageLen hpass
          exact hpage ⟨pass, note, notes, pageLen, hpass⟩

theorem next_invariant (hsound : detector.Sound registered)
    {action : TrackerAction Id Addr Secret}
    (hinv : state.Invariant detector registered)
    (hallowed : state.ReadsAnswered registered action)
    (hnext : next detector state action = some after) :
    after.Invariant detector registered := by
  cases action with
  | grow announced completed indexedBlock =>
      simp only [next] at hnext
      obtain ⟨lifecycle, hgrow, hafter⟩ := Option.bind_eq_some_iff.mp hnext
      cases hafter
      simp only [LifecycleState.next] at hgrow
      split at hgrow
      · rename_i hgrows
        cases hgrow
        exact grow_invariant hgrows hinv
      · cases hgrow
  | watch allocation minimum =>
      exact watch_invariant (hallowed.registered allocation minimum rfl) hinv
        hnext
  | insert =>
      simp only [next] at hnext
      cases hholder : state.registering with
      | none => simp [hholder] at hnext
      | some waiter =>
          rw [hholder] at hnext
          cases hnext
          exact insert_invariant hholder hinv
  | cancel index =>
      cases hnext
      exact cancel_invariant index hinv
  | start watched => exact start_invariant hinv hnext
  | advance watched => exact advance_invariant hsound hinv hnext
  | readAmount => exact readAmount_invariant hinv hnext
  | notify => exact notify_invariant hinv hnext
  | interrupt =>
      simp only [next] at hnext
      split at hnext
      · cases hnext
      · cases hnext
      · cases hnext
        exact failed_invariant hinv (hallowed.answered rfl)
  | crash =>
      cases hnext
      exact {
        sorted := hinv.sorted
        owned := hinv.owned
        byEvents := hinv.byEvents
        pageRead := trivial
        known := by
          intro waiter hmem
          rcases hmem with hin | hlocked
          · cases hin
          · cases hlocked
        recordedPass := fun hsome => absurd rfl hsome
        amountRead := by
          intro id committed hsome
          cases hsome
        owed := by
          intro waiter hmem
          cases hmem
        locked := by
          intro waiter hmem
          cases hmem }

omit [DecidableEq Addr] [DecidableEq Secret] in
theorem initial_invariant (finality : ℕ) :
    (initial finality : TrackerState Id Addr Secret Field Note).Invariant
      detector registered where
  sorted := List.Pairwise.nil
  owned := by
    intro id key record hlookup
    cases hlookup
  byEvents := by
    intro id key hrecorded
    obtain ⟨record, hlookup, _⟩ := hrecorded
    cases hlookup
  pageRead := trivial
  known := by
    intro waiter hmem
    rcases hmem with hin | hlocked
    · cases hin
    · cases hlocked
  recordedPass := fun hsome => absurd rfl hsome
  amountRead := by
    intro id committed hsome
    cases hsome
  owed := by
    intro waiter hmem
    cases hmem
  locked := by
    intro waiter hmem
    cases hmem

/-- After a pass which completed, nobody waits for an amount which is
committed already. -/
theorem noLostWakeUp (detector : CurvyNoteDetector Addr Secret Field Owner Note)
    (registered : Set (WatchedAllocation Id Addr Secret))
    (hsound : detector.Sound registered) (finality : ℕ)
    {state : TrackerState Id Addr Secret Field Note}
    (hreach : (trackerSystem detector finality).ReachableWithin
      (ReadsAnswered registered) state)
    (hidle : state.lifecycle.pass = .idle) (hcompleted : state.completed = true)
    (waiter : DepositWaiter Id Addr Secret) (hmem : waiter ∈ state.waiters)
    (hlive : waiter.canceled = false) (committed : HoprBalance)
    (hamount : state.lifecycle.store.committedAmount waiter.allocation.id =
      .ok committed) : ¬ waiter.minimum ≤ committed := by
  have hinv : state.Invariant detector registered := by
    refine hreach.invariant ?_ ?_
    · intro start hinit
      cases hinit
      exact initial_invariant finality
    · intro before action after hbefore hallowed hnext
      exact next_invariant hsound hbefore hallowed hnext
  intro hle
  rcases hinv.owed waiter hmem ⟨hlive, committed, hamount, hle⟩ with
    ⟨read, hrecorded⟩ | hrevisits
  · have hsome : state.recorded ≠ none := by simp [hrecorded]
    obtain ⟨pass, notes, pageLen, hpass⟩ := hinv.recordedPass hsome
    rw [hidle] at hpass
    cases hpass
  · rw [hidle] at hrevisits
    rw [hcompleted] at hrevisits
    cases hrevisits.2

/-- Who is left waits for at least `minimum`. -/
def soleTracker (minimum : ℕ) (pass : CatchUp) (completed : Bool) :
    TrackerState ℕ ℕ Unit ℕ (ℕ × ℕ) where
  lifecycle := soleState committedStore pass
  waiters := [⟨soleAllocation, .saturating minimum, false⟩]
  registering := none
  recorded := none
  completed := completed

/-- Two waiters of one allocation, and the pass which serves the first. -/
def servedActions : List (TrackerAction ℕ ℕ Unit) :=
  [.grow [soleNote] [soleCompletion] 3,
    .watch soleAllocation (.saturating 2), .insert,
    .watch soleAllocation (.saturating 5), .insert,
    .start [soleAllocation]] ++
  List.replicate 8 (.advance [soleAllocation]) ++
  [.readAmount, .notify, .advance []]

set_option maxRecDepth 20000 in
theorem run_servedActions :
    (trackerSystem plaintextDetector 1).run (initial 1) servedActions =
      some (soleTracker 5 .idle true) :=
  (rfl)

theorem soleTracker_amount :
    committedStore.committedAmount soleAllocation.id =
      .ok (.saturating 2) := rfl

theorem noLostWakeUp_served :
    ∃ state : TrackerState ℕ ℕ Unit ℕ (ℕ × ℕ),
      state.lifecycle.pass = .idle ∧ state.completed = true ∧
      ∃ waiter ∈ state.waiters, waiter.canceled = false ∧
        ∃ committed,
          state.lifecycle.store.committedAmount waiter.allocation.id =
            .ok committed ∧
          ¬ waiter.minimum ≤ committed := by
  have hallowed : ∀ before : TrackerState ℕ ℕ Unit ℕ (ℕ × ℕ),
      ∀ action ∈ servedActions,
        ReadsAnswered {soleAllocation} before action := by
    intro before action hmem
    constructor
    · intro allocation minimum haction
      rw [haction] at hmem
      simp [servedActions] at hmem
      rcases hmem with hfirst | hsecond
      · exact hfirst.1
      · exact hsecond.1
    · intro haction
      rw [haction] at hmem
      simp [servedActions] at hmem
  have hinit : (trackerSystem plaintextDetector 1).ReachableWithin
      (ReadsAnswered {soleAllocation})
      (initial 1 : TrackerState ℕ ℕ Unit ℕ (ℕ × ℕ)) := .init rfl
  have hreach := hinit.run servedActions hallowed run_servedActions
  exact ⟨soleTracker 5 .idle true, rfl, rfl, _, List.mem_cons_self, rfl, _,
    soleTracker_amount,
    noLostWakeUp plaintextDetector {soleAllocation} plaintextDetector_sound 1
      hreach rfl rfl _ List.mem_cons_self rfl _ soleTracker_amount⟩

/-- The amount is not read, in a pass which is not a replay; the next pass
starts behind the completion. -/
def interruptedActions : List (TrackerAction ℕ ℕ Unit) :=
  [.watch soleAllocation (.saturating 2), .insert, .start [soleAllocation]] ++
  List.replicate 5 (.advance []) ++
  [.grow [soleNote] [soleCompletion] 3, .start [soleAllocation]] ++
  List.replicate 8 (.advance [soleAllocation]) ++
  [.interrupt, .start [soleAllocation]] ++ List.replicate 5 (.advance [])

set_option maxRecDepth 20000 in
theorem run_interruptedActions :
    (trackerSystem plaintextDetector 1).run (initial 1) interruptedActions =
      some (soleTracker 2 .idle true) :=
  (rfl)

theorem noLostWakeUp_not_always :
    ¬ ∀ (finality : ℕ) (state : TrackerState ℕ ℕ Unit ℕ (ℕ × ℕ)),
      (trackerSystem plaintextDetector finality).ReachableWithin
        (fun _ action => ∀ allocation minimum,
          action = .watch allocation minimum → allocation = soleAllocation)
        state →
      state.lifecycle.pass = .idle → state.completed = true →
      ∀ waiter ∈ state.waiters, waiter.canceled = false →
      ∀ committed,
        state.lifecycle.store.committedAmount waiter.allocation.id =
          .ok committed →
        ¬ waiter.minimum ≤ committed := by
  intro halways
  have hallowed : ∀ _ : TrackerState ℕ ℕ Unit ℕ (ℕ × ℕ),
      ∀ action ∈ interruptedActions, ∀ allocation minimum,
        action = .watch allocation minimum → allocation = soleAllocation := by
    intro _ action hmem allocation minimum haction
    rw [haction] at hmem
    simp [interruptedActions] at hmem
    exact hmem.1
  have hinit : (trackerSystem plaintextDetector 1).ReachableWithin
      (fun _ action => ∀ allocation minimum,
        action = .watch allocation minimum → allocation = soleAllocation)
      (initial 1 : TrackerState ℕ ℕ Unit ℕ (ℕ × ℕ)) := .init rfl
  have hreach := hinit.run interruptedActions hallowed run_interruptedActions
  exact halways 1 _ hreach rfl rfl _ List.mem_cons_self rfl _
    soleTracker_amount (Nat.le_refl 2)

end TrackerState

end HoprStrategy.Curvy
