import HoprStrategy.CurvyLifecycle

/-!
# Which commitments a pass can lose

A pass attributes every announcement it reads before it reads the indexed head,
and it records every commitment up to that head.  A commitment is lost only
when its note was announced behind the pass's back and became final before the
head was read: the committed cursor then moves past a note which nobody has
attributed yet.
-/

namespace HoprStrategy.Curvy

open Library

variable {Id Addr Secret Field Owner Note : Type}
  [DecidableEq Id] [DecidableEq Field]

section

variable (detector : CurvyNoteDetector Addr Secret Field Owner Note)
  (allocation : WatchedAllocation Id Addr Secret) (index : BlokliIndex)
  (store : CurvyDepositState Id Addr Field Note)

/-- Every announcement up to the cursor which the allocation owns has been
attributed to it. -/
structure AttributedUpTo (after : Option CurvyEventCursor) : Prop where
  behind : Behind CurvyPendingNote.position index.pending after
  attributed : ∀ note ∈ index.pending, detector.Owns allocation note →
    ¬ Later after note.position →
    ∀ key, detector.parseNoteId note.noteId = .ok key →
      store.Attributed allocation.id key

/-- Every commitment up to the cursor of a note which the allocation owns has
been recorded. -/
structure RecordedUpTo (after : Option CurvyEventCursor) : Prop where
  behind : Behind CurvyCommittedNote.position index.committed after
  recorded : ∀ note ∈ index.pending, detector.Owns allocation note →
    ∀ completion ∈ index.committed, completion.noteId = note.noteId →
    (parseU64 completion.leafIndex).isSome = true →
    ¬ Later after completion.position →
    ∀ key, detector.parseNoteId note.noteId = .ok key →
      store.RecordedCommitted allocation.id key

/-- No commitment of a note which the pass has not read as pending is within
the blocks that it treats as final. -/
def NotOvertaken (pendingAfter : Option CurvyEventCursor)
    (finalizedThrough : ℕ) : Prop :=
  ∀ note ∈ index.pending, detector.Owns allocation note →
    Later pendingAfter note.position →
    ∀ completion ∈ index.committed, completion.noteId = note.noteId →
      finalizedThrough < completion.position.block

/-- What holds in the second half of a pass. -/
structure CommittedPass.Invariant (pass : CommittedPass) : Prop where
  attributed : AttributedUpTo detector allocation index store pass.pendingAfter
  notOvertaken : NotOvertaken detector allocation index pass.pendingAfter
    pass.finalizedThrough
  recorded : RecordedUpTo detector allocation index store pass.committedAfter

def CatchUp.Invariant : CatchUp → Prop
  | .idle => True
  | .requestPending _ after =>
      AttributedUpTo detector allocation index store after
  | .candidates _ after notes _ =>
      AttributedUpTo detector allocation index store after ∧
        Reading CurvyPendingNote.position index.pending after notes
  | .readHead _ after => AttributedUpTo detector allocation index store after
  | .requestCommitted pass => pass.Invariant detector allocation index store
  | .requestCandidates pass page =>
      pass.Invariant detector allocation index store ∧
        Reading CurvyCommittedNote.position index.committed
          pass.committedAfter page
  | .discoveries pass page found =>
      pass.Invariant detector allocation index store ∧
        Reading CurvyCommittedNote.position index.committed
          pass.committedAfter page ∧ found = []
  | .completions pass notes _ =>
      pass.Invariant detector allocation index store ∧
        Reading CurvyCommittedNote.position index.committed
          pass.committedAfter notes

/-- The store keeps what it holds for the allocation. -/
structure StoreKeeps (after : CurvyDepositState Id Addr Field Note) :
    Prop where
  recorded : ∀ key, store.RecordedCommitted allocation.id key →
    after.RecordedCommitted allocation.id key
  attributed : ∀ note, detector.Owns allocation note →
    ∀ key, detector.parseNoteId note.noteId = .ok key →
      store.Attributed allocation.id key → after.Attributed allocation.id key

end

namespace LifecycleState

variable (detector : CurvyNoteDetector Addr Secret Field Owner Note)
  (allocation : WatchedAllocation Id Addr Secret)

structure Invariant (state : LifecycleState Id Addr Secret Field Note) :
    Prop where
  pendingSorted :
    Chronological CurvyPendingNote.position state.index.pending
  committedSorted :
    Chronological CurvyCommittedNote.position state.index.committed
  attributed : AttributedUpTo detector allocation state.index state.store
    state.store.pendingCursor
  recorded : RecordedUpTo detector allocation state.index state.store
    state.store.committedCursor
  pass : state.pass.Invariant detector allocation state.index state.store

/-- The allocation is watched, among registered ones. -/
structure Watched (registered : Set (WatchedAllocation Id Addr Secret))
    (state : LifecycleState Id Addr Secret Field Note) : Prop where
  watched : allocation ∈ state.watched
  registered : ∀ other ∈ state.watched, other ∈ registered

/-- The condition on a step: the allocation is watched, and no note which it
owns is announced after the pass's last pending page and committed within the
blocks the pass treats as final. -/
structure WatchedInTime (registered : Set (WatchedAllocation Id Addr Secret))
    (state : LifecycleState Id Addr Secret Field Note)
    (action : LifecycleAction Id Addr Secret) : Prop
    extends Watched allocation registered state where
  head : ∀ replay pendingAfter, action = .advance →
    state.pass = .readHead replay pendingAfter →
    NotOvertaken detector allocation state.index pendingAfter
      (state.index.indexedBlock - state.index.finality)
  growth : ∀ announced completed indexedBlock pass,
    action = .grow announced completed indexedBlock →
    state.pass.committedPass = some pass →
    NotOvertaken detector allocation
      (state.index.grown announced completed indexedBlock)
      pass.pendingAfter pass.finalizedThrough

end LifecycleState

variable {detector : CurvyNoteDetector Addr Secret Field Owner Note}
  {registered : Set (WatchedAllocation Id Addr Secret)}
  {allocation : WatchedAllocation Id Addr Secret} {index : BlokliIndex}
  {store stored : CurvyDepositState Id Addr Field Note}
  {after : Option CurvyEventCursor}

/-! ## The two store operations -/

omit [DecidableEq Id] in
/-- Whoever a note with the same id is attributed to is the owner. -/
theorem detected_id_eq (hsound : detector.Sound registered)
    {candidate note : CurvyPendingNote}
    {watched : List (WatchedAllocation Id Addr Secret)}
    {detected : DetectedCurvyNote Id Addr Note}
    (hregistered : ∀ other ∈ watched, other ∈ registered)
    (hallocation : allocation ∈ registered)
    (hdetect : detector.detectOwnedNote candidate watched =
      .ok (some detected))
    (howns : detector.Owns allocation note)
    (hid : detector.parseNoteId candidate.noteId =
      detector.parseNoteId note.noteId) :
    detected.deposit.id = allocation.id := by
  obtain ⟨announcement, viewTag, other, hother, amount, _, hparse, hjudge,
    heq⟩ := CurvyNoteDetector.detectOwnedNote_some hdetect
  obtain ⟨announcement', viewTag', amount', _, hparse', hjudge', _⟩ := howns
  rw [CurvyNoteDetector.parseCandidate_noteId hparse,
    CurvyNoteDetector.parseCandidate_noteId hparse', Except.ok.injEq] at hid
  rw [heq]
  exact (hsound.unique _ _ _ _ _ (hregistered _ hother) _ hallocation
    _ _ _ _ hjudge hjudge' hid).1

/-- What processing a candidate does to the store. -/
structure CandidateStep (detector : CurvyNoteDetector Addr Secret Field Owner Note)
    (allocation : WatchedAllocation Id Addr Secret)
    (store stored : CurvyDepositState Id Addr Field Note)
    (candidate : CurvyPendingNote) : Prop where
  pendingCursor : stored.pendingCursor = some candidate.position
  committedCursor : stored.committedCursor = store.committedCursor
  keeps : StoreKeeps detector allocation store stored
  owned : detector.Owns allocation candidate →
    ∀ key, detector.parseNoteId candidate.noteId = .ok key →
      stored.Attributed allocation.id key

theorem processCandidate_step (hsound : detector.Sound registered)
    {watched : List (WatchedAllocation Id Addr Secret)}
    {candidate : CurvyPendingNote} {watching : Bool}
    (hwatched : allocation ∈ watched)
    (hregistered : ∀ other ∈ watched, other ∈ registered)
    (hprocess : store.processCandidate detector watched candidate =
      .ok (stored, watching)) :
    watching = true ∧
      CandidateStep detector allocation store stored candidate := by
  have hnonempty : watched.isEmpty = false := by
    cases watched with
    | nil => cases hwatched
    | cons => rfl
  unfold CurvyDepositState.processCandidate at hprocess
  rw [hnonempty, if_neg (by simp)] at hprocess
  -- without a detection only the cursor moves, and the note is not ours
  have hskip : (¬ detector.Owns allocation candidate) →
      CandidateStep detector allocation store
        (store.advanceCursor .pending candidate.position) candidate :=
    fun hnot => ⟨rfl, rfl, ⟨fun _ h => h, fun _ _ _ _ h => h⟩,
      fun howns => absurd howns hnot⟩
  cases hdetect : detector.detectOwnedNote candidate watched with
  | error error =>
      simp only [hdetect, Except.ok.injEq, Prod.mk.injEq] at hprocess
      obtain ⟨rfl, rfl⟩ := hprocess
      refine ⟨rfl, hskip fun howns => ?_⟩
      obtain ⟨detected, hfound, _⟩ :=
        howns.detected hsound hwatched hregistered
      rw [hdetect] at hfound
      cases hfound
  | ok detected =>
      cases detected with
      | none =>
          simp only [hdetect, Except.ok.injEq, Prod.mk.injEq] at hprocess
          obtain ⟨rfl, rfl⟩ := hprocess
          refine ⟨rfl, hskip fun howns => ?_⟩
          obtain ⟨detected, hfound, _⟩ :=
        howns.detected hsound hwatched hregistered
          rw [hdetect] at hfound
          cases hfound
      | some detected =>
          simp only [hdetect] at hprocess
          cases hkey : detector.parseNoteId candidate.noteId with
          | error error =>
              simp only [hkey] at hprocess
              cases hprocess
          | ok key =>
              simp only [hkey, Except.ok.injEq, Prod.mk.injEq] at hprocess
              obtain ⟨rfl, rfl⟩ := hprocess
              refine ⟨rfl, rfl, rfl, ⟨?_, ?_⟩, ?_⟩
              · exact fun key' =>
                  CurvyDepositState.recordOwnedCandidate_recorded
              · intro note howns key' hkey' hattributed
                refine CurvyDepositState.recordOwnedCandidate_keeps_attributed
                  hattributed ?_
                rintro rfl
                exact detected_id_eq hsound hregistered
                  (hregistered _ hwatched) hdetect howns
                  (hkey.trans hkey'.symm)
              · intro howns key' hkey'
                rw [hkey, Except.ok.injEq] at hkey'
                subst hkey'
                obtain ⟨found, hfound, hid⟩ :=
                  howns.detected hsound hwatched hregistered
                rw [hdetect, Except.ok.injEq, Option.some.injEq] at hfound
                rw [← hid, ← hfound]
                exact CurvyDepositState.recordOwnedCandidate_attributed

/-- A completion behind the cursor: what was attributed is recorded. -/
structure CompletionRecorded
    (detector : CurvyNoteDetector Addr Secret Field Owner Note)
    (allocation : WatchedAllocation Id Addr Secret)
    (store stored : CurvyDepositState Id Addr Field Note)
    (completion : CurvyCommittedNote) : Prop where
  committedCursor : stored.committedCursor = some completion.position
  recorded : ∀ key, detector.parseNoteId completion.noteId = .ok key →
    (parseU64 completion.leafIndex).isSome = true →
    store.Attributed allocation.id key →
    stored.RecordedCommitted allocation.id key

/-- What processing a completion does to the store. -/
theorem processCompletion_step (allocation : WatchedAllocation Id Addr Secret)
    {completion : CurvyCommittedNote}
    {result : Except CurvyLifecycleError (Option (Id × HoprBalance))}
    (hprocess : store.processCompletion detector completion =
      (stored, result)) :
    stored.pendingCursor = store.pendingCursor ∧
      StoreKeeps detector allocation store stored ∧
      (stored = store ∧ (∃ error, result = .error error) ∨
        CompletionRecorded detector allocation store stored completion) := by
  unfold CurvyDepositState.processCompletion at hprocess
  cases hleaf : parseU64 completion.leafIndex with
  | none =>
      simp only [hleaf, Prod.mk.injEq] at hprocess
      obtain ⟨rfl, rfl⟩ := hprocess
      exact ⟨rfl, ⟨fun _ h => h, fun _ _ _ _ h => h⟩,
        .inr ⟨rfl, fun _ _ h => by rw [hleaf] at h; cases h⟩⟩
  | some leafIndex =>
      simp only [hleaf] at hprocess
      cases hkey : detector.parseNoteId completion.noteId with
      | error error =>
          simp only [hkey, Prod.mk.injEq] at hprocess
          obtain ⟨rfl, rfl⟩ := hprocess
          exact ⟨rfl, ⟨fun _ h => h, fun _ _ _ _ h => h⟩,
            .inr ⟨rfl, fun _ h => by rw [hkey] at h; cases h⟩⟩
      | ok key =>
          simp only [hkey] at hprocess
          cases hrecord : store.recordCompletion key leafIndex
              completion.position with
          | error error =>
              simp only [hrecord, Prod.mk.injEq] at hprocess
              obtain ⟨rfl, rfl⟩ := hprocess
              exact ⟨rfl, ⟨fun _ h => h, fun _ _ _ _ h => h⟩,
                .inl ⟨rfl, _, rfl⟩⟩
          | ok recorded =>
              obtain ⟨final, committed⟩ := recorded
              have hcases :=
                CurvyDepositState.recordCompletion_cases hrecord
              have hstored : stored = final := by
                simp only [hrecord] at hprocess
                cases committed with
                | none => exact (Prod.mk.inj hprocess).1.symm
                | some note =>
                    simp only at hprocess
                    split at hprocess <;> exact (Prod.mk.inj hprocess).1.symm
              subst hstored
              refine ⟨hcases.1, ⟨?_, ?_⟩, .inr ⟨hcases.2.1, ?_⟩⟩
              · exact fun _ =>
                  CurvyDepositState.recordCompletion_recorded hrecord
              · exact fun _ _ _ _ =>
                  CurvyDepositState.recordCompletion_attributed hrecord
              · intro key' hkey' _ hattributed
                rw [hkey, Except.ok.injEq] at hkey'
                subst hkey'
                exact CurvyDepositState.recordCompletion_records hrecord
                  hattributed

/-! ## Cursors -/

theorem AttributedUpTo.genesis :
    AttributedUpTo detector allocation index store none :=
  ⟨.genesis, fun _ _ _ h => absurd (later_none _) h⟩

theorem RecordedUpTo.genesis :
    RecordedUpTo detector allocation index store none :=
  ⟨.genesis, fun _ _ _ _ _ _ _ h => absurd (later_none _) h⟩

theorem AttributedUpTo.keep
    (hread : AttributedUpTo detector allocation index store after)
    (hkeeps : StoreKeeps detector allocation store stored) :
    AttributedUpTo detector allocation index stored after :=
  ⟨hread.behind, fun note hnote howns hnot key hkey =>
    hkeeps.attributed note howns key hkey
      (hread.attributed note hnote howns hnot key hkey)⟩

theorem RecordedUpTo.keep
    (hdone : RecordedUpTo detector allocation index store after)
    (hkeeps : StoreKeeps detector allocation store stored) :
    RecordedUpTo detector allocation index stored after :=
  ⟨hdone.behind, fun note hnote howns completion hcompletion hid hleaf hnot
    key hkey => hkeeps.recorded key
      (hdone.recorded note hnote howns completion hcompletion hid hleaf hnot
        key hkey)⟩

theorem CommittedPass.Invariant.keep {pass : CommittedPass}
    (hpass : pass.Invariant detector allocation index store)
    (hkeeps : StoreKeeps detector allocation store stored) :
    pass.Invariant detector allocation index stored :=
  ⟨hpass.attributed.keep hkeeps, hpass.notOvertaken,
    hpass.recorded.keep hkeeps⟩

/-- One candidate further. -/
theorem AttributedUpTo.advance {note : CurvyPendingNote}
    {notes : List CurvyPendingNote}
    (hsorted : Chronological CurvyPendingNote.position index.pending)
    (hread : AttributedUpTo detector allocation index store after)
    (hreading : Reading CurvyPendingNote.position index.pending after
      (note :: notes))
    (hstep : CandidateStep detector allocation store stored note) :
    AttributedUpTo detector allocation index stored (some note.position) := by
  refine ⟨.ofMem (hreading.mem List.mem_cons_self), ?_⟩
  intro other hother howns hnot key hkey
  rw [later_some] at hnot
  by_cases hlater : Later after other.position
  · have heq := (hreading.advance hsorted).2 other hother hlater hnot
    subst heq
    exact hstep.owned howns key hkey
  · exact hstep.keeps.attributed other howns key hkey
      (hread.attributed other hother howns hlater key hkey)

/-- One completion further: its note was attributed before, or else it would
not be final yet. -/
theorem CommittedPass.Invariant.advance {pass : CommittedPass}
    {note : CurvyCommittedNote} {notes : List CurvyCommittedNote}
    (hsorted : Chronological CurvyCommittedNote.position index.committed)
    (hpass : pass.Invariant detector allocation index store)
    (hreading : Reading CurvyCommittedNote.position index.committed
      pass.committedAfter (note :: notes))
    (hfinal : ¬ pass.finalizedThrough < note.position.block)
    (hkeeps : StoreKeeps detector allocation store stored)
    (hrecorded : CompletionRecorded detector allocation store stored note) :
    RecordedUpTo detector allocation index stored (some note.position) := by
  refine ⟨.ofMem (hreading.mem List.mem_cons_self), ?_⟩
  intro announced hannounced howns completion hcompletion hid hleaf hnot key
    hkey
  rw [later_some] at hnot
  by_cases hlater : Later pass.committedAfter completion.position
  · have heq := (hreading.advance hsorted).2 completion hcompletion hlater hnot
    subst heq
    refine hrecorded.recorded key (by rw [hid]; exact hkey) hleaf ?_
    by_cases hunread : Later pass.pendingAfter announced.position
    · exact absurd (hpass.notOvertaken announced hannounced howns hunread
        completion hcompletion hid) hfinal
    · exact hpass.attributed.attributed announced hannounced howns hunread
        key hkey
  · exact hkeeps.recorded key (hpass.recorded.recorded announced hannounced
      howns completion hcompletion hid hleaf hlater key hkey)

/-! ## Growth -/

section Growth

variable {announced : List CurvyPendingNote}
  {completed : List CurvyCommittedNote} {indexedBlock : ℕ}

theorem AttributedUpTo.grow
    (hread : AttributedUpTo detector allocation index store after)
    (hgrows : index.Grows announced completed indexedBlock) :
    AttributedUpTo detector allocation
      (index.grown announced completed indexedBlock) store after := by
  refine ⟨hread.behind.grow, ?_⟩
  intro note hnote howns hnot
  obtain hold | hnew := List.mem_append.mp hnote
  · exact hread.attributed note hold howns hnot
  · exact absurd (hread.behind.later_of_grow hgrows.2.1 hnew) hnot

theorem RecordedUpTo.grow
    (hdone : RecordedUpTo detector allocation index store after)
    (hgrows : index.Grows announced completed indexedBlock) :
    RecordedUpTo detector allocation
      (index.grown announced completed indexedBlock) store after := by
  refine ⟨hdone.behind.grow, ?_⟩
  intro note hnote howns completion hcompletion hid hleaf hnot
  obtain hold | hnew := List.mem_append.mp hcompletion
  · obtain hknown | hlate := List.mem_append.mp hnote
    · exact hdone.recorded note hknown howns completion hold hid hleaf hnot
    · exact absurd hid (hgrows.2.2.2 note hlate completion hold)
  · exact absurd (hdone.behind.later_of_grow hgrows.2.2.1 hnew) hnot

theorem CommittedPass.Invariant.grow {pass : CommittedPass}
    (hpass : pass.Invariant detector allocation index store)
    (hgrows : index.Grows announced completed indexedBlock)
    (htime : NotOvertaken detector allocation
      (index.grown announced completed indexedBlock) pass.pendingAfter
      pass.finalizedThrough) :
    pass.Invariant detector allocation
      (index.grown announced completed indexedBlock) store :=
  ⟨hpass.attributed.grow hgrows, htime, hpass.recorded.grow hgrows⟩

theorem CatchUp.Invariant.grow {pass : CatchUp}
    (hpass : pass.Invariant detector allocation index store)
    (hgrows : index.Grows announced completed indexedBlock)
    (htime : ∀ second, pass.committedPass = some second →
      NotOvertaken detector allocation
        (index.grown announced completed indexedBlock) second.pendingAfter
        second.finalizedThrough) :
    pass.Invariant detector allocation
      (index.grown announced completed indexedBlock) store := by
  cases pass with
  | idle => trivial
  | requestPending replay after => exact AttributedUpTo.grow hpass hgrows
  | candidates replay after notes hasMore =>
      exact ⟨hpass.1.grow hgrows, hpass.2.grow⟩
  | readHead replay after => exact AttributedUpTo.grow hpass hgrows
  | requestCommitted second =>
      exact CommittedPass.Invariant.grow hpass hgrows (htime second rfl)
  | requestCandidates second page =>
      exact ⟨hpass.1.grow hgrows (htime second rfl), hpass.2.grow⟩
  | discoveries second page found =>
      exact ⟨hpass.1.grow hgrows (htime second rfl), hpass.2.1.grow,
        hpass.2.2⟩
  | completions second notes pageLen =>
      exact ⟨hpass.1.grow hgrows (htime second rfl), hpass.2.grow⟩

end Growth

/-! ## The steps of a pass -/

namespace LifecycleState

variable {state after : LifecycleState Id Addr Secret Field Note}

theorem catchUpCursor_attributed (hinv : state.Invariant detector allocation)
    (replay : Bool) :
    AttributedUpTo detector allocation state.index state.store
      (catchUpCursor state.store .pending replay) := by
  unfold catchUpCursor
  split
  · exact .genesis
  · exact hinv.attributed

theorem catchUpCursor_recorded (hinv : state.Invariant detector allocation)
    (replay : Bool) :
    RecordedUpTo detector allocation state.index state.store
      (catchUpCursor state.store .committed replay) := by
  unfold catchUpCursor
  split
  · exact .genesis
  · exact hinv.recorded

/-- Changing the pass alone. -/
theorem Invariant.toPass (hinv : state.Invariant detector allocation)
    {pass : CatchUp} (replayHistory : Bool)
    (watched : List (WatchedAllocation Id Addr Secret))
    (hpass : pass.Invariant detector allocation state.index state.store) :
    Invariant detector allocation { state with
      watched := watched
      replayHistory := replayHistory
      pass := pass } :=
  ⟨hinv.pendingSorted, hinv.committedSorted, hinv.attributed, hinv.recorded,
    hpass⟩

theorem Invariant.failed (hinv : state.Invariant detector allocation) :
    state.failed.Invariant detector allocation :=
  hinv.toPass _ _ trivial

/-- A step of the pass which read a candidate. -/
theorem Invariant.afterCandidate (hinv : state.Invariant detector allocation)
    {note : CurvyPendingNote}
    {notes : List CurvyPendingNote} {replay hasMore : Bool}
    {cursor : Option CurvyEventCursor}
    {stored : CurvyDepositState Id Addr Field Note}
    (hpass : state.pass = .candidates replay cursor (note :: notes) hasMore)
    (hstep : CandidateStep detector allocation state.store stored note) :
    Invariant detector allocation { state with
      store := stored
      pass := .candidates replay (some note.position) notes hasMore } := by
  have hcurrent := hinv.pass
  rw [hpass] at hcurrent
  obtain ⟨hread, hreading⟩ := hcurrent
  have hnext := hread.advance hinv.pendingSorted hreading hstep
  refine ⟨hinv.pendingSorted, hinv.committedSorted, ?_, ?_, hnext, ?_⟩
  · change AttributedUpTo detector allocation state.index stored
      stored.pendingCursor
    rw [hstep.pendingCursor]
    exact hnext
  · change RecordedUpTo detector allocation state.index stored
      stored.committedCursor
    rw [hstep.committedCursor]
    exact hinv.recorded.keep hstep.keeps
  · exact (hreading.advance hinv.pendingSorted).1

/-- A step of the pass which read a final completion. -/
theorem Invariant.afterCompletion (hinv : state.Invariant detector allocation)
    {note : CurvyCommittedNote} {notes : List CurvyCommittedNote}
    {pass : CommittedPass} {pageLen : ℕ}
    (hpass : state.pass = .completions pass (note :: notes) pageLen)
    (hfinal : ¬ pass.finalizedThrough < note.position.block)
    (hnext : state.advance detector = some after) :
    after.Invariant detector allocation := by
  have hcurrent := hinv.pass
  rw [hpass] at hcurrent
  obtain ⟨hsecond, hreading⟩ := hcurrent
  simp only [advance, hpass, if_neg hfinal] at hnext
  obtain ⟨stored, result, hprocess⟩ :
      ∃ stored result, state.store.processCompletion detector note =
        (stored, result) := ⟨_, _, rfl⟩
  obtain ⟨hcursor, hkeeps, hcase⟩ :=
    processCompletion_step allocation hprocess
  have hattributed : AttributedUpTo detector allocation state.index stored
      stored.pendingCursor := by
    rw [hcursor]
    exact hinv.attributed.keep hkeeps
  have hrecordedTo : ∀ _ : CompletionRecorded detector allocation state.store
      stored note, RecordedUpTo detector allocation state.index stored
        (some note.position) := fun hrecorded =>
    hsecond.advance hinv.committedSorted hreading hfinal hkeeps hrecorded
  have hrecorded : RecordedUpTo detector allocation state.index stored
      stored.committedCursor := by
    obtain ⟨rfl, _⟩ | hdone := hcase
    · exact hinv.recorded
    · rw [hdone.committedCursor]
      exact hrecordedTo hdone
  rw [hprocess] at hnext
  cases result with
  | error error =>
      simp only [Option.some.injEq] at hnext
      subst hnext
      exact ⟨hinv.pendingSorted, hinv.committedSorted, hattributed, hrecorded,
        trivial⟩
  | ok notified =>
      simp only [Option.some.injEq] at hnext
      subst hnext
      obtain ⟨_, error, herror⟩ | hdone := hcase
      · cases herror
      · exact ⟨hinv.pendingSorted, hinv.committedSorted, hattributed, hrecorded,
          ⟨hsecond.attributed.keep hkeeps, hsecond.notOvertaken,
            hrecordedTo hdone⟩, (hreading.advance hinv.committedSorted).1⟩

theorem Invariant.afterAdvance (hsound : detector.Sound registered)
    (hinv : state.Invariant detector allocation)
    (hallowed : state.WatchedInTime detector allocation registered .advance)
    (hnext : state.advance detector = some after) :
    after.Invariant detector allocation := by
  have hcurrent := hinv.pass
  cases hpass : state.pass with
  | idle =>
      simp only [advance, hpass] at hnext
      cases hnext
  | requestPending replay cursor =>
      rw [hpass] at hcurrent
      simp only [advance, hpass, Option.some.injEq] at hnext
      subst hnext
      exact hinv.toPass _ _ ⟨hcurrent, .page _ _ _⟩
  | candidates replay cursor notes hasMore =>
      cases notes with
      | nil =>
          rw [hpass] at hcurrent
          simp only [advance, hpass, Option.some.injEq] at hnext
          subst hnext
          refine hinv.toPass _ _ ?_
          split
          · exact hcurrent.1
          · exact hcurrent.1
      | cons note notes =>
          simp only [advance, hpass] at hnext
          cases hprocess : state.store.processCandidate detector state.watched
              note with
          | error error =>
              simp only [hprocess, Option.some.injEq] at hnext
              subst hnext
              exact hinv.failed
          | ok result =>
              obtain ⟨stored, watching⟩ := result
              obtain ⟨rfl, hstep⟩ := processCandidate_step hsound
                hallowed.watched hallowed.registered hprocess
              simp only [hprocess, Option.some.injEq] at hnext
              subst hnext
              exact hinv.afterCandidate hpass hstep
  | readHead replay pendingAfter =>
      rw [hpass] at hcurrent
      simp only [advance, hpass, Option.some.injEq] at hnext
      subst hnext
      exact hinv.toPass _ _ ⟨hcurrent,
        hallowed.head replay pendingAfter rfl hpass,
        catchUpCursor_recorded hinv replay⟩
  | requestCommitted pass =>
      rw [hpass] at hcurrent
      simp only [advance, hpass, Option.some.injEq] at hnext
      subst hnext
      refine hinv.toPass _ _ ?_
      split
      · exact ⟨hcurrent, .page _ _ _⟩
      · exact ⟨hcurrent, .page _ _ _⟩
  | requestCandidates pass page =>
      rw [hpass] at hcurrent
      simp only [advance, hpass, Option.some.injEq] at hnext
      subst hnext
      exact hinv.toPass _ _ ⟨hcurrent.1, hcurrent.2, rfl⟩
  | discoveries pass page found =>
      rw [hpass] at hcurrent
      obtain ⟨hsecond, hreading, rfl⟩ := hcurrent
      simp only [advance, hpass, Option.some.injEq] at hnext
      subst hnext
      exact hinv.toPass _ _ ⟨hsecond, hreading⟩
  | completions pass notes pageLen =>
      cases notes with
      | nil =>
          rw [hpass] at hcurrent
          simp only [advance, hpass, Option.some.injEq] at hnext
          subst hnext
          refine hinv.toPass _ _ ?_
          split
          · trivial
          · exact hcurrent.1
      | cons note notes =>
          by_cases hfinal : pass.finalizedThrough < note.position.block
          · simp only [advance, hpass, if_pos hfinal, Option.some.injEq]
              at hnext
            subst hnext
            exact hinv.toPass _ _ trivial
          · exact hinv.afterCompletion hpass hfinal hnext

/-! ## Runs -/

theorem Invariant.initial (finality : ℕ)
    (watched : List (WatchedAllocation Id Addr Secret)) :
    (LifecycleState.initial finality watched :
      LifecycleState Id Addr Secret Field Note).Invariant detector
        allocation :=
  ⟨List.Pairwise.nil, List.Pairwise.nil, .genesis, .genesis, trivial⟩

theorem Invariant.next {action : LifecycleAction Id Addr Secret}
    (hsound : detector.Sound registered)
    (hinv : state.Invariant detector allocation)
    (hallowed : state.WatchedInTime detector allocation registered action)
    (hnext : state.next detector action = some after) :
    after.Invariant detector allocation := by
  cases action with
  | grow announced completed indexedBlock =>
      simp only [LifecycleState.next] at hnext
      split at hnext
      next hgrows =>
        cases hnext
        exact ⟨hgrows.2.1, hgrows.2.2.1, hinv.attributed.grow hgrows,
          hinv.recorded.grow hgrows, hinv.pass.grow hgrows fun pass hpass =>
            hallowed.growth _ _ _ pass rfl hpass⟩
      next => cases hnext
  | watch watched registered =>
      simp only [LifecycleState.next, Option.some.injEq] at hnext
      subst hnext
      exact hinv.toPass _ _ hinv.pass
  | start =>
      simp only [LifecycleState.next] at hnext
      split at hnext
      next =>
        split at hnext
        next => cases hnext
        next =>
          cases hnext
          exact hinv.toPass _ _ (catchUpCursor_attributed hinv _)
      next => cases hnext
  | advance => exact hinv.afterAdvance hsound hallowed hnext
  | interrupt =>
      simp only [LifecycleState.next, Option.some.injEq] at hnext
      subst hnext
      exact hinv.failed
  | crash watched =>
      simp only [LifecycleState.next, Option.some.injEq] at hnext
      subst hnext
      exact hinv.toPass _ _ trivial

theorem invariant_of_reachable (hsound : detector.Sound registered)
    {finality : ℕ}
    (hreach : (lifecycleSystem detector finality).ReachableWithin
      (WatchedInTime detector allocation registered) state) :
    state.Invariant detector allocation := by
  refine hreach.invariant ?_ ?_
  · rintro start ⟨watched, rfl⟩
    exact Invariant.initial finality watched
  · intro before action after hinv hallowed hnext
    exact hinv.next hsound hallowed hnext

/-- The stored cursor has moved past the completion. -/
def CursorPast (state : LifecycleState Id Addr Secret Field Note)
    (completion : CurvyCommittedNote) : Prop :=
  ¬ Later state.store.committedCursor completion.position

end LifecycleState

/-- While an allocation is watched and none of its notes is committed as final
behind a pass's last pending page, every commitment which the durable cursor
has passed is recorded for the allocation. -/
theorem committedNote_recorded
    (detector : CurvyNoteDetector Addr Secret Field Owner Note)
    (registered : Set (WatchedAllocation Id Addr Secret))
    (hsound : detector.Sound registered) (finality : ℕ)
    (allocation : WatchedAllocation Id Addr Secret)
    {state : LifecycleState Id Addr Secret Field Note}
    (hreach : (lifecycleSystem detector finality).ReachableWithin
      (LifecycleState.WatchedInTime detector allocation registered) state)
    (note : CurvyPendingNote) (hnote : note ∈ state.index.pending)
    (howns : detector.Owns allocation note)
    (completion : CurvyCommittedNote)
    (hcompletion : completion ∈ state.index.committed)
    (hid : completion.noteId = note.noteId)
    (hleaf : (parseU64 completion.leafIndex).isSome = true)
    (hpast : state.CursorPast completion) :
    ∃ key, detector.parseNoteId note.noteId = .ok key ∧
      state.store.RecordedCommitted allocation.id key := by
  have hinv := LifecycleState.invariant_of_reachable hsound hreach
  have ⟨announcement, _, _, _, hparse, _, _⟩ := howns
  have hkey := CurvyNoteDetector.parseCandidate_noteId hparse
  exact ⟨announcement.noteId, hkey, hinv.recorded.recorded note hnote howns
    completion hcompletion hid hleaf hpast _ hkey⟩

/-! ## One allocation and one note -/

/-- A detector for plaintext notes: the note id is the owner's number plus the
amount. -/
def plaintextDetector : CurvyNoteDetector ℕ Unit ℕ ℕ (ℕ × ℕ) where
  expectedToken := 0
  fromStrRadix text radix := .ok (text.toList.foldl
    (fun value digit => radix * value + (digit.toNat - '0'.toNat)) 0)
  fieldChecked := some
  fieldMod := id
  fieldFromDec text := .ok (text.toList.foldl
    (fun value digit => 10 * value + (digit.toNat - '0'.toNat)) 0)
  viewTagField := UInt8.toNat
  bjjPoint := .ok
  viewerScan _ _ _ := .ok [⟨0, "1.1"⟩]
  decryptAmountToken amount token _ _ := (amount, token)
  knownOwnerNote owner _ amount _ _ _ := (owner, amount)
  noteId note := note.1 + note.2
  toBalance := HoprBalance.saturating

def soleAllocation : WatchedAllocation ℕ ℕ Unit := ⟨1, 5, ()⟩

def noteText : String :=
  "0x0000000000000000000000000000000000000000000000000000000000000007"

/-- Two units for the allocation, announced in block 1. -/
def soleNote : CurvyPendingNote :=
  ⟨⟨1, 0, 0, 0⟩, noteText, "2", "0", ["0", "0"], 0, true⟩

def soleCompletion : CurvyCommittedNote := ⟨⟨2, 0, 0, 0⟩, noteText, "0"⟩

theorem plaintextDetector_judge (announcement : Announcement ℕ)
    (viewTag : UInt8) :
    plaintextDetector.judge announcement viewTag soleAllocation =
      if announcement.encryptedToken ≠ 0 then .notOurs
      else if 5 + announcement.encryptedAmount = announcement.noteId then
        .recomputed (HoprBalance.saturating announcement.encryptedAmount)
          (5, announcement.encryptedAmount)
      else .notOurs := by
  cases announcement with
  | mk _ _ _ _ _ plain => cases plain <;> rfl

theorem plaintextDetector_sound :
    plaintextDetector.Sound {soleAllocation} where
  scan := by
    rintro candidate announcement viewTag _ rfl _ rfl amount note error _
      hjudge herror
    rw [hjudge] at herror
    cases herror
  unique := by
    rintro announcement viewTag announcement' viewTag' _ rfl _ rfl amount note
      amount' note' hjudge hjudge' hid
    rw [plaintextDetector_judge] at hjudge hjudge'
    split at hjudge
    next => cases hjudge
    next =>
      split at hjudge
      next hsum =>
        cases hjudge
        split at hjudge'
        next => cases hjudge'
        next =>
          split at hjudge'
          next hsum' =>
            cases hjudge'
            have hamount : announcement.encryptedAmount =
                announcement'.encryptedAmount := by omega
            rw [hamount]
            exact ⟨rfl, rfl⟩
          next => cases hjudge'
      next => cases hjudge

theorem soleAllocation_owns :
    plaintextDetector.Owns soleAllocation soleNote :=
  ⟨_, _, _, _, rfl, rfl, by decide⟩

/-- The allocation is watched and the index has both events of its note. -/
def soleState (store : CurvyDepositState ℕ ℕ ℕ (ℕ × ℕ)) (pass : CatchUp) :
    LifecycleState ℕ ℕ Unit ℕ (ℕ × ℕ) :=
  ⟨⟨[soleNote], [soleCompletion], 3, 1⟩, store, [soleAllocation], false, pass⟩

theorem soleState_watched (store : CurvyDepositState ℕ ℕ ℕ (ℕ × ℕ))
    (pass : CatchUp) :
    (soleState store pass).Watched soleAllocation {soleAllocation} :=
  ⟨List.mem_cons_self, fun _ hother => List.mem_singleton.mp hother⟩

/-- The store once the note has been read as pending. -/
def attributedStore : CurvyDepositState ℕ ℕ ℕ (ℕ × ℕ) :=
  CurvyDepositState.empty.recordOwnedCandidate 7
    ⟨⟨1, 5, HoprBalance.saturating 2⟩, (5, 2)⟩ soleNote.position

/-- The store once the note is committed. -/
def committedStore : CurvyDepositState ℕ ℕ ℕ (ℕ × ℕ) :=
  { attributedStore with
    committedCursor := some soleCompletion.position
    ownedNotes := attributedStore.ownedNotes.insert (1, 7)
      ⟨⟨⟨1, 5, .saturating 2⟩, (5, 2)⟩, true, 0⟩ }

/-- The note is read as pending first and as committed later. -/
theorem committedNote_recorded_sole :
    ∃ state : LifecycleState ℕ ℕ Unit ℕ (ℕ × ℕ),
      state.CursorPast soleCompletion ∧
      ∃ key, plaintextDetector.parseNoteId soleNote.noteId = .ok key ∧
        state.store.RecordedCommitted soleAllocation.id key := by
  let Allowed (state : LifecycleState ℕ ℕ Unit ℕ (ℕ × ℕ)) :=
    LifecycleState.WatchedInTime plaintextDetector soleAllocation
      {soleAllocation} state
  have hadvance : ∀ store pass,
      (∀ replay cursor, pass = .readHead replay cursor →
        cursor = some soleNote.position) →
      Allowed (soleState store pass) .advance := by
    intro store pass hhead
    refine ⟨soleState_watched store pass, ?_, ?_⟩
    · intro replay cursor _ hpass note hnote _ hlater
      cases List.mem_singleton.mp hnote
      rw [hhead replay cursor hpass, later_some] at hlater
      exact absurd hlater (lt_irrefl _)
    · intro announced completed indexedBlock pass haction
      cases haction
  have hidle : ∀ state action,
      state.Watched soleAllocation {soleAllocation} → state.pass = .idle →
      Allowed state action := by
    intro state action hwatched hpass
    refine ⟨hwatched, ?_, ?_⟩
    · intro replay cursor _ hhead
      rw [hpass] at hhead
      cases hhead
    · intro announced completed indexedBlock pass _ hsecond
      rw [hpass] at hsecond
      cases hsecond
  let Reach := (lifecycleSystem plaintextDetector 1).ReachableWithin Allowed
  let second : CommittedPass := ⟨false, some soleNote.position, 2, none⟩
  have h₀ : Reach (LifecycleState.initial 1 [soleAllocation]) := .init ⟨_, rfl⟩
  have h₁ : Reach (soleState .empty .idle) :=
    h₀.step (hidle _ (.grow [soleNote] [soleCompletion] 3)
      ⟨List.mem_cons_self, fun _ hother => List.mem_singleton.mp hother⟩ rfl)
      rfl
  have h₂ : Reach (soleState .empty (.requestPending false none)) :=
    h₁.step (hidle _ .start (soleState_watched _ _) rfl) rfl
  have h₃ : Reach (soleState .empty (.candidates false none [soleNote] false)) :=
    h₂.step (hadvance _ _ fun _ _ h => by cases h) rfl
  have h₄ : Reach (soleState attributedStore
      (.candidates false (some soleNote.position) [] false)) :=
    h₃.step (hadvance _ _ fun _ _ h => by cases h) rfl
  have h₅ : Reach (soleState attributedStore
      (.readHead false (some soleNote.position))) :=
    h₄.step (hadvance _ _ fun _ _ h => by cases h) rfl
  have h₆ : Reach (soleState attributedStore (.requestCommitted second)) :=
    h₅.step (hadvance _ _ fun _ _ h => by cases h; rfl) rfl
  have h₇ : Reach (soleState attributedStore
      (.requestCandidates second [soleCompletion])) :=
    h₆.step (hadvance _ _ fun _ _ h => by cases h) rfl
  have h₈ : Reach (soleState attributedStore
      (.discoveries second [soleCompletion] [])) :=
    h₇.step (hadvance _ _ fun _ _ h => by cases h) rfl
  have h₉ : Reach (soleState attributedStore
      (.completions second [soleCompletion] 1)) :=
    h₈.step (hadvance _ _ fun _ _ h => by cases h) rfl
  obtain ⟨state, hreach, hpending, hcommitted, hcursor⟩ :
      ∃ state, Reach state ∧ state.index.pending = [soleNote] ∧
        state.index.committed = [soleCompletion] ∧
        state.store.committedCursor = some soleCompletion.position :=
    ⟨_, h₉.step (hadvance _ _ fun _ _ h => by cases h) rfl, rfl, rfl, rfl⟩
  have hpast : state.CursorPast soleCompletion := by
    rw [LifecycleState.CursorPast, hcursor, later_some]
    exact lt_irrefl _
  exact ⟨state, hpast, committedNote_recorded plaintextDetector {soleAllocation}
    plaintextDetector_sound 1 soleAllocation hreach soleNote
    (by rw [hpending]; exact List.mem_cons_self) soleAllocation_owns
    soleCompletion (by rw [hcommitted]; exact List.mem_cons_self) rfl
    (by decide) hpast⟩

/-- A note which is announced, committed and final between the last pending
page and the reading of the head is passed over. -/
theorem committedNote_recorded_not_always :
    ¬ ∀ (finality : ℕ) (state : LifecycleState ℕ ℕ Unit ℕ (ℕ × ℕ)),
      (lifecycleSystem plaintextDetector finality).ReachableWithin
        (fun state _ => state.Watched soleAllocation {soleAllocation}) state →
      ∀ note ∈ state.index.pending,
        plaintextDetector.Owns soleAllocation note →
        ∀ completion ∈ state.index.committed,
          completion.noteId = note.noteId →
          (parseU64 completion.leafIndex).isSome = true →
          state.CursorPast completion →
          ∃ key, plaintextDetector.parseNoteId note.noteId = .ok key ∧
            state.store.RecordedCommitted soleAllocation.id key := by
  intro hclaim
  let Reach := (lifecycleSystem plaintextDetector 1).ReachableWithin
    fun state _ => LifecycleState.Watched soleAllocation {soleAllocation} state
  have hstep : ∀ {state : LifecycleState ℕ ℕ Unit ℕ (ℕ × ℕ)},
      Reach state → ∀ action after, state.watched = [soleAllocation] →
      state.next plaintextDetector action = some after → Reach after := by
    intro state hreach action after hwatched hnext
    refine hreach.step ⟨?_, ?_⟩ hnext
    · rw [hwatched]
      exact List.mem_cons_self
    · intro other hother
      rw [hwatched] at hother
      exact List.mem_singleton.mp hother
  let before (pass : CatchUp) : LifecycleState ℕ ℕ Unit ℕ (ℕ × ℕ) :=
    ⟨⟨[], [], 0, 1⟩, .empty, [soleAllocation], false, pass⟩
  let second : CommittedPass := ⟨false, none, 2, none⟩
  have h₀ : Reach (before .idle) := .init ⟨_, rfl⟩
  have h₁ := hstep h₀ .start (before (.requestPending false none)) rfl rfl
  have h₂ := hstep h₁ .advance (before (.candidates false none [] false)) rfl rfl
  have h₃ := hstep h₂ .advance (before (.readHead false none)) rfl rfl
  have h₄ := hstep h₃ (.grow [soleNote] [soleCompletion] 3)
    (soleState .empty (.readHead false none)) rfl rfl
  have h₅ := hstep h₄ .advance
    (soleState .empty (.requestCommitted second)) rfl rfl
  have h₆ := hstep h₅ .advance
    (soleState .empty (.requestCandidates second [soleCompletion])) rfl rfl
  have h₇ := hstep h₆ .advance
    (soleState .empty (.discoveries second [soleCompletion] [])) rfl rfl
  have h₈ := hstep h₇ .advance
    (soleState .empty (.completions second [soleCompletion] 1)) rfl rfl
  have h₉ := hstep h₈ .advance _ rfl rfl
  have hpast : ¬ Later (some soleCompletion.position)
    soleCompletion.position := by decide
  obtain ⟨key, _, record, hrecord, _⟩ := hclaim 1 _ h₉ soleNote
    List.mem_cons_self soleAllocation_owns soleCompletion List.mem_cons_self
    rfl (by decide) hpast
  cases hrecord

end HoprStrategy.Curvy
