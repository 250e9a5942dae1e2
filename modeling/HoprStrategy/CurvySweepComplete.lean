import HoprStrategy.CurvyCatchUp
import HoprStrategy.CurvySweepSteps

/-!
# What a sweep leaves behind

A sweep which succeeds has removed the notes which were committed when it last
read them.  It leaves a note behind which was pending then, and one which the
lifecycle discovers afterwards.
-/

namespace HoprStrategy.Curvy

open Library

variable {Id Addr Secret Field Owner Note : Type}
  [DecidableEq Id] [DecidableEq Field]

namespace SweepState

variable {detector : CurvyNoteDetector Addr Secret Field Owner Note}
  {amountIsZero : Note → Bool} {id : Id}
  {state after : SweepState Id Addr Secret Field Note}
  {action : SweepAction Id Addr Secret Field} {noteId : Field}

/-- Whatever the recovery state still holds for the allocation was spent, by
the sweep or before it. -/
def LeavesNothing (state : SweepState Id Addr Secret Field Note) (id : Id) :
    Prop :=
  ∀ noteId, state.lifecycle.store.Owned id noteId → noteId ∈ state.spent

/-- Every unspent note of the allocation is committed. -/
def AllCommitted (state : SweepState Id Addr Secret Field Note) (id : Id) :
    Prop :=
  ∀ noteId record,
    state.lifecycle.store.ownedNotes.lookup (id, noteId) = some record →
    noteId ∉ state.spent → record.committed = true

/-- The step records no unspent note for the allocation which the recovery
state does not hold already. -/
def DiscoversNothing (id : Id) (state : SweepState Id Addr Secret Field Note)
    (_action : SweepAction Id Addr Secret Field)
    (after : SweepState Id Addr Secret Field Note) : Prop :=
  ∀ noteId, ¬ state.lifecycle.store.Owned id noteId →
    after.lifecycle.store.Owned id noteId → noteId ∈ state.spent

/-- The sweep goes on with notes which it has read. -/
def HasRead (detector : CurvyNoteDetector Addr Secret Field Owner Note)
    (state : SweepState Id Addr Secret Field Note) : Prop :=
  state.phase.toSweep detector ≠ none

/-! ## The steps after the read -/

theorem lifecycle_lost {step : LifecycleAction Id Addr Secret}
    (hinv : state.Invariant detector amountIsZero id)
    (hnext : state.next detector amountIsZero id (.lifecycle step) =
      some after)
    (hread : after.HasRead detector) :
    state.phase = after.phase ∧ state.spent = after.spent ∧
      ((∀ noteId, ¬ after.Lost detector id noteId) ↔
        (∀ noteId, ¬ state.Lost detector id noteId) ∧
          DiscoversNothing id state (.lifecycle step) after) := by
  simp only [next] at hnext
  obtain ⟨lifecycle, hstep, hafter⟩ := Option.bind_eq_some_iff.mp hnext
  cases hafter
  have hphase : state.phase.afterLifecycle step = state.phase := by
    cases step with
    | crash order => exact absurd rfl hread
    | _ => rfl
  have howned : ∀ noteId, state.lifecycle.store.Owned id noteId →
      lifecycle.store.Owned id noteId :=
    fun noteId hold => LifecycleState.next_owned hstep hold
  refine ⟨hphase.symm, rfl, ?_⟩
  unfold Lost DiscoversNothing
  simp only [hphase]
  constructor
  · intro hnone
    constructor
    · intro noteId hlost
      exact hnone noteId ⟨howned noteId hlost.1, hlost.2⟩
    · intro noteId hnew hfound
      by_contra hunspent
      apply hnone noteId
      refine ⟨hfound, hunspent, ?_⟩
      intro ids hids hmem
      rcases hinv.held ids hids noteId hmem with hold | hspent
      · exact hnew hold
      · exact hunspent hspent
  · intro hboth noteId hlost
    by_cases hold : state.lifecycle.store.Owned id noteId
    · exact hboth.1 noteId ⟨hold, hlost.2⟩
    · exact hlost.2.1 (hboth.2 noteId hold hlost.1)

/-- A step without a read keeps the invariant, and nothing is lost exactly as
long as nothing is discovered. -/
theorem next_lost
    (hamount : CurvyDepositState.AmountKnown detector amountIsZero)
    (hinv : state.Invariant detector amountIsZero id)
    (hread : ¬ action.IsRead)
    (hnext : state.next detector amountIsZero id action = some after) :
    after.Invariant detector amountIsZero id ∧
      (after.HasRead detector → state.HasRead detector ∧
        ((∀ noteId, ¬ after.Lost detector id noteId) ↔
          (∀ noteId, ¬ state.Lost detector id noteId) ∧
            DiscoversNothing id state action after)) := by
  have hdetected := next_detected hamount hinv.detected hnext
  have hconsistent := next_consistent hinv hnext
  by_cases hlifecycle : ∃ step, action = .lifecycle step
  · obtain ⟨step, rfl⟩ := hlifecycle
    by_cases hlive : after.HasRead detector
    · obtain ⟨hphase, hspent, hlost⟩ := lifecycle_lost hinv hnext hlive
      have howned : ∀ noteId, state.lifecycle.store.Owned id noteId →
          after.lifecycle.store.Owned id noteId := by
        intro noteId hold
        simp only [next] at hnext
        obtain ⟨lifecycle, hstep, hafter⟩ := Option.bind_eq_some_iff.mp hnext
        cases hafter
        exact LifecycleState.next_owned hstep hold
      constructor
      · refine ⟨hdetected, hconsistent, ?_⟩
        rw [← hphase, ← hspent]
        intro ids hids noteId hmem
        exact (hinv.held ids hids noteId hmem).imp_left (howned noteId)
      · intro _
        constructor
        · unfold HasRead
          rw [hphase]
          exact hlive
        · exact hlost
    · constructor
      · refine ⟨hdetected, hconsistent, ?_⟩
        intro ids hids
        exact absurd (fun hnone => by rw [hids] at hnone; cases hnone) hlive
      · intro hlive'
        exact absurd hlive' hlive
  · have hother : ∀ step, action ≠ .lifecycle step :=
      fun step heq => hlifecycle ⟨step, heq⟩
    rcases next_ends hinv hread hother hnext with
      hnone | ⟨ids, gone, fresh, ids', hmoves⟩
    · constructor
      · refine ⟨hdetected, hconsistent, ?_⟩
        intro ids hids
        rw [hnone] at hids
        cases hids
      · intro hlive
        exact absurd hnone hlive
    · constructor
      · exact ⟨hdetected, hconsistent, hmoves.held hinv⟩
      · intro _
        have hdiscovers : DiscoversNothing id state action after := by
          intro noteId hnew hfound
          exact absurd ((hmoves.owned noteId).mp hfound).1 hnew
        constructor
        · unfold HasRead
          rw [hmoves.was]
          exact Option.some_ne_none ids
        · simp only [hmoves.lost, hdiscovers, and_true]

/-! ## The read -/

theorem readNotes_next {reply : Except CurvyStateError Unit}
    (hnext : state.next detector amountIsZero id (.readNotes reply) =
      some after) :
    ∃ awaited, state.phase = .reading awaited ∧
      after = state.readNotes amountIsZero id awaited reply := by
  simp only [next] at hnext
  split at hnext
  · rename_i awaited hphase
    cases hnext
    exact ⟨awaited, hphase, rfl⟩
  · cases hnext

omit [DecidableEq Field] in
/-- The notes of a read, when the sweep goes on with them. -/
theorem readNotes_hasRead {awaited : Bool}
    {reply : Except CurvyStateError Unit}
    (hread : (state.readNotes amountIsZero id awaited reply).HasRead detector) :
    ∃ notes, state.lifecycle.store.committedNotes id = .ok notes ∧
      (state.readNotes amountIsZero id awaited reply).phase.toSweep detector =
        some (noteIds detector notes) := by
  unfold readNotes at hread ⊢
  split at hread
  · exact absurd rfl hread
  · split at hread
    · exact absurd rfl hread
    · rename_i notes hnotes
      refine ⟨notes, hnotes, ?_⟩
      have hcases : (SweepPhase.reconcile amountIsZero awaited notes []
          ([] : List Field)).toSweep detector = none ∨ _ := reconcile_toSweep
      rcases hcases with hnone | hsome
      · exact absurd hnone hread
      · simpa [noteIds] using hsome

omit [DecidableEq Field] in
theorem readNotes_store {awaited : Bool}
    {reply : Except CurvyStateError Unit} :
    (state.readNotes amountIsZero id awaited reply).lifecycle =
        state.lifecycle ∧
      (state.readNotes amountIsZero id awaited reply).spent = state.spent := by
  unfold readNotes
  split
  · exact ⟨rfl, rfl⟩
  · split
    · exact ⟨rfl, rfl⟩
    · exact ⟨rfl, rfl⟩

/-- The ids which are read are those of the committed records. -/
theorem mem_noteIds
    (hdetected : state.lifecycle.store.Detected detector amountIsZero)
    {notes : List (CommittedCurvyNote Id Addr Note)}
    (hnotes : state.lifecycle.store.committedNotes id = .ok notes) :
    noteId ∈ noteIds detector notes ↔
      ∃ record, state.lifecycle.store.ownedNotes.lookup (id, noteId) =
        some record ∧ record.committed = true := by
  constructor
  · intro hmem
    obtain ⟨note, hnote, rfl⟩ := List.mem_map.mp hmem
    obtain ⟨key, record, hlookup, hcommitted, _, hsame⟩ :=
      CurvyDepositState.mem_committedNotes hnotes hnote
    have hkey := (hdetected id key record hlookup).1
    refine ⟨record, ?_, hcommitted⟩
    rw [hsame, hkey]
    exact hlookup
  · intro hrecord
    obtain ⟨record, hlookup, hcommitted⟩ := hrecord
    obtain ⟨note, hnote, hsame⟩ :=
      CurvyDepositState.committedNotes_mem hnotes hlookup hcommitted
    apply List.mem_map.mpr
    refine ⟨note, hnote, ?_⟩
    rw [hsame]
    exact (hdetected id noteId record hlookup).1

/-- A read which the sweep goes on with loses the pending notes. -/
theorem readNotes_lost
    (hdetected : state.lifecycle.store.Detected detector amountIsZero)
    {reply : Except CurvyStateError Unit}
    (hnext : state.next detector amountIsZero id (.readNotes reply) =
      some after) :
    after.Invariant detector amountIsZero id ∧
      (after.HasRead detector →
        ((∀ noteId, ¬ after.Lost detector id noteId) ↔
          state.AllCommitted id)) := by
  obtain ⟨awaited, _, rfl⟩ := readNotes_next hnext
  obtain ⟨hlifecycle, hspent⟩ :
      (state.readNotes amountIsZero id awaited reply).lifecycle =
          state.lifecycle ∧
        (state.readNotes amountIsZero id awaited reply).spent = state.spent :=
    readNotes_store
  have hmem : ∀ ids, (state.readNotes amountIsZero id awaited
      reply).phase.toSweep detector = some ids → ∀ noteId, noteId ∈ ids ↔
        ∃ record, state.lifecycle.store.ownedNotes.lookup (id, noteId) =
          some record ∧ record.committed = true := by
    intro ids hids noteId
    have hread : (state.readNotes amountIsZero id awaited reply).HasRead
        detector := by
      unfold HasRead
      rw [hids]
      exact Option.some_ne_none ids
    obtain ⟨notes, hnotes, hsome⟩ := readNotes_hasRead hread
    rw [hids, Option.some.injEq] at hsome
    rw [hsome]
    exact mem_noteIds hdetected hnotes
  constructor
  · refine ⟨?_, readNotes_consistent hdetected, ?_⟩
    · rw [hlifecycle]
      exact hdetected
    · intro ids hids noteId hin
      obtain ⟨record, hlookup, _⟩ := (hmem ids hids noteId).mp hin
      apply Or.inl
      rw [hlifecycle]
      unfold CurvyDepositState.Owned
      rw [hlookup]
      rfl
  · intro hread
    obtain ⟨ids, hids⟩ := Option.ne_none_iff_exists'.mp hread
    unfold Lost AllCommitted
    rw [hlifecycle, hspent]
    constructor
    · intro hnone noteId record hlookup hunspent
      by_contra hpending
      apply hnone noteId
      refine ⟨?_, hunspent, ?_⟩
      · unfold CurvyDepositState.Owned
        rw [hlookup]
        rfl
      · intro found hfound hin
        obtain ⟨record', hlookup', hcommitted⟩ :=
          (hmem found hfound noteId).mp hin
        rw [hlookup, Option.some.injEq] at hlookup'
        rw [hlookup'] at hpending
        exact hpending hcommitted
    · intro hall noteId hlost
      obtain ⟨howned, hunspent, hids'⟩ := hlost
      obtain ⟨record, hlookup⟩ := Option.isSome_iff_exists.mp howned
      apply hids' ids hids
      rw [hmem ids hids]
      exact ⟨record, hlookup, hall noteId record hlookup hunspent⟩

/-! ## Whole runs -/

/-- Nothing is lost to a sweep which is about to return exactly when it leaves
nothing behind. -/
theorem leavesNothing_iff (hphase : state.phase = .forgetting) :
    state.LeavesNothing id ↔ ∀ noteId, ¬ state.Lost detector id noteId := by
  unfold LeavesNothing Lost
  rw [hphase]
  constructor
  · intro hall noteId hlost
    exact hlost.2.1 (hall noteId hlost.1)
  · intro hnone noteId howned
    by_contra hunspent
    apply hnone noteId
    refine ⟨howned, hunspent, ?_⟩
    intro ids hids hmem
    cases hids
    cases hmem

theorem removeScanSecret_next
    (hnext : state.next detector amountIsZero id .removeScanSecret =
      some after) :
    state.phase = .forgetting ∧
      after = { state with phase := .returned (.ok ()) } := by
  simp only [next] at hnext
  split at hnext
  · rename_i hphase
    cases hnext
    exact ⟨hphase, rfl⟩
  · cases hnext

/-- Every successful sweep has read its notes; after the last read it leaves
nothing behind exactly when no unspent note was pending at that read and none
was discovered since. -/
theorem leavesNothing
    (detector : CurvyNoteDetector Addr Secret Field Owner Note)
    (amountIsZero : Note → Bool)
    (hamount : CurvyDepositState.AmountKnown detector amountIsZero) (id : Id)
    {start swept returned : SweepState Id Addr Secret Field Note}
    {actions : List (SweepAction Id Addr Secret Field)}
    (hinit : (sweepSystem detector amountIsZero id).init start)
    (hrun : (sweepSystem detector amountIsZero id).run start actions =
      some swept)
    (hreturn : (sweepSystem detector amountIsZero id).next swept
      .removeScanSecret = some returned) :
    ∃ before last rest read after, actions = before ++ last :: rest ∧
      last.IsRead ∧ (∀ action ∈ rest, ¬ action.IsRead) ∧
      (sweepSystem detector amountIsZero id).run start before = some read ∧
      (sweepSystem detector amountIsZero id).next read last = some after ∧
      (sweepSystem detector amountIsZero id).run after rest = some swept ∧
      returned.phase = .returned (.ok ()) ∧
      (returned.LeavesNothing id ↔
        read.AllCommitted id ∧
          (sweepSystem detector amountIsZero id).Throughout
            (DiscoversNothing id) after rest) := by
  have hnext : swept.next detector amountIsZero id .removeScanSecret =
      some returned := hreturn
  obtain ⟨hforgetting, rfl⟩ := removeScanSecret_next hnext
  have hswept : swept.HasRead detector := by
    unfold HasRead
    rw [hforgetting]
    exact Option.some_ne_none []
  have hstep : ∀ before action after,
      before.Invariant detector amountIsZero id → ¬ action.IsRead →
      (sweepSystem detector amountIsZero id).next before action = some after →
      after.Invariant detector amountIsZero id ∧
        (after.HasRead detector → before.HasRead detector ∧
          ((∀ noteId, ¬ after.Lost detector id noteId) ↔
            (∀ noteId, ¬ before.Lost detector id noteId) ∧
              DiscoversNothing id before action after)) :=
    fun before action after hinv hread hnext =>
      next_lost hamount hinv hread hnext
  have hstart : start.Invariant detector amountIsZero id := by
    refine ⟨hinit.2, ?_, ?_⟩
    · rw [hinit.1]
      trivial
    · intro ids hids
      rw [hinit.1] at hids
      cases hids
  rcases TransitionSystem.run_last SweepAction.IsRead hrun with
    hnone | ⟨before, last, rest, read, after, hactions, hlast, hrest, hbefore,
      hread, hafter⟩
  · -- without a read the sweep never gets to its notes
    have hlive := (TransitionSystem.run_throughout hstep hstart hnone hrun
      hswept).1
    exact absurd (by rw [hinit.1]; rfl) hlive
  · refine ⟨before, last, rest, read, after, hactions, hlast, hrest, hbefore,
      hread, hafter, rfl, ?_⟩
    cases last with
    | readNotes reply =>
        have hdetected : read.lifecycle.store.Detected detector
            amountIsZero := by
          have hkeeps : ∀ earlier action later,
              earlier.lifecycle.store.Detected detector amountIsZero →
              (sweepSystem detector amountIsZero id).next earlier action =
                some later →
              later.lifecycle.store.Detected detector amountIsZero :=
            fun earlier action later hearlier hnext =>
              next_detected hamount hearlier hnext
          exact TransitionSystem.run_invariant hkeeps before hinit.2 hbefore
        obtain ⟨hinv, hlost⟩ := readNotes_lost hdetected hread
        obtain ⟨hlive, hgood⟩ := TransitionSystem.run_throughout hstep hinv
          hrest hafter hswept
        have hleaves : LeavesNothing
            { swept with phase := .returned (.ok ()) } id ↔
              ∀ noteId, ¬ swept.Lost detector id noteId :=
          leavesNothing_iff hforgetting
        rw [hleaves, hgood, hlost hlive]
    | _ => exact absurd hlast fun hfalse => hfalse

/-! ## One allocation -/

def plaintextZero (note : ℕ × ℕ) : Bool :=
  (HoprBalance.saturating note.2).isZero

theorem plaintextZero_known :
    CurvyDepositState.AmountKnown plaintextDetector plaintextZero :=
  fun _ _ _ _ _ _ => rfl

/-- A sweep of the sole allocation over a store. -/
def soleSweep (store : CurvyDepositState ℕ ℕ ℕ (ℕ × ℕ)) (spent : List ℕ)
    (phase : SweepPhase ℕ ℕ ℕ (ℕ × ℕ)) : SweepState ℕ ℕ Unit ℕ (ℕ × ℕ) :=
  ⟨soleState store .idle, spent, phase⟩

/-- One committed note is read, withdrawn and removed. -/
def sweepActions : List (SweepAction ℕ ℕ Unit ℕ) :=
  [.enter (.ok ()), .readNotes (.ok ()), .nullifierSpent (.ok false),
    .withdrawChunk, .withdrawn, .removeSpent (.ok ())]

theorem committedStore_detected :
    committedStore.Detected plaintextDetector plaintextZero := by
  intro id noteId record hlookup
  have hmem := AList.mem_lookup_iff.mp hlookup
  rcases List.mem_singleton.mp hmem with heq
  cases heq
  exact ⟨rfl, rfl⟩

theorem run_sweepActions :
    (sweepSystem plaintextDetector plaintextZero 1).run
        (soleSweep committedStore [] .idle) sweepActions =
      some (soleSweep (committedStore.removeSpentNotes 1 [7]) [7]
        .forgetting) := rfl

/-- The sweep of a committed note leaves nothing, so that every note had been
committed when it was read. -/
theorem leavesNothing_sole :
    ∃ before read,
      (sweepSystem plaintextDetector plaintextZero 1).run
          (soleSweep committedStore [] .idle) before = some read ∧
        read.AllCommitted 1 := by
  have hleaves : (soleSweep (committedStore.removeSpentNotes 1 [7]) [7]
      (.returned (.ok ()))).LeavesNothing 1 := by
    intro noteId howned
    cases howned
  obtain ⟨before, _, _, read, _, _, _, _, hbefore, _, _, _, hiff⟩ :=
    leavesNothing plaintextDetector plaintextZero plaintextZero_known 1
      ⟨rfl, committedStore_detected⟩ run_sweepActions rfl
  exact ⟨before, read, hbefore, (hiff.mp hleaves).1⟩

/-- A second note of the allocation is pending. -/
def pendingStore : CurvyDepositState ℕ ℕ ℕ (ℕ × ℕ) :=
  committedStore.recordOwnedCandidate 8 ⟨⟨1, 5, .saturating 3⟩, (5, 3)⟩
    ⟨3, 0, 0, 0⟩

theorem pendingStore_detected :
    pendingStore.Detected plaintextDetector plaintextZero := by
  intro id noteId record hlookup
  have hmem := AList.mem_lookup_iff.mp hlookup
  rcases List.mem_cons.mp hmem with heq | hrest
  · cases heq
    exact ⟨rfl, rfl⟩
  · rcases List.mem_singleton.mp hrest with heq
    cases heq
    exact ⟨rfl, rfl⟩

/-- The sweep succeeds with the note pending, which it leaves behind. -/
theorem leavesNothing_not_always :
    ¬ ∀ (id : ℕ) (start swept returned : SweepState ℕ ℕ Unit ℕ (ℕ × ℕ))
      (actions : List (SweepAction ℕ ℕ Unit ℕ)),
      (sweepSystem plaintextDetector plaintextZero id).init start →
      (sweepSystem plaintextDetector plaintextZero id).run start actions =
        some swept →
      (sweepSystem plaintextDetector plaintextZero id).next swept
        .removeScanSecret = some returned →
      returned.phase = .returned (.ok ()) → returned.LeavesNothing id := by
  intro halways
  have hrun : (sweepSystem plaintextDetector plaintextZero 1).run
      (soleSweep pendingStore [] .idle) sweepActions =
        some (soleSweep (pendingStore.removeSpentNotes 1 [7]) [7]
          .forgetting) := rfl
  have hleaves := halways 1 _ _ _ _ ⟨rfl, pendingStore_detected⟩ hrun rfl rfl
  have hmem : 8 ∈ [7] := hleaves 8 rfl
  simp at hmem

end SweepState

end HoprStrategy.Curvy
