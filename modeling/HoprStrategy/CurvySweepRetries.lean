import HoprStrategy.CurvySweepComplete

/-!
# Retries of a sweep

The SDK sends the chunks of a sweep one after the other, and names the spent
notes only when the last one went through.  After a retryable error the pool
calls it again with the notes it has read before, those of the chunks which
went through among them.
-/

namespace HoprStrategy.Curvy

open Library

variable {Id Addr Secret Field Owner Note : Type}
  [DecidableEq Id] [DecidableEq Field]

/-- The notes of the chunk which the SDK call has come to. -/
def SweepPhase.chunkIds
    (detector : CurvyNoteDetector Addr Secret Field Owner Note) :
    SweepPhase Id Addr Field Note → List Field
  | .withdrawing _ (chunk :: _) _ => chunk.map detector.noteId
  | _ => []

/-- The notes which a step hands over to be proved and submitted. -/
def SweepPhase.handedOver
    (detector : CurvyNoteDetector Addr Secret Field Owner Note)
    (phase : SweepPhase Id Addr Field Note) :
    SweepAction Id Addr Secret Field → List Field
  | .withdrawChunk => phase.chunkIds detector
  | .withdrawFails _ _ _ => phase.chunkIds detector
  | _ => []

/-- A sweep with the notes of its chunks which went through since the call
began, and the notes which were handed over again after that. -/
structure SweepCall (Id Addr Secret Field Note : Type) where
  sweep : SweepState Id Addr Secret Field Note
  delivered : List Field
  resubmitted : List Field

namespace SweepCall

variable (detector : CurvyNoteDetector Addr Secret Field Owner Note)
  (amountIsZero : Note → Bool) (id : Id)

/-- What has gone through since the call began. -/
def deliveredAfter (call : SweepCall Id Addr Secret Field Note) :
    SweepAction Id Addr Secret Field → List Field
  | .enter _ => []
  | .withdrawChunk => call.delivered ++ call.sweep.phase.chunkIds detector
  | _ => call.delivered

def next (call : SweepCall Id Addr Secret Field Note)
    (action : SweepAction Id Addr Secret Field) :
    Option (SweepCall Id Addr Secret Field Note) :=
  (call.sweep.next detector amountIsZero id action).map fun sweep =>
    { sweep
      delivered := call.deliveredAfter detector action
      resubmitted := call.resubmitted ++
        (call.sweep.phase.handedOver detector action).filter
          (· ∈ call.delivered) }

/-- The condition on a step: an attempt which is retried has delivered no
chunk. -/
def RetriesFresh (call : SweepCall Id Addr Secret Field Note) :
    SweepAction Id Addr Secret Field → Prop
  | .withdrawFails message _ beforeDeadline =>
      (isRetryableLag message && beforeDeadline) = true → call.delivered = []
  | _ => True

end SweepCall

/-- The calls of a sweep, over any recovery state. -/
def sweepCalls (detector : CurvyNoteDetector Addr Secret Field Owner Note)
    (amountIsZero : Note → Bool) (id : Id) :
    TransitionSystem (SweepCall Id Addr Secret Field Note)
      (SweepAction Id Addr Secret Field) where
  init call := (sweepSystem detector amountIsZero id).init call.sweep ∧
    call.delivered = [] ∧ call.resubmitted = []
  next := SweepCall.next detector amountIsZero id

/-! ## Notes are read once -/

section

variable (detector : CurvyNoteDetector Addr Secret Field Owner Note)

/-- The note under a key is the one which the key names. -/
def NamedBy (noteId : Field) (detected : DetectedCurvyNote Id Addr Note) :
    Prop :=
  detector.noteId detected.note = noteId

variable {detector} {store : CurvyDepositState Id Addr Field Note} {id : Id}
  {notes unspent : List (CommittedCurvyNote Id Addr Note)}

variable (id) in
theorem sessionRecords_nodup (hnames : store.EachRecord (NamedBy detector)) :
    ((store.sessionRecords id).map fun record =>
      detector.noteId record.detected.note).Nodup := by
  unfold CurvyDepositState.sessionRecords
  rw [List.map_map]
  have hkeys : (store.ownedNotes.entries.filter
      fun entry => entry.1.1 = id).Pairwise
        fun entry other => entry.1 ≠ other.1 :=
    (List.pairwise_map.mp store.ownedNotes.nodupKeys).filter _
  apply List.pairwise_map.mpr
  refine hkeys.imp_of_mem ?_
  intro entry other hentry hother hne hsame
  obtain ⟨hentry, hid⟩ := List.mem_filter.mp hentry
  obtain ⟨hother, hid'⟩ := List.mem_filter.mp hother
  have hname := hnames _ _ _ (AList.mem_lookup_iff.mpr hentry)
  have hname' := hnames _ _ _ (AList.mem_lookup_iff.mpr hother)
  rw [decide_eq_true_eq] at hid hid'
  apply hne
  refine Prod.ext (hid.trans hid'.symm) ?_
  rw [← hname, ← hname']
  exact hsame

omit [DecidableEq Id] [DecidableEq Field] in
theorem noteIds_filterMap_sublist
    (stored : List (StoredOwnedNote Id Addr Note)) :
    (noteIds detector (stored.filterMap fun note =>
      note.leafIndex.map fun leafIndex =>
        (⟨note.detected.deposit, note.detected.note, leafIndex⟩ :
          CommittedCurvyNote Id Addr Note))).Sublist
      (stored.map fun note => detector.noteId note.detected.note) := by
  induction stored with
  | nil => exact List.Sublist.refl []
  | cons note rest ih =>
      cases hleaf : note.leafIndex with
      | none =>
          rw [List.filterMap_cons, hleaf]
          exact ih.cons _
      | some leafIndex =>
          rw [List.filterMap_cons, hleaf]
          exact ih.cons_cons _

theorem committedNotes_nodup (hnames : store.EachRecord (NamedBy detector))
    (hnotes : store.committedNotes id = .ok notes) :
    (noteIds detector notes).Nodup := by
  obtain ⟨stored, hstored, hnotes⟩ := bind_eq_ok.mp hnotes
  cases hnotes
  have hsame : (stored.map fun note => detector.noteId note.detected.note) =
      (store.sessionRecords id).map fun record =>
        detector.noteId record.detected.note :=
    map_eq_map_of_mapM_eq_ok (fun record note hdecode => by
      rw [(decodeOwnedNote_ok hdecode).1]) hstored
  have hnodup := sessionRecords_nodup id hnames
  rw [← hsame] at hnodup
  exact hnodup.sublist (noteIds_filterMap_sublist stored)

omit [DecidableEq Id] [DecidableEq Field] in
theorem withdrawalChunks_nodup {amountIsZero : Note → Bool}
    (hnotes : (noteIds detector notes).Nodup) :
    ((withdrawalChunks amountIsZero notes).flatten.map detector.noteId).Nodup := by
  have hsublist : ((withdrawalChunks amountIsZero notes).flatten.map
      detector.noteId).Sublist (noteIds detector notes) := by
    have hids : noteIds detector notes =
        (notes.map (·.note)).map detector.noteId := by
      rw [noteIds, List.map_map]
      rfl
    rw [withdrawalChunks, chunks_flatten, hids]
    exact List.filter_sublist.map _
  exact hnotes.sublist hsublist

end

/-! ## What a call keeps -/

/-- The notes which are still to be handed over are none of those which have
gone through. -/
def SweepPhase.Fresh
    (detector : CurvyNoteDetector Addr Secret Field Owner Note)
    (delivered : List Field) : SweepPhase Id Addr Field Note → Prop
  | .reading _ => delivered = []
  | .awaiting => delivered = []
  | .reconciling _ notes unspent _ =>
      delivered = [] ∧ (noteIds detector (notes ++ unspent)).Nodup
  | .dropping _ unspent _ _ =>
      delivered = [] ∧ (noteIds detector unspent).Nodup
  | .withdrawing notes pending _ =>
      (noteIds detector notes).Nodup ∧
        (delivered ++ pending.flatten.map detector.noteId).Nodup
  | _ => True

structure SweepCall.Fresh
    (detector : CurvyNoteDetector Addr Secret Field Owner Note)
    (call : SweepCall Id Addr Secret Field Note) : Prop where
  names : call.sweep.lifecycle.store.EachRecord (NamedBy detector)
  phase : call.sweep.phase.Fresh detector call.delivered
  none : call.resubmitted = []

section

variable {detector : CurvyNoteDetector Addr Secret Field Owner Note}
  {amountIsZero : Note → Bool} {awaited : Bool}
  {notes unspent : List (CommittedCurvyNote Id Addr Note)}
  {spentIds : List Field}

omit [DecidableEq Id] [DecidableEq Field] in
theorem withdrawing_fresh (hnotes : (noteIds detector notes).Nodup) :
    (SweepPhase.withdrawing notes (withdrawalChunks amountIsZero notes) [] :
      SweepPhase Id Addr Field Note).Fresh detector [] :=
  ⟨hnotes, withdrawalChunks_nodup hnotes⟩

omit [DecidableEq Id] [DecidableEq Field] in
theorem reconciled_fresh (hunspent : (noteIds detector unspent).Nodup) :
    (SweepPhase.reconciled amountIsZero awaited unspent :
      SweepPhase Id Addr Field Note).Fresh detector [] := by
  unfold SweepPhase.reconciled
  split
  · split
    · trivial
    · rfl
  · exact withdrawing_fresh hunspent

omit [DecidableEq Id] [DecidableEq Field] in
theorem reconcile_fresh
    (hnotes : (noteIds detector (notes ++ unspent)).Nodup) :
    (SweepPhase.reconcile amountIsZero awaited notes unspent spentIds).Fresh
      detector [] := by
  unfold SweepPhase.reconcile
  split
  · next hempty =>
      rw [List.isEmpty_iff.mp hempty, List.nil_append] at hnotes
      split
      · exact reconciled_fresh hnotes
      · exact ⟨rfl, hnotes⟩
  · exact ⟨rfl, hnotes⟩

omit [DecidableEq Id] [DecidableEq Field] in
/-- A chunk which has come up was not handed over before. -/
theorem SweepPhase.Fresh.chunkIds {phase : SweepPhase Id Addr Field Note}
    {delivered : List Field} (hfresh : phase.Fresh detector delivered)
    {noteId : Field} (hchunk : noteId ∈ phase.chunkIds detector) :
    noteId ∉ delivered := by
  unfold SweepPhase.chunkIds at hchunk
  split at hchunk
  · intro hdelivered
    refine (List.nodup_append.mp hfresh.2).2.2 _ hdelivered _ ?_ rfl
    rw [List.flatten_cons, List.map_append]
    exact List.mem_append_left _ hchunk
  · cases hchunk

end

namespace SweepCall

variable {detector : CurvyNoteDetector Addr Secret Field Owner Note}
  {amountIsZero : Note → Bool} {id : Id}
  {call : SweepCall Id Addr Secret Field Note}
  {sweep : SweepState Id Addr Secret Field Note}
  {action : SweepAction Id Addr Secret Field}

theorem removeSpent_fresh {delivered : List Field} {noteIds : List Field}
    {retries : ℕ} {again : ℕ → SweepPhase Id Addr Field Note}
    {removed : SweepPhase Id Addr Field Note}
    {reply : Except CurvyStateError Unit}
    (hagain : ∀ retries, (again retries).Fresh detector delivered)
    (hremoved : removed.Fresh detector delivered) :
    (sweep.removeSpent id noteIds retries again removed reply).phase.Fresh
      detector delivered := by
  unfold SweepState.removeSpent
  split
  · exact hremoved
  · split
    · trivial
    · exact hagain _

theorem readNotes_fresh {awaited : Bool} {reply : Except CurvyStateError Unit}
    (hnames : sweep.lifecycle.store.EachRecord (NamedBy detector)) :
    (sweep.readNotes amountIsZero id awaited reply).phase.Fresh detector [] := by
  unfold SweepState.readNotes
  split
  · trivial
  · split
    · trivial
    · next notes hnotes =>
        apply reconcile_fresh
        rw [List.append_nil]
        exact committedNotes_nodup hnames hnotes

omit [DecidableEq Id] in
theorem nullifierSpent_fresh {awaited : Bool}
    {note : CommittedCurvyNote Id Addr Note}
    {notes unspent : List (CommittedCurvyNote Id Addr Note)}
    {spentIds : List Field} {reply : Except String Bool}
    (hnotes : (noteIds detector (note :: notes ++ unspent)).Nodup)
    (hnext : call.sweep.nullifierSpent detector amountIsZero awaited note notes
      unspent spentIds reply = some sweep) :
    sweep.phase.Fresh detector [] := by
  unfold SweepState.nullifierSpent at hnext
  split at hnext
  · cases hnext
    trivial
  · cases hnext
    apply reconcile_fresh
    have hperm : (note :: notes ++ unspent).Perm (notes ++ (unspent ++ [note])) := by
      rw [List.cons_append, ← List.append_assoc]
      exact (List.perm_append_singleton note _).symm
    exact (hperm.map _).nodup_iff.mp hnotes
  · split at hnext
    · cases hnext
      exact reconcile_fresh (List.nodup_cons.mp hnotes).2
    · cases hnext

/-- The phase of a call after one step. -/
theorem next_phase_fresh (hfresh : call.Fresh detector)
    (hallowed : call.RetriesFresh action)
    (hnext : call.sweep.next detector amountIsZero id action = some sweep) :
    sweep.phase.Fresh detector (call.deliveredAfter detector action) := by
  have hphase := hfresh.phase
  cases action with
  | lifecycle step =>
      obtain ⟨lifecycle, -, hafter⟩ := Option.bind_eq_some_iff.mp hnext
      cases hafter
      cases step with
      | crash order => trivial
      | _ => exact hphase
  | sweepOther other noteIds =>
      simp only [SweepState.next] at hnext
      split at hnext
      · cases hnext
      · cases hnext
        exact hphase
  | enter reply =>
      simp only [SweepState.next] at hnext
      split at hnext
      · split at hnext
        · cases hnext
          trivial
        · cases hnext
          rfl
      · split at hnext
        · cases hnext
          trivial
        · cases hnext
          rfl
      · cases hnext
  | readNotes reply =>
      simp only [SweepState.next] at hnext
      split at hnext
      · next awaited hreading =>
          cases hnext
          rw [hreading] at hphase
          have hdelivered :
              call.deliveredAfter detector (.readNotes reply) = [] := hphase
          rw [hdelivered]
          exact readNotes_fresh hfresh.names
      · cases hnext
  | nullifierSpent reply =>
      simp only [SweepState.next] at hnext
      split at hnext
      · next hreconciling =>
          rw [hreconciling] at hphase
          have hdelivered :
              call.deliveredAfter detector (.nullifierSpent reply) = [] :=
            hphase.1
          rw [hdelivered]
          exact nullifierSpent_fresh hphase.2 hnext
      · cases hnext
  | removeSpent reply =>
      simp only [SweepState.next] at hnext
      split at hnext
      · next hdropping =>
          cases hnext
          rw [hdropping] at hphase
          have hdelivered :
              call.deliveredAfter detector (.removeSpent reply) = [] :=
            hphase.1
          rw [hdelivered]
          exact removeSpent_fresh (fun _ => ⟨rfl, hphase.2⟩)
            (reconciled_fresh hphase.2)
      · cases hnext
        exact removeSpent_fresh (fun _ => trivial) trivial
      · cases hnext
  | awaitCommitment reply =>
      simp only [SweepState.next] at hnext
      split at hnext
      · cases hnext
        trivial
      · next hawaiting =>
          cases hnext
          rw [hawaiting] at hphase
          exact hphase
      · cases hnext
  | withdrawChunk =>
      simp only [SweepState.next] at hnext
      split at hnext
      · next notes chunk pending spentNoteIds hwithdrawing =>
          cases hnext
          rw [hwithdrawing] at hphase
          have hdelivered : call.deliveredAfter detector .withdrawChunk =
              call.delivered ++ chunk.map detector.noteId := by
            rw [deliveredAfter, hwithdrawing]
            rfl
          refine ⟨hphase.1, ?_⟩
          rw [hdelivered, List.append_assoc, ← List.map_append,
            ← List.flatten_cons]
          exact hphase.2
      · cases hnext
  | withdrawFails message landed beforeDeadline =>
      simp only [SweepState.next] at hnext
      split at hnext
      · next notes pending spentNoteIds hwithdrawing =>
          cases hnext
          rw [hwithdrawing] at hphase
          unfold SweepState.withdrawFails
          dsimp only
          split
          · next hretried =>
              have hdelivered : call.deliveredAfter detector
                  (.withdrawFails message landed beforeDeadline) = [] :=
                hallowed hretried
              rw [hdelivered]
              exact withdrawing_fresh hphase.1
          · trivial
      · cases hnext
  | withdrawn =>
      simp only [SweepState.next] at hnext
      split at hnext
      · cases hnext
        trivial
      · cases hnext
  | removeScanSecret =>
      simp only [SweepState.next] at hnext
      split at hnext
      · cases hnext
        trivial
      · cases hnext

theorem Fresh.next {after : SweepCall Id Addr Secret Field Note}
    (hfresh : call.Fresh detector) (hallowed : call.RetriesFresh action)
    (hnext : call.next detector amountIsZero id action = some after) :
    after.Fresh detector := by
  obtain ⟨sweep, hsweep, rfl⟩ := Option.map_eq_some_iff.mp hnext
  refine ⟨?_, next_phase_fresh hfresh hallowed hsweep, ?_⟩
  · exact SweepState.next_eachRecord (fun _ _ _ _ hdetect hparse =>
      (CurvyNoteDetector.detectOwnedNote_recomputed hdetect hparse).1)
      hfresh.names hsweep
  · have hnone : (call.sweep.phase.handedOver detector action).filter
        (· ∈ call.delivered) = [] := by
      apply List.filter_eq_nil_iff.mpr
      intro noteId hhanded
      rw [decide_eq_true_eq]
      cases action with
      | withdrawChunk => exact hfresh.phase.chunkIds hhanded
      | withdrawFails message landed beforeDeadline =>
          exact hfresh.phase.chunkIds hhanded
      | _ => cases hhanded
    rw [hfresh.none, hnone]
    rfl

end SweepCall

/-- While no attempt is retried which has delivered a chunk, no note is handed
over again after its chunk went through. -/
theorem sweepsFresh (detector : CurvyNoteDetector Addr Secret Field Owner Note)
    (amountIsZero : Note → Bool) (id : Id)
    {call : SweepCall Id Addr Secret Field Note}
    (hreach : (sweepCalls detector amountIsZero id).ReachableWithin
      SweepCall.RetriesFresh call) :
    call.resubmitted = [] := by
  have hfresh : call.Fresh detector := by
    apply hreach.invariant
    · intro start hstart
      obtain ⟨⟨hidle, hdetected⟩, -, hnone⟩ := hstart
      refine ⟨?_, ?_, hnone⟩
      · intro owner noteId record hlookup
        exact (hdetected owner noteId record hlookup).1
      · rw [hidle]
        trivial
    · intro before action after hbefore hallowed hnext
      exact hbefore.next hallowed hnext
  exact hfresh.none

/-! ## Eleven notes -/

/-- Eleven committed notes of the sole allocation. -/
def elevenNotes : CurvyDepositState ℕ ℕ ℕ (ℕ × ℕ) :=
  { (.empty : CurvyDepositState ℕ ℕ ℕ (ℕ × ℕ)) with
    ownedNotes := ⟨(List.range 11).map fun index =>
      ⟨(1, 6 + index), ⟨⟨⟨1, 5, .saturating (index + 1)⟩, (5, index + 1)⟩, true,
        .ofNat index⟩⟩, by
      unfold List.NodupKeys List.keys
      decide⟩ }

theorem elevenNotes_detected :
    elevenNotes.Detected plaintextDetector SweepState.plaintextZero := by
  intro id noteId record hlookup
  have hmem := AList.mem_lookup_iff.mp hlookup
  obtain ⟨index, -, hentry⟩ := List.mem_map.mp hmem
  cases hentry
  refine ⟨?_, rfl⟩
  change 5 + (index + 1) = 6 + index
  omega

/-- The call up to the first of two chunks. -/
def readingEleven : List (SweepAction ℕ ℕ Unit ℕ) :=
  [.enter (.ok ()), .readNotes (.ok ())] ++
    List.replicate 11 (.nullifierSpent (.ok false))

theorem readingEleven_fresh (call : SweepCall ℕ ℕ Unit ℕ (ℕ × ℕ))
    (action : SweepAction ℕ ℕ Unit ℕ) (haction : action ∈ readingEleven) :
    call.RetriesFresh action := by
  rcases List.mem_append.mp haction with hfirst | hrest
  · simp only [List.mem_cons, List.not_mem_nil, or_false] at hfirst
    rcases hfirst with hfirst | hfirst
    · rw [hfirst]
      trivial
    · rw [hfirst]
      trivial
  · rw [List.eq_of_mem_replicate hrest]
    trivial

def elevenCall : SweepCall ℕ ℕ Unit ℕ (ℕ × ℕ) :=
  ⟨SweepState.soleSweep elevenNotes [] .idle, [], []⟩

/-- The first chunk meets a lag and is retried, and both chunks go through. -/
theorem sweepsFresh_eleven :
    ∃ call : SweepCall ℕ ℕ Unit ℕ (ℕ × ℕ), call.delivered.length = 11 ∧
      call.resubmitted = [] := by
  have hinit : (sweepCalls plaintextDetector SweepState.plaintextZero 1).init
      elevenCall := ⟨⟨rfl, elevenNotes_detected⟩, rfl, rfl⟩
  have hstart : (sweepCalls plaintextDetector SweepState.plaintextZero
      1).ReachableWithin SweepCall.RetriesFresh elevenCall := .init hinit
  have hread := hstart.run readingEleven readingEleven_fresh rfl
  have hlag : ∀ call : SweepCall ℕ ℕ Unit ℕ (ℕ × ℕ), call.delivered = [] →
      call.RetriesFresh (.withdrawFails "RPC_ERROR" false true) :=
    fun _ hnone _ => hnone
  have hretried := TransitionSystem.ReachableWithin.step hread
    (hlag _ rfl) rfl
  have hchunk : ∀ call : SweepCall ℕ ℕ Unit ℕ (ℕ × ℕ),
      call.RetriesFresh .withdrawChunk := fun _ => trivial
  have hfirst := TransitionSystem.ReachableWithin.step hretried (hchunk _) rfl
  have hsecond := TransitionSystem.ReachableWithin.step hfirst (hchunk _) rfl
  exact ⟨_, rfl, sweepsFresh _ _ _ hsecond⟩

/-- The second chunk meets the lag, and the first is handed over again. -/
theorem sweepsFresh_not_always :
    ¬ ∀ call : SweepCall ℕ ℕ Unit ℕ (ℕ × ℕ),
      (sweepCalls plaintextDetector SweepState.plaintextZero 1).Reachable
        call → call.resubmitted = [] := by
  intro hclaim
  have hinit : (sweepCalls plaintextDetector SweepState.plaintextZero 1).init
      elevenCall := ⟨⟨rfl, elevenNotes_detected⟩, rfl, rfl⟩
  have hagain := (TransitionSystem.Reachable.init hinit).run
    (readingEleven ++ [.withdrawChunk,
      .withdrawFails "RPC_ERROR" false true, .withdrawChunk]) rfl
  have hnone := hclaim _ hagain
  cases hnone

end HoprStrategy.Curvy
