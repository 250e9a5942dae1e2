import HoprStrategy.CurvyCatchUp
import HoprStrategy.CurvyStoreSteps

/-!
# Replays and crashes of the catch-up

Over a fixed index and a fixed set of watched allocations the tables hold what
the logs say, whatever was interrupted before: a record keeps the first
discovery of its note, and once a pass has completed, the leaf of the last
final completion.
-/

namespace HoprStrategy.Curvy

open Library

variable {Id Addr Secret Field Owner Note : Type}
  [DecidableEq Id] [DecidableEq Field]

/-! ## The order of the watched allocations -/

namespace CurvyNoteDetector

variable {detector : CurvyNoteDetector Addr Secret Field Owner Note}
  {watched order : List (WatchedAllocation Id Addr Secret)}
  {candidate : CurvyPendingNote} {announcement : Announcement Field}
  {viewTag : UInt8}

omit [DecidableEq Id] in
/-- Whoever recomputes the note is the first to do so. -/
theorem firstOwner_of_mem (hsound : detector.Sound {other | other ∈ order})
    (hnodup : (order.map (·.id)).Nodup)
    (hparse : detector.parseCandidate candidate = .ok (announcement, viewTag))
    {owner : WatchedAllocation Id Addr Secret} {amount : HoprBalance}
    {note : Note} (howner : owner ∈ order)
    (hjudge : detector.judge announcement viewTag owner =
      .recomputed amount note)
    (hpositive : amount.isZero = false) (hsubset : watched ⊆ order)
    (hmem : owner ∈ watched) :
    detector.firstOwner announcement viewTag watched =
      .ok (some ⟨⟨owner.id, owner.address, amount⟩, note⟩) := by
  induction watched with
  | nil => cases hmem
  | cons other rest ih =>
      have hother : other ∈ order := hsubset List.mem_cons_self
      unfold firstOwner
      cases hverdict : detector.judge announcement viewTag other with
      | notOurs =>
          simp only
          have hrest : rest ⊆ order :=
            fun _ hin => hsubset (List.mem_cons_of_mem other hin)
          rcases List.mem_cons.mp hmem with rfl | hin
          · rw [hjudge] at hverdict
            cases hverdict
          · exact ih hrest hin
      | invalid error =>
          exact absurd hverdict (hsound.scan candidate announcement viewTag
            owner howner other hother amount note error hparse hjudge)
      | recomputed amount' note' =>
          have hsame := hsound.unique announcement viewTag announcement viewTag
            owner howner other hother amount note amount' note' hjudge hverdict
            rfl
          have heq : owner = other :=
            List.inj_on_of_nodup_map hnodup howner hother hsame.1
          rw [← heq, hjudge] at hverdict
          cases hverdict
          simp only [hpositive, Bool.false_eq_true, if_false, heq]

/-- The key and the detection of a candidate which somebody owns. -/
def discovery (detector : CurvyNoteDetector Addr Secret Field Owner Note)
    (watched : List (WatchedAllocation Id Addr Secret))
    (candidate : CurvyPendingNote) :
    Option (Field × DetectedCurvyNote Id Addr Note) :=
  match detector.detectOwnedNote candidate watched,
      detector.parseNoteId candidate.noteId with
  | .ok (some note), .ok key => some (key, note)
  | _, _ => none

omit [DecidableEq Id] in
theorem discovery_eq_some {key : Field} {note : DetectedCurvyNote Id Addr Note} :
    detector.discovery watched candidate = some (key, note) ↔
      detector.detectOwnedNote candidate watched = .ok (some note) ∧
        detector.parseNoteId candidate.noteId = .ok key := by
  unfold discovery
  constructor
  · intro hdiscovery
    split at hdiscovery
    · rename_i found parsed hdetect hparse
      cases hdiscovery
      exact ⟨hdetect, hparse⟩
    · cases hdiscovery
  · intro hboth
    rw [hboth.1, hboth.2]

omit [DecidableEq Id] in
theorem discovery_of_perm
    (hsound : detector.Sound {other | other ∈ watched})
    (hnodup : (watched.map (·.id)).Nodup) (hperm : order.Perm watched)
    {found : Field × DetectedCurvyNote Id Addr Note}
    (hfound : detector.discovery order candidate = some found) :
    detector.discovery watched candidate = some found := by
  obtain ⟨key, note⟩ := found
  obtain ⟨hdetect, hkey⟩ := discovery_eq_some.mp hfound
  apply discovery_eq_some.mpr
  refine ⟨?_, hkey⟩
  unfold detectOwnedNote at hdetect ⊢
  cases hparse : detector.parseCandidate candidate with
  | error error =>
      simp only [hparse] at hdetect
      cases hdetect
  | ok parsed =>
      obtain ⟨announcement, viewTag⟩ := parsed
      simp only [hparse] at hdetect
      obtain ⟨owner, hmem, amount, recomputed, hjudge, hpositive, rfl⟩ :=
        firstOwner_some hdetect
      have howner : owner ∈ watched := hperm.subset hmem
      exact firstOwner_of_mem hsound hnodup hparse howner hjudge hpositive
        (List.Subset.refl watched) howner

omit [DecidableEq Id] in
theorem Sound.of_perm (hsound : detector.Sound {other | other ∈ watched})
    (hperm : order.Perm watched) :
    detector.Sound {other | other ∈ order} := by
  have hset : ({other | other ∈ order} :
      Set (WatchedAllocation Id Addr Secret)) = {other | other ∈ watched} := by
    ext other
    exact hperm.mem_iff
  rw [hset]
  exact hsound

omit [DecidableEq Id] in
theorem discovery_perm
    (hsound : detector.Sound {other | other ∈ watched})
    (hnodup : (watched.map (·.id)).Nodup) (hperm : order.Perm watched) :
    detector.discovery order candidate =
      detector.discovery watched candidate := by
  cases horder : detector.discovery order candidate with
  | some found => exact (discovery_of_perm hsound hnodup hperm horder).symm
  | none =>
      cases hwatched : detector.discovery watched candidate with
      | none => rfl
      | some found =>
          have hnodup' : (order.map (·.id)).Nodup :=
            (hperm.map _).nodup_iff.mpr hnodup
          rw [discovery_of_perm (hsound.of_perm hperm) hnodup' hperm.symm
            hwatched] at horder
          cases horder

omit [DecidableEq Id] in
/-- One note key is discovered for one allocation only. -/
theorem discovery_unique (hsound : detector.Sound {other | other ∈ watched})
    {other : CurvyPendingNote} {key : Field}
    {note note' : DetectedCurvyNote Id Addr Note}
    (hnote : detector.discovery watched candidate = some (key, note))
    (hnote' : detector.discovery watched other = some (key, note')) :
    note.deposit.id = note'.deposit.id := by
  have hself : ∀ allocation ∈ watched,
      allocation ∈ ({other | other ∈ watched} : Set _) := fun _ hmem => hmem
  obtain ⟨hdetect, hkey⟩ := discovery_eq_some.mp hnote
  obtain ⟨hdetect', hkey'⟩ := discovery_eq_some.mp hnote'
  obtain ⟨found, hfound, hrecomputes⟩ := recomputes_of_detected hself hdetect
  obtain ⟨found', hfound', hrecomputes'⟩ :=
    recomputes_of_detected hself hdetect'
  rw [hkey, Except.ok.injEq] at hfound
  rw [hkey', Except.ok.injEq] at hfound'
  subst hfound
  subst hfound'
  exact hrecomputes.unique hsound hrecomputes'

end CurvyNoteDetector

/-! ## What the logs say -/

/-- The index treats this block and those before it as final. -/
def BlokliIndex.finalBlock (index : BlokliIndex) : ℕ :=
  index.indexedBlock - index.finality

section

variable (detector : CurvyNoteDetector Addr Secret Field Owner Note)
  (watched : List (WatchedAllocation Id Addr Secret)) (index : BlokliIndex)

/-- The first discovery of the note for the allocation. -/
def firstDiscovery (id : Id) (key : Field) :
    Option (DetectedCurvyNote Id Addr Note) :=
  index.pending.findSome? fun candidate =>
    match detector.discovery watched candidate with
    | some (found, note) =>
        if (note.deposit.id, found) = (id, key) then some note else none
    | none => none

/-- A final completion of the note. -/
structure FinalLeaf (completion : CurvyCommittedNote) (key : Field)
    (leafIndex : UInt64) : Prop where
  mem : completion ∈ index.committed
  final : completion.position.block ≤ index.finalBlock
  leaf : parseU64 completion.leafIndex = some leafIndex
  key : detector.parseNoteId completion.noteId = .ok key

variable (store : CurvyDepositState Id Addr Field Note)

/-- What the tables hold is what the logs say, if not all of it. -/
structure Journal : Prop where
  first : ∀ id key record, store.ownedNotes.lookup (id, key) = some record →
    firstDiscovery detector watched index id key = some record.detected
  session : ∀ key id, store.noteSessions.lookup key = some id →
    (store.ownedNotes.lookup (id, key)).isSome = true
  attributed : ∀ id key, (store.ownedNotes.lookup (id, key)).isSome = true →
    store.noteSessions.lookup key = some id
  leaf : ∀ id key record, store.ownedNotes.lookup (id, key) = some record →
    record.committed = true →
    ∃ completion, FinalLeaf detector index completion key record.rawLeafIndex
  unset : ∀ id key record, store.ownedNotes.lookup (id, key) = some record →
    record.committed = false → record.rawLeafIndex = -1

/-- Every discovery up to the cursor has its record. -/
def DiscoveredUpTo (after : Option CurvyEventCursor) : Prop :=
  ∀ candidate ∈ index.pending, ¬ Later after candidate.position →
    ∀ key note, detector.discovery watched candidate = some (key, note) →
      (store.ownedNotes.lookup (note.deposit.id, key)).isSome = true

def Discovered : Prop :=
  ∀ candidate ∈ index.pending, ∀ key note,
    detector.discovery watched candidate = some (key, note) →
      (store.ownedNotes.lookup (note.deposit.id, key)).isSome = true

/-- The last final completion of a note up to the cursor is recorded. -/
def CompletedUpTo (after : Option CurvyEventCursor) : Prop :=
  ∀ completion key leafIndex,
    FinalLeaf detector index completion key leafIndex →
    ¬ Later after completion.position →
    (∀ other otherLeaf, FinalLeaf detector index other key otherLeaf →
      ¬ Later after other.position → other.position ≤ completion.position) →
    ∀ id record, store.ownedNotes.lookup (id, key) = some record →
      record.committed = true ∧ record.rawLeafIndex = leafIndex

structure CommittedPass.Recoverable (pass : CommittedPass) : Prop where
  discovered : Discovered detector watched index store
  final : pass.finalizedThrough = index.finalBlock
  completed : CompletedUpTo detector index store pass.committedAfter

/-- The rest of a page continues the log, to its end if the page was short. -/
def CommittedPass.Holding (pass : CommittedPass)
    (notes : List CurvyCommittedNote) (pageLen : ℕ) : Prop :=
  Reading CurvyCommittedNote.position index.committed pass.committedAfter
      notes ∧
    (pageLen < queryPageSize → ∀ completion ∈ index.committed,
      Later pass.committedAfter completion.position → completion ∈ notes)

def CatchUp.Recoverable : CatchUp → Prop
  | .idle => True
  | .requestPending _ after =>
      DiscoveredUpTo detector watched index store after
  | .candidates _ after notes hasMore =>
      DiscoveredUpTo detector watched index store after ∧
        Reading CurvyPendingNote.position index.pending after notes ∧
        (hasMore = false → ∀ candidate ∈ index.pending,
          Later after candidate.position → candidate ∈ notes)
  | .readHead _ _ => Discovered detector watched index store
  | .requestCommitted pass => pass.Recoverable detector watched index store
  | .requestCandidates pass page =>
      pass.Recoverable detector watched index store ∧
        pass.Holding index page page.length
  | .discoveries pass page found =>
      pass.Recoverable detector watched index store ∧
        pass.Holding index page page.length ∧ found = []
  | .completions pass notes pageLen =>
      pass.Recoverable detector watched index store ∧
        pass.Holding index notes pageLen

end

/-- A state from which a pass brings the tables up to the logs. -/
structure LifecycleState.Recoverable
    (detector : CurvyNoteDetector Addr Secret Field Owner Note)
    (watched : List (WatchedAllocation Id Addr Secret)) (index : BlokliIndex)
    (state : LifecycleState Id Addr Secret Field Note) : Prop where
  sameIndex : state.index = index
  sameWatched : state.watched.Perm watched
  journal : Journal detector watched index state.store
  discovered : DiscoveredUpTo detector watched index state.store
    state.store.pendingCursor
  completed : CompletedUpTo detector index state.store
    state.store.committedCursor
  started : state.store.committedCursor ≠ none →
    Discovered detector watched index state.store
  final : ∀ cursor ∈ state.store.committedCursor,
    cursor.block ≤ index.finalBlock
  pass : state.pass.Recoverable detector watched index state.store

section Store

variable {detector : CurvyNoteDetector Addr Secret Field Owner Note}
  {watched order : List (WatchedAllocation Id Addr Secret)}
  {index : BlokliIndex} {store stored : CurvyDepositState Id Addr Field Note}
  {candidate : CurvyPendingNote} {after : Option CurvyEventCursor}

/-! ## Discoveries -/

theorem processCandidate_discovery {watching : Bool} (horder : order ≠ [])
    (hprocess : store.processCandidate detector order candidate =
      .ok (stored, watching)) :
    watching = true ∧
      ((detector.discovery order candidate = none ∧
          stored = store.advanceCursor .pending candidate.position) ∨
        ∃ key note, detector.discovery order candidate = some (key, note) ∧
          stored = store.recordOwnedCandidate key note candidate.position) := by
  unfold CurvyDepositState.processCandidate at hprocess
  rw [if_neg (by simpa using horder)] at hprocess
  cases hdetect : detector.detectOwnedNote candidate order with
  | error error =>
      simp only [hdetect, Except.ok.injEq, Prod.mk.injEq] at hprocess
      refine ⟨hprocess.2.symm, Or.inl ⟨?_, hprocess.1.symm⟩⟩
      simp [CurvyNoteDetector.discovery, hdetect]
  | ok detected =>
      cases detected with
      | none =>
          simp only [hdetect, Except.ok.injEq, Prod.mk.injEq] at hprocess
          refine ⟨hprocess.2.symm, Or.inl ⟨?_, hprocess.1.symm⟩⟩
          simp [CurvyNoteDetector.discovery, hdetect]
      | some note =>
          cases hkey : detector.parseNoteId candidate.noteId with
          | error error =>
              simp only [hdetect, hkey] at hprocess
              cases hprocess
          | ok key =>
              simp only [hdetect, hkey, Except.ok.injEq, Prod.mk.injEq]
                at hprocess
              refine ⟨hprocess.2.symm, Or.inr ⟨key, note, ?_,
                hprocess.1.symm⟩⟩
              exact CurvyNoteDetector.discovery_eq_some.mpr ⟨hdetect, hkey⟩

/-- Before a candidate without a record nobody was discovered for its note. -/
theorem firstDiscovery_of_unrecorded {notes : List CurvyPendingNote}
    {key : Field} {note : DetectedCurvyNote Id Addr Note}
    (hsorted : Chronological CurvyPendingNote.position index.pending)
    (hdiscovered : DiscoveredUpTo detector watched index store after)
    (hreading : Reading CurvyPendingNote.position index.pending after
      (candidate :: notes))
    (hdiscovery : detector.discovery watched candidate = some (key, note))
    (hnone : store.ownedNotes.lookup (note.deposit.id, key) = none) :
    firstDiscovery detector watched index note.deposit.id key = some note := by
  have hmem : candidate ∈ index.pending := hreading.mem List.mem_cons_self
  obtain ⟨earlier, later, hsplit⟩ := List.append_of_mem hmem
  have hbefore : ∀ other ∈ earlier, other.position < candidate.position := by
    intro other hother
    unfold Chronological at hsorted
    rw [hsplit] at hsorted
    exact (List.pairwise_append.mp hsorted).2.2 other hother candidate
      List.mem_cons_self
  have hread : ∀ other ∈ earlier, ∀ found found',
      detector.discovery watched other = some (found, found') →
      (found'.deposit.id, found) ≠ (note.deposit.id, key) := by
    intro other hother found found' hfound heq
    have hin : other ∈ index.pending := by
      rw [hsplit]
      exact List.mem_append_left _ hother
    have hnot : ¬ Later after other.position := by
      intro hlater
      have hsame := (hreading.advance hsorted).2 other hin hlater
        (not_lt_of_gt (hbefore other hother))
      have hlt := hbefore other hother
      rw [hsame] at hlt
      exact lt_irrefl _ hlt
    have hsome := hdiscovered other hin hnot found found' hfound
    rw [heq, hnone] at hsome
    cases hsome
  unfold firstDiscovery
  rw [hsplit, List.findSome?_append, Option.or_eq_some_iff]
  right
  constructor
  · rw [List.findSome?_eq_none_iff]
    intro other hother
    split
    · rename_i found found' hfound
      rw [if_neg (hread other hother found found' hfound)]
    · rfl
  · rw [List.findSome?_cons_of_isSome]
    · simp [hdiscovery]
    · simp [hdiscovery]

/-- What a candidate does to the tables. -/
structure CandidateWritten
    (detector : CurvyNoteDetector Addr Secret Field Owner Note)
    (watched : List (WatchedAllocation Id Addr Secret))
    (store stored : CurvyDepositState Id Addr Field Note)
    (candidate : CurvyPendingNote) : Prop where
  pendingCursor : stored.pendingCursor = some candidate.position
  committedCursor : stored.committedCursor = store.committedCursor
  kept : ∀ id key record, store.ownedNotes.lookup (id, key) = some record →
    stored.ownedNotes.lookup (id, key) = some record
  found : ∀ key note, detector.discovery watched candidate = some (key, note) →
    (stored.ownedNotes.lookup (note.deposit.id, key)).isSome = true
  record : ∀ id key record, stored.ownedNotes.lookup (id, key) = some record →
    store.ownedNotes.lookup (id, key) = some record ∨
      store.ownedNotes.lookup (id, key) = none ∧
        ∃ note, detector.discovery watched candidate = some (key, note) ∧
          id = note.deposit.id ∧
          record = encodeOwnedNote ⟨note, false, none⟩
  session : ∀ key,
    (∀ note, detector.discovery watched candidate ≠ some (key, note)) ∧
      stored.noteSessions.lookup key = store.noteSessions.lookup key ∨
    ∃ note, detector.discovery watched candidate = some (key, note) ∧
      stored.noteSessions.lookup key = some note.deposit.id

theorem processCandidate_written {watching : Bool}
    (hsound : detector.Sound {other | other ∈ watched})
    (hnodup : (watched.map (·.id)).Nodup) (hperm : order.Perm watched)
    (horder : order ≠ [])
    (hprocess : store.processCandidate detector order candidate =
      .ok (stored, watching)) :
    watching = true ∧
      CandidateWritten detector watched store stored candidate := by
  obtain ⟨hwatching, hcases⟩ := processCandidate_discovery horder hprocess
  rw [CurvyNoteDetector.discovery_perm hsound hnodup hperm] at hcases
  refine ⟨hwatching, ?_⟩
  rcases hcases with ⟨hnone, rfl⟩ | ⟨key, note, hfound, rfl⟩
  · constructor
    · rfl
    · rfl
    · intro id key record hlookup
      exact hlookup
    · intro key note hsome
      rw [hnone] at hsome
      cases hsome
    · intro id key record hlookup
      exact Or.inl hlookup
    · intro key
      refine Or.inl ⟨?_, rfl⟩
      intro note hsome
      rw [hnone] at hsome
      cases hsome
  · constructor
    · rfl
    · rfl
    · intro id other record hlookup
      exact CurvyDepositState.recordOwnedCandidate_lookup hlookup
    · intro other found hsome
      rw [hfound, Option.some.injEq, Prod.mk.injEq] at hsome
      rw [← hsome.1, ← hsome.2]
      exact CurvyDepositState.recordOwnedCandidate_attributed.2
    · intro id other record hlookup
      rw [recordOwnedCandidate_ownedNotes] at hlookup
      split at hlookup
      · rename_i hkey
        cases hold : store.ownedNotes.lookup (id, other) with
        | some old =>
            rw [hold, Option.getD_some] at hlookup
            exact Or.inl hlookup
        | none =>
            rw [hold, Option.getD_none, Option.some.injEq] at hlookup
            rw [Prod.mk.injEq] at hkey
            refine Or.inr ⟨rfl, note, ?_, hkey.1, hlookup.symm⟩
            rw [hkey.2]
            exact hfound
      · exact Or.inl hlookup
    · intro other
      by_cases hkey : other = key
      · right
        rw [hkey]
        exact ⟨note, hfound, AList.lookup_insert _⟩
      · refine Or.inl ⟨?_, AList.lookup_insert_ne hkey⟩
        intro found hsome
        rw [hfound, Option.some.injEq, Prod.mk.injEq] at hsome
        exact hkey hsome.1.symm

/-- Every record stems from a discovery. -/
theorem Journal.discovered (hjournal : Journal detector watched index store)
    {id : Id} {key : Field}
    (hid : (store.ownedNotes.lookup (id, key)).isSome = true) :
    ∃ candidate ∈ index.pending, ∃ note,
      detector.discovery watched candidate = some (key, note) ∧
        note.deposit.id = id := by
  obtain ⟨record, hlookup⟩ := Option.isSome_iff_exists.mp hid
  obtain ⟨candidate, hmem, hfound⟩ :=
    List.exists_of_findSome?_eq_some (hjournal.first id key record hlookup)
  split at hfound
  · rename_i found note hdiscovery
    split at hfound
    · rename_i hkey
      rw [Prod.mk.injEq] at hkey
      refine ⟨candidate, hmem, note, ?_, hkey.1⟩
      rw [← hkey.2]
      exact hdiscovery
    · cases hfound
  · cases hfound

theorem CandidateWritten.isSome
    (hwritten : CandidateWritten detector watched store stored candidate)
    {id : Id} {key : Field}
    (hsome : (store.ownedNotes.lookup (id, key)).isSome = true) :
    (stored.ownedNotes.lookup (id, key)).isSome = true := by
  obtain ⟨record, hlookup⟩ := Option.isSome_iff_exists.mp hsome
  rw [hwritten.kept id key record hlookup]
  rfl

theorem CandidateWritten.journal
    (hwritten : CandidateWritten detector watched store stored candidate)
    (hsound : detector.Sound {other | other ∈ watched})
    (hmem : candidate ∈ index.pending)
    (hfirst : ∀ key note,
      detector.discovery watched candidate = some (key, note) →
      store.ownedNotes.lookup (note.deposit.id, key) = none →
      firstDiscovery detector watched index note.deposit.id key = some note)
    (hjournal : Journal detector watched index store) :
    Journal detector watched index stored := by
  constructor
  · intro id key record hlookup
    rcases hwritten.record id key record hlookup with
      hold | ⟨hnone, note, hfound, rfl, rfl⟩
    · exact hjournal.first id key record hold
    · exact hfirst key note hfound hnone
  · intro key id hsession
    rcases hwritten.session key with ⟨_, hold⟩ | ⟨note, hfound, hnew⟩
    · rw [hold] at hsession
      exact hwritten.isSome (hjournal.session key id hsession)
    · rw [hnew, Option.some.injEq] at hsession
      rw [← hsession]
      exact hwritten.found key note hfound
  · intro id key hsome
    -- Whoever the note is found for now, it is the allocation of the record.
    have howner : ∃ other ∈ index.pending, ∃ note,
        detector.discovery watched other = some (key, note) ∧
          note.deposit.id = id := by
      obtain ⟨record, hlookup⟩ := Option.isSome_iff_exists.mp hsome
      rcases hwritten.record id key record hlookup with
        hold | ⟨_, note, hfound, hid, _⟩
      · exact hjournal.discovered (by rw [hold]; rfl)
      · exact ⟨candidate, hmem, note, hfound, hid.symm⟩
    obtain ⟨other, _, note, hother, hid⟩ := howner
    rcases hwritten.session key with ⟨hnobody, hold⟩ | ⟨note', hfound, hnew⟩
    · rw [hold]
      obtain ⟨record, hlookup⟩ := Option.isSome_iff_exists.mp hsome
      rcases hwritten.record id key record hlookup with
        hbefore | ⟨_, fresh, hfresh, _⟩
      · exact hjournal.attributed id key (by rw [hbefore]; rfl)
      · exact absurd hfresh (hnobody fresh)
    · rw [hnew, ← hid, CurvyNoteDetector.discovery_unique hsound hother hfound]
  · intro id key record hlookup hcommitted
    rcases hwritten.record id key record hlookup with
      hold | ⟨_, note, _, _, rfl⟩
    · exact hjournal.leaf id key record hold hcommitted
    · cases hcommitted
  · intro id key record hlookup hpending
    rcases hwritten.record id key record hlookup with
      hold | ⟨_, note, _, _, rfl⟩
    · exact hjournal.unset id key record hold hpending
    · rfl

/-- One candidate further. -/
theorem DiscoveredUpTo.advance {notes : List CurvyPendingNote}
    (hsorted : Chronological CurvyPendingNote.position index.pending)
    (hdiscovered : DiscoveredUpTo detector watched index store after)
    (hreading : Reading CurvyPendingNote.position index.pending after
      (candidate :: notes))
    (hwritten : CandidateWritten detector watched store stored candidate) :
    DiscoveredUpTo detector watched index stored (some candidate.position) := by
  intro other hother hnot key note hfound
  rw [later_some] at hnot
  by_cases hlater : Later after other.position
  · have heq := (hreading.advance hsorted).2 other hother hlater hnot
    rw [heq] at hfound
    exact hwritten.found key note hfound
  · exact hwritten.isSome (hdiscovered other hother hlater key note hfound)

/-- Once everything is discovered, a candidate adds nothing. -/
theorem CandidateWritten.same
    (hwritten : CandidateWritten detector watched store stored candidate)
    (hmem : candidate ∈ index.pending)
    (hall : Discovered detector watched index store) {id : Id} {key : Field}
    {record : OwnedNoteRecord Id Addr Note}
    (hlookup : stored.ownedNotes.lookup (id, key) = some record) :
    store.ownedNotes.lookup (id, key) = some record := by
  rcases hwritten.record id key record hlookup with
    hold | ⟨hnone, note, hfound, hid, _⟩
  · exact hold
  · have hsome := hall candidate hmem key note hfound
    rw [← hid, hnone] at hsome
    cases hsome

theorem CandidateWritten.completed {cursor : Option CurvyEventCursor}
    (hwritten : CandidateWritten detector watched store stored candidate)
    (hmem : candidate ∈ index.pending)
    (hall : cursor ≠ none → Discovered detector watched index store)
    (hcompleted : CompletedUpTo detector index store cursor) :
    CompletedUpTo detector index stored cursor := by
  intro completion key leafIndex hfinal hnot hlast id record hlookup
  cases cursor with
  | none => exact absurd (later_none _) hnot
  | some position =>
      have hsame := hwritten.same hmem (hall (by simp)) hlookup
      exact hcompleted completion key leafIndex hfinal hnot hlast id record
        hsame

theorem CandidateWritten.discovered
    (hwritten : CandidateWritten detector watched store stored candidate)
    (hall : Discovered detector watched index store) :
    Discovered detector watched index stored := by
  intro other hother key note hfound
  exact hwritten.isSome (hall other hother key note hfound)

/-! ## Completions -/

/-- What a completion does to the tables. -/
structure CompletionWritten
    (detector : CurvyNoteDetector Addr Secret Field Owner Note)
    (store stored : CurvyDepositState Id Addr Field Note)
    (completion : CurvyCommittedNote) : Prop where
  pendingCursor : stored.pendingCursor = store.pendingCursor
  committedCursor : stored.committedCursor = some completion.position
  sessions : stored.noteSessions = store.noteSessions
  kept : ∀ id key record, store.ownedNotes.lookup (id, key) = some record →
    ∃ record', stored.ownedNotes.lookup (id, key) = some record' ∧
      record'.detected = record.detected
  leaf : ∀ key leafIndex, parseU64 completion.leafIndex = some leafIndex →
    detector.parseNoteId completion.noteId = .ok key →
    ∀ id record, store.Attributed id key →
      stored.ownedNotes.lookup (id, key) = some record →
      record.committed = true ∧ record.rawLeafIndex = leafIndex
  record : ∀ id key record, stored.ownedNotes.lookup (id, key) = some record →
    store.ownedNotes.lookup (id, key) = some record ∨
      ∃ old, store.ownedNotes.lookup (id, key) = some old ∧
        record.detected = old.detected ∧ record.committed = true ∧
        parseU64 completion.leafIndex = some record.rawLeafIndex ∧
        detector.parseNoteId completion.noteId = .ok key

theorem writeCompletion_written {completion : CurvyCommittedNote}
    {owner : Option Id}
    (hwrite : store.writeCompletion detector completion =
      .ok (stored, owner)) :
    CompletionWritten detector store stored completion := by
  rcases writeCompletion_cases hwrite with
    ⟨_, rfl, hnone⟩ | ⟨id, key, old, leafIndex, hevent, hleaf, hsession,
      hlookup, _, rfl⟩
  · constructor
    · rfl
    · rfl
    · rfl
    · intro id key record hlookup
      exact ⟨record, hlookup, rfl⟩
    · intro key leafIndex hleaf hkey id record hattributed
      have hevent : Completes detector completion key :=
        ⟨by rw [hleaf]; rfl, hkey⟩
      exact absurd hattributed (hnone id key hevent)
    · intro id key record hlookup
      exact Or.inl hlookup
  · constructor
    · rfl
    · rfl
    · rfl
    · intro other found record hrecord
      by_cases hsame : (other, found) = (id, key)
      · cases hsame
        rw [hlookup, Option.some.injEq] at hrecord
        refine ⟨_, AList.lookup_insert _, ?_⟩
        rw [← hrecord]
      · exact ⟨record, (AList.lookup_insert_ne hsame).trans hrecord, rfl⟩
    · intro found leafIndex' hleaf' hkey other record hattributed hrecord
      have hfound := hkey.symm.trans hevent.2
      rw [Except.ok.injEq] at hfound
      subst hfound
      have hother := hattributed.1.symm.trans hsession
      rw [Option.some.injEq] at hother
      subst hother
      simp only [AList.lookup_insert, Option.some.injEq] at hrecord
      rw [hleaf, Option.some.injEq] at hleaf'
      rw [← hrecord]
      exact ⟨rfl, hleaf'⟩
    · intro other found record hrecord
      by_cases hsame : (other, found) = (id, key)
      · cases hsame
        simp only [AList.lookup_insert, Option.some.injEq] at hrecord
        rw [← hrecord]
        exact Or.inr ⟨old, hlookup, rfl, rfl, hleaf, hevent.2⟩
      · simp only [AList.lookup_insert_ne hsame] at hrecord
        exact Or.inl hrecord

section CompletionWritten

variable {completion : CurvyCommittedNote}

theorem CompletionWritten.isSome
    (hwritten : CompletionWritten detector store stored completion)
    {id : Id} {key : Field} :
    (stored.ownedNotes.lookup (id, key)).isSome = true ↔
      (store.ownedNotes.lookup (id, key)).isSome = true := by
  constructor
  · intro hsome
    obtain ⟨record, hlookup⟩ := Option.isSome_iff_exists.mp hsome
    rcases hwritten.record id key record hlookup with hold | ⟨old, hold, _⟩
    · rw [hold]
      rfl
    · rw [hold]
      rfl
  · intro hsome
    obtain ⟨record, hlookup⟩ := Option.isSome_iff_exists.mp hsome
    obtain ⟨record', hlookup', _⟩ := hwritten.kept id key record hlookup
    rw [hlookup']
    rfl

theorem CompletionWritten.journal
    (hwritten : CompletionWritten detector store stored completion)
    (hmem : completion ∈ index.committed)
    (hfinal : completion.position.block ≤ index.finalBlock)
    (hjournal : Journal detector watched index store) :
    Journal detector watched index stored := by
  constructor
  · intro id key record hlookup
    rcases hwritten.record id key record hlookup with
      hold | ⟨old, hold, hdetected, _⟩
    · exact hjournal.first id key record hold
    · rw [hdetected]
      exact hjournal.first id key old hold
  · intro key id hsession
    rw [hwritten.sessions] at hsession
    exact hwritten.isSome.mpr (hjournal.session key id hsession)
  · intro id key hsome
    rw [hwritten.sessions]
    exact hjournal.attributed id key (hwritten.isSome.mp hsome)
  · intro id key record hlookup hcommitted
    rcases hwritten.record id key record hlookup with
      hold | ⟨old, _, _, _, hleaf, hkey⟩
    · exact hjournal.leaf id key record hold hcommitted
    · exact ⟨completion, hmem, hfinal, hleaf, hkey⟩
  · intro id key record hlookup hpending
    rcases hwritten.record id key record hlookup with
      hold | ⟨old, _, _, hcommitted, _⟩
    · exact hjournal.unset id key record hold hpending
    · rw [hcommitted] at hpending
      cases hpending

/-- One completion further. -/
theorem CompletionWritten.completed {notes : List CurvyCommittedNote}
    (hwritten : CompletionWritten detector store stored completion)
    (hsorted : Chronological CurvyCommittedNote.position index.committed)
    (hreading : Reading CurvyCommittedNote.position index.committed after
      (completion :: notes))
    (hfinal : completion.position.block ≤ index.finalBlock)
    (hjournal : Journal detector watched index store)
    (hcompleted : CompletedUpTo detector index store after) :
    CompletedUpTo detector index stored (some completion.position) := by
  intro other key leafIndex hother hnot hlast id record hlookup
  rw [later_some] at hnot
  have hhead : Later after completion.position :=
    hreading.later List.mem_cons_self
  by_cases heq : other = completion
  · subst heq
    have hsome : (store.ownedNotes.lookup (id, key)).isSome = true := by
      rw [← hwritten.isSome, hlookup]
      rfl
    exact hwritten.leaf key leafIndex hother.leaf hother.key id record
      ⟨hjournal.attributed id key hsome, hsome⟩ hlookup
  · have hread : ¬ Later after other.position := by
      intro hlater
      exact heq ((hreading.advance hsorted).2 other hother.mem hlater hnot)
    rcases hwritten.record id key record hlookup with
      hold | ⟨old, _, _, _, hleaf, hkey⟩
    · refine hcompleted other key leafIndex hother hread ?_ id record hold
      intro later otherLeaf hlater hbefore
      refine hlast later otherLeaf hlater ?_
      rw [later_some]
      intro hlt
      exact hbefore (hhead.trans hlt)
    · -- The completion itself would come after `other`.
      have hself : FinalLeaf detector index completion key
          record.rawLeafIndex :=
        ⟨hreading.mem List.mem_cons_self, hfinal, hleaf, hkey⟩
      have hle := hlast completion _ hself
        (by rw [later_some]; exact lt_irrefl _)
      have hlt : Later after other.position := by
        intro cursor hcursor
        exact lt_of_lt_of_le (hhead cursor hcursor) hle
      exact absurd hlt hread

theorem CompletionWritten.discovered
    (hwritten : CompletionWritten detector store stored completion)
    (hall : Discovered detector watched index store) :
    Discovered detector watched index stored := by
  intro other hother key note hfound
  exact hwritten.isSome.mpr (hall other hother key note hfound)

end CompletionWritten

end Store

/-! ## The steps -/

/-- The index and the watched allocations stay as they are; all else may
happen: passes, interruptions, crashes and requests to replay. -/
def Fixed (watched : List (WatchedAllocation Id Addr Secret)) :
    LifecycleState Id Addr Secret Field Note →
      LifecycleAction Id Addr Secret → Prop
  | _, .grow _ _ _ => False
  | _, .watch order _ => order.Perm watched
  | _, .crash order => order.Perm watched
  | _, _ => True

/-- A node over a fresh store and the given index. -/
def replaySystem (detector : CurvyNoteDetector Addr Secret Field Owner Note)
    (watched : List (WatchedAllocation Id Addr Secret)) (index : BlokliIndex) :
    TransitionSystem (LifecycleState Id Addr Secret Field Note)
      (LifecycleAction Id Addr Secret) where
  init state := ∃ replayHistory,
    state = ⟨index, CurvyDepositState.empty, watched, replayHistory, .idle⟩
  next := LifecycleState.next detector

namespace LifecycleState

variable {detector : CurvyNoteDetector Addr Secret Field Owner Note}
  {watched : List (WatchedAllocation Id Addr Secret)} {index : BlokliIndex}
  {state after : LifecycleState Id Addr Secret Field Note}

theorem Recoverable.idle (hstate : state.Recoverable detector watched index)
    {order : List (WatchedAllocation Id Addr Secret)}
    (hperm : order.Perm watched) (replayHistory : Bool) :
    Recoverable detector watched index { state with
      watched := order
      replayHistory := replayHistory
      pass := .idle } :=
  { hstate with
    sameWatched := hperm
    pass := trivial }

/-- Where the pass goes without touching the store. -/
theorem Recoverable.moved {pass : CatchUp}
    (hstate : state.Recoverable detector watched index)
    (hpass : pass.Recoverable detector watched index state.store) :
    Recoverable detector watched index { state with pass := pass } :=
  { hstate with pass := hpass }

theorem Recoverable.written {candidate : CurvyPendingNote}
    {notes : List CurvyPendingNote} {cursor : Option CurvyEventCursor}
    {store : CurvyDepositState Id Addr Field Note} {pass : CatchUp}
    (hsound : detector.Sound {other | other ∈ watched})
    (hpending : Chronological CurvyPendingNote.position index.pending)
    (hstate : state.Recoverable detector watched index)
    (hdiscovered : DiscoveredUpTo detector watched index state.store cursor)
    (hreading : Reading CurvyPendingNote.position index.pending cursor
      (candidate :: notes))
    (hwritten : CandidateWritten detector watched state.store store candidate)
    (hpass : pass.Recoverable detector watched index store) :
    Recoverable detector watched index { state with
      store := store
      pass := pass } := by
  have hmem : candidate ∈ index.pending := hreading.mem List.mem_cons_self
  constructor
  · exact hstate.sameIndex
  · exact hstate.sameWatched
  · apply hwritten.journal hsound hmem _ hstate.journal
    intro key note hfound hnone
    exact firstDiscovery_of_unrecorded hpending hdiscovered hreading hfound
      hnone
  · show DiscoveredUpTo detector watched index store store.pendingCursor
    rw [hwritten.pendingCursor]
    exact hdiscovered.advance hpending hreading hwritten
  · show CompletedUpTo detector index store store.committedCursor
    rw [hwritten.committedCursor]
    exact hwritten.completed hmem hstate.started hstate.completed
  · intro hsome
    have hbefore : state.store.committedCursor ≠ none := by
      rw [← hwritten.committedCursor]
      exact hsome
    exact hwritten.discovered (hstate.started hbefore)
  · intro position hposition
    have hbefore : position ∈ state.store.committedCursor := by
      rw [← hwritten.committedCursor]
      exact hposition
    exact hstate.final position hbefore
  · exact hpass

theorem Recoverable.completion
    (state : LifecycleState Id Addr Secret Field Note)
    {note : CurvyCommittedNote}
    {notes : List CurvyCommittedNote} {pass : CommittedPass}
    {store : CurvyDepositState Id Addr Field Note} {next : CatchUp}
    {replayHistory : Bool}
    (hcommitted : Chronological CurvyCommittedNote.position index.committed)
    (hstate : state.Recoverable detector watched index)
    (hpass : pass.Recoverable detector watched index state.store)
    (hreading : Reading CurvyCommittedNote.position index.committed
      pass.committedAfter (note :: notes))
    (hfinal : note.position.block ≤ index.finalBlock)
    (hwritten : CompletionWritten detector state.store store note)
    (hnext : CompletedUpTo detector index store (some note.position) →
      Discovered detector watched index store →
      next.Recoverable detector watched index store) :
    Recoverable detector watched index { state with
      store := store
      replayHistory := replayHistory
      pass := next } := by
  have hdone := hwritten.completed hcommitted hreading hfinal hstate.journal
    hpass.completed
  have hall := hwritten.discovered hpass.discovered
  constructor
  · exact hstate.sameIndex
  · exact hstate.sameWatched
  · exact hwritten.journal (hreading.mem List.mem_cons_self) hfinal
      hstate.journal
  · intro candidate hmem _
    exact hall candidate hmem
  · show CompletedUpTo detector index store store.committedCursor
    rw [hwritten.committedCursor]
    exact hdone
  · intro _
    exact hall
  · intro position hposition
    have hsame : position = note.position := by
      have hcursor : position ∈ store.committedCursor := hposition
      rw [hwritten.committedCursor] at hcursor
      exact (Option.mem_some_iff.mp hcursor).symm
    rw [hsame]
    exact hfinal
  · exact hnext hdone hall

theorem processCompletion_written {note : CurvyCommittedNote}
    {store stored : CurvyDepositState Id Addr Field Note}
    {result : Except CurvyLifecycleError (Option (Id × HoprBalance))}
    (hprocess : store.processCompletion detector note = (stored, result)) :
    (stored = store ∧ ∃ error, result = .error error) ∨
      CompletionWritten detector store stored note := by
  rcases processCompletion_store hprocess with hsame | ⟨owner, hwrite⟩
  · exact Or.inl hsame
  · exact Or.inr (writeCompletion_written hwrite)

theorem not_later_all {notes : List CurvyPendingNote}
    {cursor : Option CurvyEventCursor}
    {store : CurvyDepositState Id Addr Field Note}
    (hdiscovered : DiscoveredUpTo detector watched index store cursor)
    (hrest : ∀ candidate ∈ index.pending,
      Later cursor candidate.position → candidate ∈ notes)
    (hnil : notes = []) : Discovered detector watched index store := by
  intro candidate hmem key note hfound
  apply hdiscovered candidate hmem _ key note hfound
  intro hlater
  have hin := hrest candidate hmem hlater
  rw [hnil] at hin
  cases hin

/-- A short page reaches the end of the log. -/
theorem mem_page_of_short {Event : Type} {position : Event → CurvyEventCursor}
    {log : List Event} {cursor : Option CurvyEventCursor} {first : ℕ}
    {event : Event}
    (hshort : (eventPage position log cursor first).length < first)
    (hmem : event ∈ log) (hlater : Later cursor (position event)) :
    event ∈ eventPage position log cursor first := by
  have hrest : event ∈ eventsAfter position log cursor :=
    List.mem_filter.mpr ⟨hmem, by simpa using hlater⟩
  unfold eventPage at hshort ⊢
  rw [List.length_take] at hshort
  rw [List.take_of_length_le (by omega)]
  exact hrest

theorem advance_recoverable
    (hsound : detector.Sound {other | other ∈ watched})
    (hnodup : (watched.map (·.id)).Nodup) (hne : watched ≠ [])
    (hpending : Chronological CurvyPendingNote.position index.pending)
    (hcommitted : Chronological CurvyCommittedNote.position index.committed)
    (hstate : state.Recoverable detector watched index)
    (hadvance : state.advance detector = some after) :
    after.Recoverable detector watched index := by
  have hindex := hstate.sameIndex
  have hpass := hstate.pass
  have horder : state.watched ≠ [] := by
    intro hnil
    have hperm := hstate.sameWatched
    rw [hnil] at hperm
    exact hne (List.nil_perm.mp hperm)
  unfold advance at hadvance
  split at hadvance
  · cases hadvance
  · rename_i replay cursor hphase
    rw [hphase] at hpass
    cases hadvance
    apply hstate.moved
    rw [hindex]
    refine ⟨hpass, Reading.page _ _ _, ?_⟩
    intro hmore candidate hmem hlater
    apply mem_page_of_short _ hmem hlater
    have hle : (eventPage CurvyPendingNote.position index.pending cursor
        queryPageSize).length ≤ queryPageSize := List.length_take_le _ _
    have hlength : (eventPage CurvyPendingNote.position index.pending cursor
        queryPageSize).length ≠ queryPageSize := by
      simpa [BlokliIndex.pendingNotes] using hmore
    omega
  · rename_i replay cursor hasMore hphase
    rw [hphase] at hpass
    cases hadvance
    apply hstate.moved
    cases hasMore with
    | true => exact hpass.1
    | false => exact not_later_all hpass.1 (hpass.2.2 rfl) rfl
  · rename_i replay cursor note notes hasMore hphase
    rw [hphase] at hpass
    obtain ⟨hdiscovered, hreading, hrest⟩ := hpass
    split at hadvance
    · rename_i error hprocess
      exact absurd hprocess processCandidate_ne_error
    · rename_i store hprocess
      have hwatching := (processCandidate_discovery horder hprocess).1
      cases hwatching
    · rename_i store hprocess
      cases hadvance
      have hwritten := (processCandidate_written hsound hnodup
        hstate.sameWatched horder hprocess).2
      apply hstate.written hsound hpending hdiscovered hreading hwritten
      refine ⟨hdiscovered.advance hpending hreading hwritten,
        (hreading.advance hpending).1, ?_⟩
      intro hmore candidate hmem hlater
      rw [later_some] at hlater
      have hhead : Later cursor note.position :=
        hreading.later List.mem_cons_self
      rcases List.mem_cons.mp (hrest hmore candidate hmem
        (hhead.trans hlater)) with hsame | hin
      · rw [hsame] at hlater
        exact absurd hlater (lt_irrefl _)
      · exact hin
  · rename_i replay pendingAfter hphase
    rw [hphase] at hpass
    cases hadvance
    apply hstate.moved
    constructor
    · exact hpass
    · rw [hindex]
      rfl
    · unfold catchUpCursor
      split
      · intro completion key leafIndex _ hnot
        exact absurd (later_none _) hnot
      · exact hstate.completed
  · rename_i pass hphase
    rw [hphase] at hpass
    cases hadvance
    apply hstate.moved
    rw [hindex]
    have hholding : pass.Holding index
        (index.committedNotes pass.committedAfter queryPageSize)
        (index.committedNotes pass.committedAfter queryPageSize).length :=
      ⟨Reading.page _ _ _, fun hshort _ hmem hlater =>
        mem_page_of_short hshort hmem hlater⟩
    split
    · exact ⟨hpass, hholding⟩
    · exact ⟨hpass, hholding⟩
  · rename_i pass page hphase
    rw [hphase] at hpass
    cases hadvance
    apply hstate.moved
    exact ⟨hpass.1, hpass.2, rfl⟩
  · rename_i pass page hphase
    rw [hphase] at hpass
    cases hadvance
    apply hstate.moved
    exact ⟨hpass.1, hpass.2.1⟩
  · rename_i pass page note found hphase
    rw [hphase] at hpass
    cases hpass.2.2
  · rename_i pass pageLen hphase
    rw [hphase] at hpass
    cases hadvance
    apply hstate.moved
    split
    · trivial
    · exact hpass.1
  · rename_i pass note notes pageLen hphase
    rw [hphase] at hpass
    obtain ⟨hsecond, hreading, hrest⟩ := hpass
    split at hadvance
    · cases hadvance
      exact hstate.moved trivial
    · rename_i hfinal
      have hblock : note.position.block ≤ index.finalBlock := by
        rw [← hsecond.final]
        exact Nat.le_of_not_lt hfinal
      split at hadvance
      · rename_i store error hprocess
        cases hadvance
        rcases processCompletion_written hprocess with ⟨rfl, _⟩ | hwritten
        · exact hstate.idle hstate.sameWatched _
        · exact Recoverable.completion state hcommitted hstate hsecond
            hreading hblock hwritten fun _ _ => trivial
      · rename_i store result hprocess
        cases hadvance
        rcases processCompletion_written hprocess with
          ⟨_, error, herror⟩ | hwritten
        · cases herror
        · refine Recoverable.completion state hcommitted hstate hsecond
            hreading hblock hwritten ?_
          intro hdone hall
          refine ⟨⟨hall, hsecond.final, hdone⟩,
            (hreading.advance hcommitted).1, ?_⟩
          intro hshort completion hmem hlater
          rw [later_some] at hlater
          have hhead : Later pass.committedAfter note.position :=
            hreading.later List.mem_cons_self
          rcases List.mem_cons.mp (hrest hshort completion hmem
            (hhead.trans hlater)) with hsame | hin
          · rw [hsame] at hlater
            exact absurd hlater (lt_irrefl _)
          · exact hin

theorem next_recoverable
    (hsound : detector.Sound {other | other ∈ watched})
    (hnodup : (watched.map (·.id)).Nodup) (hne : watched ≠ [])
    (hpending : Chronological CurvyPendingNote.position index.pending)
    (hcommitted : Chronological CurvyCommittedNote.position index.committed)
    {action : LifecycleAction Id Addr Secret}
    (hstate : state.Recoverable detector watched index)
    (hfixed : Fixed watched state action)
    (hnext : state.next detector action = some after) :
    after.Recoverable detector watched index := by
  cases action with
  | grow announced completed indexedBlock => exact absurd hfixed id
  | watch order registered =>
      cases hnext
      exact { hstate with sameWatched := hfixed }
  | start =>
      simp only [next] at hnext
      split at hnext
      · split at hnext
        · cases hnext
        · cases hnext
          constructor
          · exact hstate.sameIndex
          · exact hstate.sameWatched
          · exact hstate.journal
          · exact hstate.discovered
          · exact hstate.completed
          · exact hstate.started
          · exact hstate.final
          · show DiscoveredUpTo detector watched index state.store _
            unfold catchUpCursor
            split
            · intro candidate _ hnot
              exact absurd (later_none _) hnot
            · exact hstate.discovered
      · cases hnext
  | advance =>
      exact advance_recoverable hsound hnodup hne hpending hcommitted hstate
        hnext
  | interrupt =>
      cases hnext
      exact hstate.idle hstate.sameWatched _
  | crash order =>
      cases hnext
      exact hstate.idle hfixed _

theorem initial_recoverable (replayHistory : Bool) :
    Recoverable detector watched index
      (⟨index, CurvyDepositState.empty, watched, replayHistory, .idle⟩ :
        LifecycleState Id Addr Secret Field Note) := by
  constructor
  · rfl
  · exact List.Perm.refl _
  · constructor
    · intro id key record hlookup
      cases hlookup
    · intro key id hsession
      cases hsession
    · intro id key hsome
      cases hsome
    · intro id key record hlookup
      cases hlookup
    · intro id key record hlookup
      cases hlookup
  · intro candidate _ hnot
    exact absurd (later_none _) hnot
  · intro completion key leafIndex _ hnot
    exact absurd (later_none _) hnot
  · intro hsome
    exact absurd rfl hsome
  · intro cursor hcursor
    cases hcursor
  · trivial

/-! ## Complete passes -/

/-- The completion at hand cannot be processed. -/
def Fails (detector : CurvyNoteDetector Addr Secret Field Owner Note)
    (state : LifecycleState Id Addr Secret Field Note) : Prop :=
  ∃ pass note notes pageLen,
    state.pass = .completions pass (note :: notes) pageLen ∧
      ¬ pass.finalizedThrough < note.position.block ∧
      ∃ error, (state.store.processCompletion detector note).2 = .error error

/-- The pass runs to its end without an error. -/
inductive RunsThrough
    (detector : CurvyNoteDetector Addr Secret Field Owner Note) :
    LifecycleState Id Addr Secret Field Note →
      LifecycleState Id Addr Secret Field Note → Prop
  | last {state after : LifecycleState Id Addr Secret Field Note}
      (hadvance : state.advance detector = some after)
      (hidle : after.pass = .idle) (hsucceeds : ¬ state.Fails detector) :
      RunsThrough detector state after
  | step {state middle after : LifecycleState Id Addr Secret Field Note}
      (hadvance : state.advance detector = some middle)
      (hrest : RunsThrough detector middle after) :
      RunsThrough detector state after

def CompletePass (detector : CurvyNoteDetector Addr Secret Field Owner Note)
    (before after : LifecycleState Id Addr Secret Field Note) : Prop :=
  ∃ started, before.next detector .start = some started ∧
    RunsThrough detector started after

end LifecycleState

/-- The tables hold all that the logs say. -/
structure StoreSettled (detector : CurvyNoteDetector Addr Secret Field Owner Note)
    (watched : List (WatchedAllocation Id Addr Secret)) (index : BlokliIndex)
    (store : CurvyDepositState Id Addr Field Note) : Prop where
  journal : Journal detector watched index store
  discovered : Discovered detector watched index store
  leaf : ∀ completion key leafIndex,
    FinalLeaf detector index completion key leafIndex →
    (∀ other otherLeaf, FinalLeaf detector index other key otherLeaf →
      other.position ≤ completion.position) →
    ∀ id record, store.ownedNotes.lookup (id, key) = some record →
      record.committed = true ∧ record.rawLeafIndex = leafIndex

section StoreSettled

variable {detector : CurvyNoteDetector Addr Secret Field Owner Note}
  {watched : List (WatchedAllocation Id Addr Secret)} {index : BlokliIndex}
  {store other : CurvyDepositState Id Addr Field Note}

omit [DecidableEq Field] in
theorem exists_lastLeaf {key : Field}
    (hexists : ∃ completion leafIndex,
      FinalLeaf detector index completion key leafIndex) :
    ∃ completion leafIndex, FinalLeaf detector index completion key leafIndex ∧
      ∀ later laterLeaf, FinalLeaf detector index later key laterLeaf →
        later.position ≤ completion.position := by
  obtain ⟨completion, leafIndex, hleaf⟩ := hexists
  obtain ⟨last, _, ⟨lastLeaf, hlast⟩, hmax⟩ :=
    exists_last CurvyCommittedNote.position index.committed
      (fun event => ∃ leafIndex, FinalLeaf detector index event key leafIndex)
      ⟨completion, hleaf.mem, leafIndex, hleaf⟩
  exact ⟨last, lastLeaf, hlast, fun later laterLeaf hlater =>
    hmax later hlater.mem ⟨laterLeaf, hlater⟩⟩

theorem StoreSettled.lookup_isSome (hstore : StoreSettled detector watched index store)
    (hother : StoreSettled detector watched index other) {id : Id} {key : Field}
    (hsome : (store.ownedNotes.lookup (id, key)).isSome = true) :
    (other.ownedNotes.lookup (id, key)).isSome = true := by
  obtain ⟨candidate, hmem, note, hfound, rfl⟩ :=
    hstore.journal.discovered hsome
  exact hother.discovered candidate hmem key note hfound

/-- There is one way to be settled. -/
theorem StoreSettled.lookup_eq (hstore : StoreSettled detector watched index store)
    (hother : StoreSettled detector watched index other) (key : Id × Field) :
    store.ownedNotes.lookup key = other.ownedNotes.lookup key := by
  obtain ⟨id, key⟩ := key
  cases hlookup : store.ownedNotes.lookup (id, key) with
  | none =>
      cases hlookup' : other.ownedNotes.lookup (id, key) with
      | none => rfl
      | some record =>
          have hsome := hother.lookup_isSome hstore
            (by rw [hlookup']; rfl)
          rw [hlookup] at hsome
          cases hsome
  | some record =>
      have hsome := hstore.lookup_isSome hother (by rw [hlookup]; rfl)
      obtain ⟨record', hlookup'⟩ := Option.isSome_iff_exists.mp hsome
      have hdetected : record.detected = record'.detected := by
        have hfirst := hstore.journal.first id key record hlookup
        rw [hother.journal.first id key record' hlookup', Option.some.injEq]
          at hfirst
        exact hfirst.symm
      have hleaf : record.committed = record'.committed ∧
          record.rawLeafIndex = record'.rawLeafIndex := by
        by_cases hexists : ∃ completion leafIndex,
            FinalLeaf detector index completion key leafIndex
        · obtain ⟨completion, leafIndex, hfinal, hlast⟩ :=
            exists_lastLeaf hexists
          have hrecord := hstore.leaf completion key leafIndex hfinal hlast id
            record hlookup
          have hrecord' := hother.leaf completion key leafIndex hfinal hlast id
            record' hlookup'
          exact ⟨hrecord.1.trans hrecord'.1.symm,
            hrecord.2.trans hrecord'.2.symm⟩
        · have hpending : record.committed = false := by
            by_contra hcommitted
            obtain ⟨completion, hfinal⟩ := hstore.journal.leaf id key record
              hlookup (Bool.eq_true_of_not_eq_false hcommitted)
            exact hexists ⟨completion, _, hfinal⟩
          have hpending' : record'.committed = false := by
            by_contra hcommitted
            obtain ⟨completion, hfinal⟩ := hother.journal.leaf id key record'
              hlookup' (Bool.eq_true_of_not_eq_false hcommitted)
            exact hexists ⟨completion, _, hfinal⟩
          rw [hstore.journal.unset id key record hlookup hpending,
            hother.journal.unset id key record' hlookup' hpending', hpending,
            hpending']
          exact ⟨rfl, rfl⟩
      rw [hlookup', Option.some.injEq]
      cases record
      cases record'
      simp only [OwnedNoteRecord.mk.injEq]
      exact ⟨hdetected, hleaf⟩

theorem StoreSettled.session_eq (hstore : StoreSettled detector watched index store)
    (hother : StoreSettled detector watched index other) (key : Field) :
    store.noteSessions.lookup key = other.noteSessions.lookup key := by
  cases hsession : store.noteSessions.lookup key with
  | some id =>
      have hsome := hstore.lookup_isSome hother
        (hstore.journal.session key id hsession)
      exact (hother.journal.attributed id key hsome).symm
  | none =>
      cases hsession' : other.noteSessions.lookup key with
      | none => rfl
      | some id =>
          have hsome := hother.lookup_isSome hstore
            (hother.journal.session key id hsession')
          rw [hstore.journal.attributed id key hsome] at hsession
          cases hsession

end StoreSettled

namespace LifecycleState

variable {detector : CurvyNoteDetector Addr Secret Field Owner Note}
  {watched : List (WatchedAllocation Id Addr Secret)} {index : BlokliIndex}
  {state after : LifecycleState Id Addr Secret Field Note}

/-- With no final completion ahead, the tables are settled. -/
theorem Recoverable.settled {pass : CommittedPass}
    (hstate : state.Recoverable detector watched index)
    (hpass : pass.Recoverable detector watched index state.store)
    (hread : ∀ completion key leafIndex,
      FinalLeaf detector index completion key leafIndex →
      ¬ Later pass.committedAfter completion.position) :
    StoreSettled detector watched index state.store := by
  constructor
  · exact hstate.journal
  · exact hpass.discovered
  · intro completion key leafIndex hfinal hlast
    apply hpass.completed completion key leafIndex hfinal
      (hread completion key leafIndex hfinal)
    intro other otherLeaf hother _
    exact hlast other otherLeaf hother

theorem settled_of_last (hne : watched ≠ [])
    (hcommitted : Chronological CurvyCommittedNote.position index.committed)
    (hstate : state.Recoverable detector watched index)
    (hadvance : state.advance detector = some after)
    (hidle : after.pass = .idle) (hsucceeds : ¬ state.Fails detector) :
    StoreSettled detector watched index after.store := by
  have hpass := hstate.pass
  have horder : state.watched ≠ [] := by
    intro hnil
    have hperm := hstate.sameWatched
    rw [hnil] at hperm
    exact hne (List.nil_perm.mp hperm)
  unfold advance at hadvance
  split at hadvance
  · cases hadvance
  · cases hadvance
    cases hidle
  · rename_i replay cursor hasMore hphase
    cases hadvance
    cases hasMore with
    | true => cases hidle
    | false => cases hidle
  · rename_i replay cursor note notes hasMore hphase
    split at hadvance
    · rename_i error hprocess
      exact absurd hprocess processCandidate_ne_error
    · rename_i store hprocess
      have hwatching := (processCandidate_discovery horder hprocess).1
      cases hwatching
    · cases hadvance
      cases hidle
  · cases hadvance
    cases hidle
  · rename_i pass hphase
    cases hadvance
    dsimp only at hidle
    split at hidle
    · cases hidle
    · cases hidle
  · cases hadvance
    cases hidle
  · cases hadvance
    cases hidle
  · rename_i pass page note found hphase
    rw [hphase] at hpass
    cases hpass.2.2
  · rename_i pass pageLen hphase
    rw [hphase] at hpass
    cases hadvance
    dsimp only at hidle
    split at hidle
    · rename_i hshort
      apply hstate.settled hpass.1
      intro completion key leafIndex hfinal hlater
      have hin := hpass.2.2 hshort completion hfinal.mem hlater
      cases hin
    · cases hidle
  · rename_i pass note notes pageLen hphase
    rw [hphase] at hpass
    obtain ⟨hsecond, hreading, _⟩ := hpass
    split at hadvance
    · rename_i hunfinal
      cases hadvance
      apply hstate.settled hsecond
      intro completion key leafIndex hfinal hlater
      have hblock := hfinal.final
      rw [← hsecond.final] at hblock
      by_cases hafter : note.position < completion.position
      · have hle := CurvyEventCursor.block_le_of_lt hafter
        omega
      · have hsame := (hreading.advance hcommitted).2 completion hfinal.mem
          hlater hafter
        rw [hsame] at hblock
        omega
    · rename_i hfinal
      split at hadvance
      · rename_i store error hprocess
        exact absurd ⟨pass, note, notes, pageLen, hphase, hfinal, error,
          by rw [hprocess]⟩ hsucceeds
      · cases hadvance
        cases hidle

theorem RunsThrough.settled
    (hsound : detector.Sound {other | other ∈ watched})
    (hnodup : (watched.map (·.id)).Nodup) (hne : watched ≠ [])
    (hpending : Chronological CurvyPendingNote.position index.pending)
    (hcommitted : Chronological CurvyCommittedNote.position index.committed)
    (hrun : RunsThrough detector state after)
    (hstate : state.Recoverable detector watched index) :
    StoreSettled detector watched index after.store := by
  induction hrun with
  | last hadvance hidle hsucceeds =>
      exact settled_of_last hne hcommitted hstate hadvance hidle hsucceeds
  | step hadvance _ ih =>
      exact ih (advance_recoverable hsound hnodup hne hpending hcommitted
        hstate hadvance)

theorem CompletePass.settled
    (hsound : detector.Sound {other | other ∈ watched})
    (hnodup : (watched.map (·.id)).Nodup)
    (hpending : Chronological CurvyPendingNote.position index.pending)
    (hcommitted : Chronological CurvyCommittedNote.position index.committed)
    (hpass : CompletePass detector state after) (hne : watched ≠ [])
    (hstate : state.Recoverable detector watched index) :
    StoreSettled detector watched index after.store := by
  obtain ⟨started, hstart, hrun⟩ := hpass
  have hfixed : Fixed watched state
      (.start : LifecycleAction Id Addr Secret) := trivial
  exact hrun.settled hsound hnodup hne hpending hcommitted
    (next_recoverable hsound hnodup hne hpending hcommitted hstate hfixed
      hstart)

/-- A pass starts only where somebody is watched. -/
theorem CompletePass.watched_ne (hpass : CompletePass detector state after)
    (hperm : state.watched.Perm watched) : watched ≠ [] := by
  intro hnil
  obtain ⟨started, hstart, _⟩ := hpass
  rw [hnil] at hperm
  simp only [next, List.perm_nil.mp hperm] at hstart
  split at hstart
  · simp at hstart
  · cases hstart

/-- No step makes a committed note pending again. -/
theorem next_keeps_committed {action : LifecycleAction Id Addr Secret}
    (hnext : state.next detector action = some after) {id : Id} {key : Field}
    (hcommitted : state.store.RecordedCommitted id key) :
    after.store.RecordedCommitted id key := by
  rcases next_store hnext with
    hsame | ⟨candidate, watching, hprocess⟩ | ⟨note, result, hprocess⟩
  · rw [hsame]
    exact hcommitted
  · rcases processCandidate_cases hprocess with
      ⟨_, _, hstore⟩ | ⟨_, hstore⟩ | ⟨key', note, _, _, _, hstore⟩
    · rw [hstore]
      exact hcommitted
    · rw [hstore]
      exact hcommitted
    · rw [hstore]
      exact CurvyDepositState.recordOwnedCandidate_recorded hcommitted
  · rcases processCompletion_written hprocess with ⟨hsame, _⟩ | hwritten
    · rw [hsame]
      exact hcommitted
    · obtain ⟨record, hlookup, hrecord⟩ := hcommitted
      obtain ⟨record', hlookup', _⟩ := hwritten.kept id key record hlookup
      refine ⟨record', hlookup', ?_⟩
      rcases hwritten.record id key record' hlookup' with
        hold | ⟨old, _, _, hcommitted', _⟩
      · rw [hlookup, Option.some.injEq] at hold
        rw [← hold]
        exact hrecord
      · exact hcommitted'

/-- What the durable cursor has passed is recorded. -/
theorem Recoverable.recorded
    (hstate : state.Recoverable detector watched index)
    {completion : CurvyCommittedNote} {key : Field} {id : Id}
    (hmem : completion ∈ index.committed)
    (hcompletes : Completes detector completion key)
    (hpast : ¬ Later state.store.committedCursor completion.position)
    (hattributed : state.store.Attributed id key) :
    state.store.RecordedCommitted id key := by
  obtain ⟨leafIndex, hleaf⟩ := Option.isSome_iff_exists.mp hcompletes.1
  have hblock : completion.position.block ≤ index.finalBlock := by
    cases hcursor : state.store.committedCursor with
    | none =>
        rw [hcursor] at hpast
        exact absurd (later_none _) hpast
    | some cursor =>
        have hfinal := hstate.final cursor (by rw [hcursor]; rfl)
        rw [hcursor, later_some] at hpast
        rcases lt_or_eq_of_le (le_of_not_gt hpast) with hlt | heq
        · exact le_trans (CurvyEventCursor.block_le_of_lt hlt) hfinal
        · rw [heq]
          exact hfinal
  obtain ⟨last, hlast, ⟨⟨lastLeaf, hlastLeaf⟩, hread⟩, hmax⟩ :=
    exists_last CurvyCommittedNote.position index.committed
      (fun event => (∃ leaf, FinalLeaf detector index event key leaf) ∧
        ¬ Later state.store.committedCursor event.position)
      ⟨completion, hmem, ⟨leafIndex, hmem, hblock, hleaf, hcompletes.2⟩, hpast⟩
  obtain ⟨record, hlookup⟩ := Option.isSome_iff_exists.mp hattributed.2
  refine ⟨record, hlookup, ?_⟩
  have hrecord := hstate.completed last key lastLeaf hlastLeaf hread
    (fun other otherLeaf hother hbefore =>
      hmax other hother.mem ⟨⟨otherLeaf, hother⟩, hbefore⟩) id record hlookup
  exact hrecord.1

/-- No state on the way counts more than a settled one. -/
theorem Recoverable.amount_le
    (hstate : state.Recoverable detector watched index)
    {store : CurvyDepositState Id Addr Field Note}
    (hsettled : StoreSettled detector watched index store) {id : Id}
    {amount full : HoprBalance}
    (hamount : state.store.committedAmount id = .ok amount)
    (hfull : store.committedAmount id = .ok full) :
    amount.wei ≤ full.wei := by
  apply CurvyDepositState.committedAmount_le _ hamount hfull
  intro key record hlookup
  obtain ⟨candidate, hmem, note, hfound, hid⟩ :=
    hstate.journal.discovered (by rw [hlookup]; rfl)
  have hsome := hsettled.discovered candidate hmem key note hfound
  rw [hid] at hsome
  obtain ⟨record', hlookup'⟩ := Option.isSome_iff_exists.mp hsome
  refine ⟨record', hlookup', ?_⟩
  have hdetected : record.detected = record'.detected := by
    have hfirst := hstate.journal.first id key record hlookup
    rw [hsettled.journal.first id key record' hlookup', Option.some.injEq]
      at hfirst
    exact hfirst.symm
  unfold CurvyDepositState.recordValue
  by_cases hrecorded : record.committed = true
  · obtain ⟨completion, hfinal⟩ :=
      hstate.journal.leaf id key record hlookup hrecorded
    obtain ⟨last, lastLeaf, hlast, hmax⟩ :=
      exists_lastLeaf ⟨completion, _, hfinal⟩
    have hcommitted :=
      (hsettled.leaf last key lastLeaf hlast hmax id record' hlookup').1
    rw [if_pos hrecorded, if_pos hcommitted, hdetected]
  · rw [if_neg hrecorded]
    exact Nat.zero_le _

/-- After whatever interruptions, crashes and replays, a complete pass leaves
the tables and the amounts of a single pass over a fresh store.  On the way the
cursor never passes a completion which is not recorded, no committed note
becomes pending, and no note is counted twice. -/
theorem replayIdempotent
    (detector : CurvyNoteDetector Addr Secret Field Owner Note)
    (watched : List (WatchedAllocation Id Addr Secret)) (index : BlokliIndex)
    (hsound : detector.Sound {other | other ∈ watched})
    (hnodup : (watched.map (·.id)).Nodup)
    (hpending : Chronological CurvyPendingNote.position index.pending)
    (hcommitted : Chronological CurvyCommittedNote.position index.committed)
    {fresh single state final : LifecycleState Id Addr Secret Field Note}
    (hfresh : (replaySystem detector watched index).init fresh)
    (hsingle : CompletePass detector fresh single)
    (hreach : (replaySystem detector watched index).ReachableWithin
      (Fixed watched) state)
    (hfinal : CompletePass detector state final) :
    (∀ key, final.store.ownedNotes.lookup key =
        single.store.ownedNotes.lookup key) ∧
      (∀ key, final.store.noteSessions.lookup key =
        single.store.noteSessions.lookup key) ∧
      (∀ id, final.store.committedAmount id =
        single.store.committedAmount id) ∧
      (∀ completion ∈ index.committed, ∀ id key,
        Completes detector completion key →
        ¬ Later state.store.committedCursor completion.position →
        state.store.Attributed id key →
        state.store.RecordedCommitted id key) ∧
      (∀ action after, state.next detector action = some after →
        ∀ id key, state.store.RecordedCommitted id key →
          after.store.RecordedCommitted id key) ∧
      ∀ id amount full, state.store.committedAmount id = .ok amount →
        single.store.committedAmount id = .ok full →
        amount.wei ≤ full.wei := by
  obtain ⟨replayHistory, rfl⟩ := hfresh
  have hne : watched ≠ [] := hsingle.watched_ne (List.Perm.refl _)
  have hstate : state.Recoverable detector watched index := by
    refine hreach.invariant ?_ ?_
    · intro start hinit
      obtain ⟨asked, rfl⟩ := hinit
      exact initial_recoverable asked
    · intro before action after hbefore hfixed hnext
      exact next_recoverable hsound hnodup hne hpending hcommitted hbefore
        hfixed hnext
  have hsettled := hfinal.settled hsound hnodup hpending hcommitted hne hstate
  have hsettled' := hsingle.settled hsound hnodup hpending hcommitted hne
    (initial_recoverable replayHistory)
  have hlookup := hsettled.lookup_eq hsettled'
  refine ⟨hlookup, hsettled.session_eq hsettled', ?_, ?_, ?_, ?_⟩
  · intro id
    exact CurvyDepositState.committedAmount_of_lookup hlookup
  · intro completion hmem id key hcompletes hpast hattributed
    exact hstate.recorded hmem hcompletes hpast hattributed
  · intro action after hnext id key
    exact next_keeps_committed hnext
  · intro id amount full hamount hfull
    exact hstate.amount_le hsettled' hamount hfull

/-- One note, passed over from genesis. -/
theorem soleState_runsThrough (store : CurvyDepositState ℕ ℕ ℕ (ℕ × ℕ))
    (hstore : store = .empty ∨ store = attributedStore) (replay : Bool) :
    RunsThrough plaintextDetector
      (soleState store (.requestPending replay none))
      (soleState committedStore .idle) := by
  let second : CommittedPass := ⟨replay, some soleNote.position, 2, none⟩
  have hlast : RunsThrough plaintextDetector
      (soleState committedStore (.completions
        { second with committedAfter := some soleCompletion.position } [] 1))
      (soleState committedStore .idle) := by
    apply RunsThrough.last rfl rfl
    intro hfails
    obtain ⟨pass, note, notes, pageLen, hpass, _⟩ := hfails
    cases hpass
  have hcompletions : RunsThrough plaintextDetector
      (soleState attributedStore (.completions second [soleCompletion] 1))
      (soleState committedStore .idle) := .step rfl hlast
  have hdiscoveries : RunsThrough plaintextDetector
      (soleState attributedStore (.discoveries second [soleCompletion] []))
      (soleState committedStore .idle) := .step rfl hcompletions
  have hcandidates : RunsThrough plaintextDetector
      (soleState attributedStore (.requestCandidates second [soleCompletion]))
      (soleState committedStore .idle) := .step rfl hdiscoveries
  have hcommitted : RunsThrough plaintextDetector
      (soleState attributedStore (.requestCommitted second))
      (soleState committedStore .idle) := .step rfl hcandidates
  have hhead : RunsThrough plaintextDetector
      (soleState attributedStore (.readHead replay (some soleNote.position)))
      (soleState committedStore .idle) := by
    cases replay with
    | false => exact .step rfl hcommitted
    | true => exact .step rfl hcommitted
  have hread : RunsThrough plaintextDetector
      (soleState attributedStore
        (.candidates replay (some soleNote.position) [] false))
      (soleState committedStore .idle) := .step rfl hhead
  have hnote : RunsThrough plaintextDetector
      (soleState store (.candidates replay none [soleNote] false))
      (soleState committedStore .idle) := by
    rcases hstore with rfl | rfl
    · exact .step rfl hread
    · exact .step rfl hread
  exact .step rfl hnote

/-- The node crashes with the note read as pending. -/
theorem replayIdempotent_sole :
    ∃ final single : LifecycleState ℕ ℕ Unit ℕ (ℕ × ℕ),
      CompletePass plaintextDetector { soleState attributedStore .idle with
        replayHistory := true } final ∧
      CompletePass plaintextDetector (soleState .empty .idle) single ∧
      ∀ id, final.store.committedAmount id =
        single.store.committedAmount id := by
  let index : BlokliIndex := ⟨[soleNote], [soleCompletion], 3, 1⟩
  have hsound : plaintextDetector.Sound
      {other | other ∈ [soleAllocation]} := by
    have hset : ({other | other ∈ [soleAllocation]} :
        Set (WatchedAllocation ℕ ℕ Unit)) = {soleAllocation} := by
      ext other
      simp
    rw [hset]
    exact plaintextDetector_sound
  have hfresh : (replaySystem plaintextDetector [soleAllocation] index).init
      (soleState .empty .idle : LifecycleState ℕ ℕ Unit ℕ (ℕ × ℕ)) :=
    ⟨false, rfl⟩
  have hsingle : CompletePass plaintextDetector (soleState .empty .idle)
      (soleState committedStore .idle) :=
    ⟨_, rfl, soleState_runsThrough .empty (Or.inl rfl) false⟩
  have hfinal : CompletePass plaintextDetector
      { soleState attributedStore .idle with replayHistory := true }
      (soleState committedStore .idle) :=
    ⟨_, rfl, soleState_runsThrough attributedStore (Or.inr rfl) true⟩
  have hstart : ∀ state : LifecycleState ℕ ℕ Unit ℕ (ℕ × ℕ),
      Fixed [soleAllocation] state .start := fun _ => trivial
  have hadvance : ∀ state : LifecycleState ℕ ℕ Unit ℕ (ℕ × ℕ),
      Fixed [soleAllocation] state .advance := fun _ => trivial
  have hcrash : ∀ state : LifecycleState ℕ ℕ Unit ℕ (ℕ × ℕ),
      Fixed [soleAllocation] state (.crash [soleAllocation]) :=
    fun _ => List.Perm.refl _
  have h₀ : (replaySystem plaintextDetector [soleAllocation]
      index).ReachableWithin (Fixed [soleAllocation])
      (soleState .empty .idle : LifecycleState ℕ ℕ Unit ℕ (ℕ × ℕ)) :=
    .init hfresh
  have h₁ : (replaySystem plaintextDetector [soleAllocation]
      index).ReachableWithin (Fixed [soleAllocation])
      (soleState .empty (.requestPending false none)) :=
    h₀.step (hstart _) rfl
  have h₂ : (replaySystem plaintextDetector [soleAllocation]
      index).ReachableWithin (Fixed [soleAllocation])
      (soleState .empty (.candidates false none [soleNote] false)) :=
    h₁.step (hadvance _) rfl
  have h₃ : (replaySystem plaintextDetector [soleAllocation]
      index).ReachableWithin (Fixed [soleAllocation])
      (soleState attributedStore
        (.candidates false (some soleNote.position) [] false)) :=
    h₂.step (hadvance _) rfl
  have hreach : (replaySystem plaintextDetector [soleAllocation]
      index).ReachableWithin (Fixed [soleAllocation])
      { soleState attributedStore .idle with replayHistory := true } :=
    h₃.step (hcrash _) rfl
  exact ⟨_, _, hfinal, hsingle,
    (replayIdempotent plaintextDetector [soleAllocation] index hsound
      (by simp) (List.pairwise_singleton _ _) (List.pairwise_singleton _ _)
      hfresh hsingle hreach hfinal).2.2.1⟩

end LifecycleState

end HoprStrategy.Curvy
