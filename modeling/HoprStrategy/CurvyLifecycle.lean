import HoprStrategy.CurvyState
import HoprStrategy.Library.EventLog
import HoprStrategy.Library.TransitionSystem

/-!
# The catch-up passes over the index

One pass reads the pending notes page by page, then the indexed head, then the
committed notes up to the finalized block.  Every request is a step, and so is
every note of a page; between any two steps the index may grow, the watched
set may change and the pass may fail.  A pass asked to replay starts from
genesis, and a failed one asks again.
-/

namespace HoprStrategy.Curvy

open Library

def queryPageSize : ℕ := 1000

/-- A committed-note event as the index serves it. -/
structure CurvyCommittedNote where
  position : CurvyEventCursor
  noteId : String
  leafIndex : String
  deriving DecidableEq

/-- `u64::from_str`. -/
def parseU64 (text : String) : Option UInt64 :=
  let digits :=
    match text.toList with
    | '+' :: rest => rest
    | digits => digits
  if digits.isEmpty ∨ ¬ digits.all Char.isDigit then none
  else
    let value := digits.foldl
      (fun value digit => 10 * value + (digit.toNat - '0'.toNat)) 0
    if value < 2 ^ 64 then some (UInt64.ofNat value) else none

/-- What Blokli has indexed: both event logs, the highest block it has
processed, and the confirmations it treats as final. -/
structure BlokliIndex where
  pending : List CurvyPendingNote
  committed : List CurvyCommittedNote
  indexedBlock : ℕ
  finality : ℕ
  deriving DecidableEq

structure PendingNotesPage where
  notes : List CurvyPendingNote
  hasMore : Bool

namespace BlokliIndex

def pendingNotes (index : BlokliIndex) (after : Option CurvyEventCursor)
    (first : ℕ) : PendingNotesPage :=
  let notes := eventPage CurvyPendingNote.position index.pending after first
  ⟨notes, notes.length == first⟩

def committedNotes (index : BlokliIndex) (after : Option CurvyEventCursor)
    (first : ℕ) : List CurvyCommittedNote :=
  eventPage CurvyCommittedNote.position index.committed after first

/-- Blokli's pending stream is complete, so it serves no candidates here. -/
def committedCandidates (_index : BlokliIndex)
    (_after : Option CurvyEventCursor) (_first : ℕ) : List CurvyPendingNote :=
  []

/-- Events keep their positions, new ones come last, and every note is announced
before it is committed. -/
def Grows (index : BlokliIndex) (announced : List CurvyPendingNote)
    (completed : List CurvyCommittedNote) (indexedBlock : ℕ) : Prop :=
  index.indexedBlock ≤ indexedBlock ∧
    Chronological CurvyPendingNote.position (index.pending ++ announced) ∧
    Chronological CurvyCommittedNote.position
      (index.committed ++ completed) ∧
    ∀ note ∈ announced, ∀ completion ∈ index.committed,
      completion.noteId ≠ note.noteId

instance (index : BlokliIndex) (announced : List CurvyPendingNote)
    (completed : List CurvyCommittedNote) (indexedBlock : ℕ) :
    Decidable (index.Grows announced completed indexedBlock) := by
  unfold Grows Chronological
  infer_instance

def grown (index : BlokliIndex) (announced : List CurvyPendingNote)
    (completed : List CurvyCommittedNote) (indexedBlock : ℕ) : BlokliIndex :=
  { index with
    pending := index.pending ++ announced
    committed := index.committed ++ completed
    indexedBlock := indexedBlock }

end BlokliIndex

inductive CurvyLifecycleError where
  | state (error : CurvyStateError)
  deriving DecidableEq

/-- The variables of the second half of a pass. -/
structure CommittedPass where
  replay : Bool
  pendingAfter : Option CurvyEventCursor
  finalizedThrough : ℕ
  committedAfter : Option CurvyEventCursor
  deriving DecidableEq

/-- Where a pass stands. -/
inductive CatchUp where
  | idle
  | requestPending (replay : Bool) (pendingAfter : Option CurvyEventCursor)
  | candidates (replay : Bool) (pendingAfter : Option CurvyEventCursor)
      (notes : List CurvyPendingNote) (hasMore : Bool)
  | readHead (replay : Bool) (pendingAfter : Option CurvyEventCursor)
  | requestCommitted (pass : CommittedPass)
  | requestCandidates (pass : CommittedPass) (page : List CurvyCommittedNote)
  | discoveries (pass : CommittedPass) (page : List CurvyCommittedNote)
      (found : List CurvyPendingNote)
  | completions (pass : CommittedPass) (notes : List CurvyCommittedNote)
      (pageLen : ℕ)
  deriving DecidableEq

def CatchUp.committedPass : CatchUp → Option CommittedPass
  | .requestCommitted pass => some pass
  | .requestCandidates pass _ => some pass
  | .discoveries pass _ _ => some pass
  | .completions pass _ _ => some pass
  | _ => none

def CatchUp.replay : CatchUp → Bool
  | .idle => false
  | .requestPending replay _ => replay
  | .candidates replay _ _ _ => replay
  | .readHead replay _ => replay
  | .requestCommitted pass => pass.replay
  | .requestCandidates pass _ => pass.replay
  | .discoveries pass _ _ => pass.replay
  | .completions pass _ _ => pass.replay

section

variable (Id Addr Secret Field Note : Type)

/-- The index, the durable store and the tracker with its pass. -/
structure LifecycleState where
  index : BlokliIndex
  store : CurvyDepositState Id Addr Field Note
  watched : List (WatchedAllocation Id Addr Secret)
  replayHistory : Bool
  pass : CatchUp

inductive LifecycleAction where
  | grow (announced : List CurvyPendingNote)
      (completed : List CurvyCommittedNote) (indexedBlock : ℕ)
  /-- Registrations and cancellations; a registration asks for a replay. -/
  | watch (watched : List (WatchedAllocation Id Addr Secret))
      (registered : Bool)
  | start
  | advance
  /-- A request, a lookup or a write transaction of the pass fails. -/
  | interrupt
  /-- The node restarts and registers its allocations again. -/
  | crash (watched : List (WatchedAllocation Id Addr Secret))

end

variable {Id Addr Secret Field Owner Note : Type}
  [DecidableEq Id] [DecidableEq Field]

namespace CurvyDepositState

/-- `process_candidate`: `false` when nobody is watching. -/
def processCandidate
    (detector : CurvyNoteDetector Addr Secret Field Owner Note)
    (store : CurvyDepositState Id Addr Field Note)
    (watched : List (WatchedAllocation Id Addr Secret))
    (candidate : CurvyPendingNote) :
    Except CurvyLifecycleError
      (CurvyDepositState Id Addr Field Note × Bool) :=
  if watched.isEmpty then .ok (store, false)
  else
    match detector.detectOwnedNote candidate watched with
    | .error _ =>
        -- malformed public event, quarantined
        .ok (store.advanceCursor .pending candidate.position, true)
    | .ok none => .ok (store.advanceCursor .pending candidate.position, true)
    | .ok (some note) =>
        match detector.parseNoteId candidate.noteId with
        | .error error => .error (.state (.corrupt error.text))
        | .ok key =>
            .ok (store.recordOwnedCandidate key note candidate.position, true)

/-- `process_completion`: the store afterwards, and whether it failed.  The
committed amount for the waiters is read after the write. -/
def processCompletion
    (detector : CurvyNoteDetector Addr Secret Field Owner Note)
    (store : CurvyDepositState Id Addr Field Note)
    (completion : CurvyCommittedNote) :
    CurvyDepositState Id Addr Field Note ×
      Except CurvyLifecycleError (Option (Id × HoprBalance)) :=
  match parseU64 completion.leafIndex with
  | none => (store.advanceCursor .committed completion.position, .ok none)
  | some leafIndex =>
      match detector.parseNoteId completion.noteId with
      | .error _ =>
          (store.advanceCursor .committed completion.position, .ok none)
      | .ok key =>
          match store.recordCompletion key leafIndex completion.position with
          | .error error => (store, .error (.state error))
          | .ok (after, none) => (after, .ok none)
          | .ok (after, some note) =>
              match after.committedAmount note.deposit.id with
              | .error error => (after, .error (.state error))
              | .ok committed => (after, .ok (some (note.deposit.id, committed)))

end CurvyDepositState

namespace LifecycleState

def initial (finality : ℕ) (watched : List (WatchedAllocation Id Addr Secret)) :
    LifecycleState Id Addr Secret Field Note :=
  ⟨⟨[], [], 0, finality⟩, CurvyDepositState.empty, watched, false, .idle⟩

/-- A cursor to start a family from. -/
def catchUpCursor (store : CurvyDepositState Id Addr Field Note)
    (kind : CurvyEventKind) (replay : Bool) : Option CurvyEventCursor :=
  if replay then none else store.cursor kind

/-- The pass returns an error, and a replay is asked for again. -/
def failed (state : LifecycleState Id Addr Secret Field Note) :
    LifecycleState Id Addr Secret Field Note :=
  { state with
    pass := .idle
    replayHistory := state.replayHistory || state.pass.replay }

/-- `catch_up`, one step at a time. -/
def advance (detector : CurvyNoteDetector Addr Secret Field Owner Note)
    (state : LifecycleState Id Addr Secret Field Note) :
    Option (LifecycleState Id Addr Secret Field Note) :=
  match state.pass with
  | .idle => none
  | .requestPending replay after =>
      let page := state.index.pendingNotes after queryPageSize
      some { state with pass := .candidates replay after page.notes page.hasMore }
  | .candidates replay after [] hasMore =>
      some { state with
        pass :=
          if hasMore then .requestPending replay after
          else .readHead replay after }
  | .candidates replay _ (note :: notes) hasMore =>
      match state.store.processCandidate detector state.watched note with
      | .error _ => some state.failed
      | .ok (store, false) => some { state with store := store, pass := .idle }
      | .ok (store, true) =>
          some { state with
            store := store
            pass := .candidates replay (some note.position) notes hasMore }
  | .readHead replay pendingAfter =>
      some { state with
        pass := .requestCommitted
          { replay := replay
            pendingAfter := pendingAfter
            finalizedThrough :=
              state.index.indexedBlock - state.index.finality
            committedAfter := catchUpCursor state.store .committed replay } }
  | .requestCommitted pass =>
      let page := state.index.committedNotes pass.committedAfter queryPageSize
      some { state with
        pass :=
          if 0 < page.length then .requestCandidates pass page
          else .completions pass page page.length }
  | .requestCandidates pass page =>
      some { state with
        pass := .discoveries pass page
          (state.index.committedCandidates pass.committedAfter page.length) }
  | .discoveries pass page [] =>
      some { state with pass := .completions pass page page.length }
  | .discoveries pass page (note :: found) =>
      match state.store.processCandidate detector state.watched note with
      | .error _ => some state.failed
      | .ok (store, false) => some { state with store := store, pass := .idle }
      | .ok (store, true) =>
          some { state with
            store := store
            pass := .discoveries pass page found }
  | .completions pass [] pageLen =>
      some { state with
        pass :=
          if pageLen < queryPageSize then .idle else .requestCommitted pass }
  | .completions pass (note :: notes) pageLen =>
      if pass.finalizedThrough < note.position.block then
        some { state with pass := .idle }
      else
        match state.store.processCompletion detector note with
        | (store, .error _) => some ({ state with store := store }).failed
        | (store, .ok _) =>
            some { state with
              store := store
              pass := .completions
                { pass with committedAfter := some note.position } notes
                pageLen }

def next (detector : CurvyNoteDetector Addr Secret Field Owner Note)
    (state : LifecycleState Id Addr Secret Field Note) :
    LifecycleAction Id Addr Secret →
      Option (LifecycleState Id Addr Secret Field Note)
  | .grow announced completed indexedBlock =>
      if state.index.Grows announced completed indexedBlock then
        some { state with
          index := state.index.grown announced completed indexedBlock }
      else none
  | .watch watched registered =>
      some { state with
        watched := watched
        replayHistory := state.replayHistory || registered }
  | .start =>
      match state.pass with
      | .idle =>
          if state.watched.isEmpty then none
          else
            some { state with
              replayHistory := false
              pass := .requestPending state.replayHistory
                (catchUpCursor state.store .pending state.replayHistory) }
      | _ => none
  | .advance => state.advance detector
  | .interrupt => some state.failed
  | .crash watched =>
      some { state with
        watched := watched
        replayHistory := ! watched.isEmpty
        pass := .idle }

end LifecycleState

/-- The node, started with some watched allocations over a fresh store. -/
def lifecycleSystem (detector : CurvyNoteDetector Addr Secret Field Owner Note)
    (finality : ℕ) :
    TransitionSystem (LifecycleState Id Addr Secret Field Note)
      (LifecycleAction Id Addr Secret) where
  init state := ∃ watched, state = LifecycleState.initial finality watched
  next := LifecycleState.next detector

end HoprStrategy.Curvy
