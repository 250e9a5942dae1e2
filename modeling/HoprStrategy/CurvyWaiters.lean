import HoprStrategy.CurvyStoreSteps

/-!
# Waiting for a deposit

A registration reads the committed amount and joins the waiters under one lock.
The pass records a completion, reads the amount and then takes the lock to
notify; the three are steps of their own, since a registration, a cancellation
or a failure may come between them.
-/

namespace HoprStrategy.Curvy

open Library

section

variable (Id Addr Secret Field Note : Type)

/-- `canceled` once the receiver is gone. -/
structure DepositWaiter where
  allocation : WatchedAllocation Id Addr Secret
  minimum : HoprBalance
  canceled : Bool

/-- The tracker with its waiters.  `registering` holds the lock on them, and
`recorded` is the allocation of a completion whose waiters are not notified
yet, with the amount once it was read.  `completed` says that the last pass
returned without an error. -/
structure TrackerState where
  lifecycle : LifecycleState Id Addr Secret Field Note
  waiters : List (DepositWaiter Id Addr Secret)
  registering : Option (DepositWaiter Id Addr Secret)
  recorded : Option (Id × Option HoprBalance)
  completed : Bool

inductive TrackerAction where
  | grow (announced : List CurvyPendingNote)
      (completed : List CurvyCommittedNote) (indexedBlock : ℕ)
  /-- `watch`, up to the read of the committed amount. -/
  | watch (allocation : WatchedAllocation Id Addr Secret)
      (minimum : HoprBalance)
  /-- The rest of `watch`. -/
  | insert
  | cancel (index : ℕ)
  | start (watched : List (WatchedAllocation Id Addr Secret))
  | advance (watched : List (WatchedAllocation Id Addr Secret))
  | readAmount
  | notify
  | interrupt
  | crash

end

variable {Id Addr Secret Field Owner Note : Type}
  [DecidableEq Id] [DecidableEq Addr] [DecidableEq Secret] [DecidableEq Field]

/-- Whether the next step of the pass asks who is watched. -/
def CatchUp.asksWatched : CatchUp → Bool
  | .candidates _ _ (_ :: _) _ => true
  | .discoveries _ _ (_ :: _) => true
  | _ => false

namespace TrackerState

def initial (finality : ℕ) : TrackerState Id Addr Secret Field Note where
  lifecycle := LifecycleState.initial finality []
  waiters := []
  registering := none
  recorded := none
  completed := false

/-- The waiters who have not gone. -/
def live (state : TrackerState Id Addr Secret Field Note) :
    List (DepositWaiter Id Addr Secret) :=
  state.waiters.filter fun waiter => ! waiter.canceled

/-- `watched_allocations`, in whatever order the map has. -/
def watchedAllocations (state : TrackerState Id Addr Secret Field Note)
    (watched : List (WatchedAllocation Id Addr Secret)) :
    Option (TrackerState Id Addr Secret Field Note) :=
  match state.registering with
  | some _ => none
  | none =>
      if watched.Perm (state.live.map (·.allocation)).dedup then
        some { state with
          waiters := state.live
          lifecycle := { state.lifecycle with watched := watched } }
      else none

/-- The pass is given up. -/
def failed (state : TrackerState Id Addr Secret Field Note) :
    TrackerState Id Addr Secret Field Note :=
  { state with
    lifecycle := state.lifecycle.failed
    recorded := none
    completed := false }

def watch (detector : CurvyNoteDetector Addr Secret Field Owner Note)
    (state : TrackerState Id Addr Secret Field Note)
    (allocation : WatchedAllocation Id Addr Secret) (minimum : HoprBalance) :
    Option (TrackerState Id Addr Secret Field Note) :=
  match state.registering with
  | some _ => none
  | none =>
      match detector.bjjPoint allocation.address with
      | .error _ => some state
      | .ok _ =>
          match state.lifecycle.store.committedAmount allocation.id with
          | .error _ => some state
          | .ok committed =>
              if minimum ≤ committed then some state
              else
                some { state with
                  registering := some ⟨allocation, minimum, false⟩ }

/-- An id which is registered with another address or scan identity is
refused. -/
def insert (state : TrackerState Id Addr Secret Field Note)
    (waiter : DepositWaiter Id Addr Secret) :
    TrackerState Id Addr Secret Field Note :=
  if state.waiters.any fun other =>
      other.allocation.id = waiter.allocation.id ∧
        other.allocation ≠ waiter.allocation then
    { state with registering := none }
  else
    { state with
      registering := none
      waiters := state.waiters ++ [waiter]
      lifecycle := { state.lifecycle with replayHistory := true } }

def notifyWaiters (id : Id) (committed : HoprBalance)
    (waiters : List (DepositWaiter Id Addr Secret)) :
    List (DepositWaiter Id Addr Secret) :=
  waiters.filter fun waiter =>
    waiter.allocation.id ≠ id ∨
      ¬ waiter.minimum ≤ committed ∧ waiter.canceled = false

def cancel (state : TrackerState Id Addr Secret Field Note) (index : ℕ) :
    TrackerState Id Addr Secret Field Note :=
  { state with
    waiters := state.waiters.modify index fun waiter =>
      { waiter with canceled := true } }

/-- A step of the pass which leads to `lifecycle`. -/
def passed (state : TrackerState Id Addr Secret Field Note)
    (lifecycle : LifecycleState Id Addr Secret Field Note) :
    TrackerState Id Addr Secret Field Note :=
  { state with lifecycle := lifecycle, completed := lifecycle.pass = .idle }

/-- The durable half of a completion. -/
def complete (detector : CurvyNoteDetector Addr Secret Field Owner Note)
    (state : TrackerState Id Addr Secret Field Note) (pass : CommittedPass)
    (note : CurvyCommittedNote) (notes : List CurvyCommittedNote)
    (pageLen : ℕ) : TrackerState Id Addr Secret Field Note :=
  if pass.finalizedThrough < note.position.block then
    state.passed { state.lifecycle with pass := .idle }
  else
    match state.lifecycle.store.writeCompletion detector note with
    | .error _ => state.failed
    | .ok (store, owner) =>
        { state with
          lifecycle := { state.lifecycle with
            store := store
            pass := .completions
              { pass with committedAfter := some note.position } notes pageLen }
          recorded := owner.map fun id => (id, none) }

/-- The next step of the pass. -/
def advance (detector : CurvyNoteDetector Addr Secret Field Owner Note)
    (state : TrackerState Id Addr Secret Field Note)
    (watched : List (WatchedAllocation Id Addr Secret)) :
    Option (TrackerState Id Addr Secret Field Note) :=
  match state.recorded with
  | some _ => none
  | none =>
      match state.lifecycle.pass with
      | .completions pass (note :: notes) pageLen =>
          some (state.complete detector pass note notes pageLen)
      | pass =>
          if pass.asksWatched then do
            let asked ← state.watchedAllocations watched
            let lifecycle ← asked.lifecycle.advance detector
            some (asked.passed lifecycle)
          else do
            let lifecycle ← state.lifecycle.advance detector
            some (state.passed lifecycle)

def next (detector : CurvyNoteDetector Addr Secret Field Owner Note)
    (state : TrackerState Id Addr Secret Field Note) :
    TrackerAction Id Addr Secret →
      Option (TrackerState Id Addr Secret Field Note)
  | .grow announced completed indexedBlock => do
      let lifecycle ← state.lifecycle.next detector
        (.grow announced completed indexedBlock)
      some { state with lifecycle := lifecycle }
  | .watch allocation minimum => state.watch detector allocation minimum
  | .insert => state.registering.map state.insert
  | .cancel index => some (state.cancel index)
  | .start watched => do
      let asked ← state.watchedAllocations watched
      let lifecycle ← asked.lifecycle.next detector .start
      some { asked with lifecycle := lifecycle, completed := false }
  | .advance watched => state.advance detector watched
  | .readAmount =>
      match state.recorded with
      | some (id, none) =>
          match state.lifecycle.store.committedAmount id with
          | .error _ => some state.failed
          | .ok committed =>
              some { state with recorded := some (id, some committed) }
      | _ => none
  | .notify =>
      match state.recorded, state.registering with
      | some (id, some committed), none =>
          some { state with
            waiters := notifyWaiters id committed state.waiters
            recorded := none }
      | _, _ => none
  | .interrupt =>
      match state.lifecycle.pass, state.recorded with
      | .idle, _ => none
      | _, some (_, some _) => none
      | _, _ => some state.failed
  | .crash =>
      some { state with
        lifecycle := { state.lifecycle with
          watched := []
          replayHistory := false
          pass := .idle }
        waiters := []
        registering := none
        recorded := none
        completed := false }

end TrackerState

/-- A node which starts over a fresh store. -/
def trackerSystem (detector : CurvyNoteDetector Addr Secret Field Owner Note)
    (finality : ℕ) :
    TransitionSystem (TrackerState Id Addr Secret Field Note)
      (TrackerAction Id Addr Secret) where
  init state := state = TrackerState.initial finality
  next := TrackerState.next detector

end HoprStrategy.Curvy
