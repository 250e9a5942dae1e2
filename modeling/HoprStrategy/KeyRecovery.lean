import HoprStrategy.DepositEvents

/-!
# Recovered keys from the event to the sweep

A recovered key is written to the recovery store, buffered and swept by a
flush, while the replay walks the entries which it has read from the store at
the start.  Both go through one guard set, and every read or write of the
guard and of the store is a step of its own.  A crash loses everything but the
store; a replay which is aborted takes no more steps.
-/

namespace HoprStrategy.Pix

open Library

section

variable (Id Secret Key Cause : Type)

/-- The recovery store, with the secrets as they decrypt. -/
structure PixRecoveryStore where
  entries : List (Id × Secret)

/-- How far `on_pix_event` has come with a recovered key. -/
inductive RecoveryPhase where
  | idle
  /-- The key is in the store, where one is configured. -/
  | persisted (id : Id) (secret : Secret)
  /-- No sweep of the id was in flight. -/
  | cleared (id : Id) (secret : Secret)
  /-- The id is marked as in flight. -/
  | claimed (id : Id) (secret : Secret)

/-- A withdrawal flush, by what it has left to do. -/
inductive SweepTask where
  | starting (batch : List (Id × Secret))
  | parsing (remaining : List (Id × Secret)) (keys : List (Id × Key))
  /-- The pool has not answered. -/
  | callingSingle (id : Id) (key : Key)
  | calling (keys : List (Id × Key))
  | singleSwept (id : Id)
  | singleFailed (id : Id)
  | releasing (remaining : List (Id × Key))
      (outcomes : List (Except (StrategyError Cause) Id))
  | removing (outcomes : List (Except (StrategyError Cause) Id))
  | failedReleasing (remaining : List (Id × Key))
  | done

/-- The replay of the store, by the entry at hand and those it has left. -/
inductive ReplayPhase where
  | notStarted
  | walking (remaining : List (Id × Secret))
  | cleared (id : Id) (secret : Secret) (remaining : List (Id × Secret))
  | claimed (id : Id) (secret : Secret) (remaining : List (Id × Secret))
  | calling (id : Id) (key : Key) (remaining : List (Id × Secret))
  | swept (id : Id) (remaining : List (Id × Secret))
  | removing (id : Id) (remaining : List (Id × Secret))
  | failed (id : Id) (remaining : List (Id × Secret))

inductive SweepReply where
  | single (result : Except (StrategyError Cause) Unit)
  | multiple (result :
      Except (StrategyError Cause) (List (Except (StrategyError Cause) Id)))

/-- The strategy with its flushes and its replay.  `everPersisted` lists what
was ever committed to the store, `reportedOk` the ids which the pool has ever
answered for with success, and `sweptSinceCapture` the swept ids among them
since the replay has read its entries. -/
structure SweepState where
  recoveryStore : Option (PixRecoveryStore Id Secret)
  inFlightSweeps : Finset Id
  withdrawalBuffer : List (Id × Secret)
  handler : RecoveryPhase Id Secret
  flushes : List (SweepTask Id Secret Key Cause)
  replay : ReplayPhase Id Secret Key
  result : Except (StrategyError Cause) Unit
  everPersisted : List (Id × Secret)
  reportedOk : List Id
  sweptSinceCapture : Finset Id

/-- `stored` is the store's answer, where the step writes to the store. -/
inductive SweepAction where
  | recover (id : Id) (secret : Secret) (stored : Except Cause Unit)
  | checkSweep
  | claim
  | push
  /-- The buffer is drained: at its deadline, by the event itself when there
  is no buffer period, or at shutdown. -/
  | flush
  | answer (task : ℕ) (reply : SweepReply Id Cause)
  /-- A running flush takes its next step. -/
  | work (task : ℕ) (stored : Except Cause Unit)
  /-- The replay reads the entries which the store can decrypt. -/
  | capture (entries : List (Id × Secret))
  | replayWork (stored : Except Cause Unit)
  | replayAnswer (result : Except (StrategyError Cause) Unit)
  | crash

end

variable {Id Secret Key Cause : Type} [DecidableEq Id] [DecidableEq Secret]

namespace PixRecoveryStore

/-- An existing entry is never overwritten. -/
def insert (store : PixRecoveryStore Id Secret) (id : Id) (secret : Secret) :
    PixRecoveryStore Id Secret :=
  if id ∈ store.entries.map Prod.fst then store
  else ⟨store.entries ++ [(id, secret)]⟩

def remove (store : PixRecoveryStore Id Secret) (id : Id) :
    PixRecoveryStore Id Secret :=
  ⟨store.entries.filter (·.1 ≠ id)⟩

end PixRecoveryStore

namespace SweepState

def initial (recoveryStore : Option (PixRecoveryStore Id Secret)) :
    SweepState Id Secret Key Cause where
  recoveryStore := recoveryStore
  inFlightSweeps := ∅
  withdrawalBuffer := []
  handler := .idle
  flushes := []
  replay := .notStarted
  result := .ok ()
  everPersisted := []
  reportedOk := []
  sweptSinceCapture := ∅

/-- A new start: only the store is left. -/
def restarted (state : SweepState Id Secret Key Cause) :
    SweepState Id Secret Key Cause :=
  { initial state.recoveryStore with
    everPersisted := state.everPersisted
    reportedOk := state.reportedOk }

/-- The store's part of a recovered key.  Without a store there is none. -/
def persist (state : SweepState Id Secret Key Cause) (id : Id)
    (secret : Secret) (stored : Except Cause Unit) :
    SweepState Id Secret Key Cause :=
  match state.recoveryStore, stored with
  | none, _ => { state with handler := .persisted id secret }
  | some store, .ok () =>
      { state with
        recoveryStore := some (store.insert id secret)
        handler := .persisted id secret
        everPersisted := state.everPersisted ++ [(id, secret)] }
  | some _, .error cause => { state with result := .error (.other cause) }

/-- A sweep has moved the funds: its entry is dropped.  A failure to drop it
is logged and leaves it. -/
def dropEntry (state : SweepState Id Secret Key Cause) (id : Id) :
    Except Cause Unit → SweepState Id Secret Key Cause
  | .ok () =>
      { state with
        recoveryStore := state.recoveryStore.map (·.remove id) }
  | .error _ => state

def release (state : SweepState Id Secret Key Cause) (id : Id) :
    SweepState Id Secret Key Cause :=
  { state with inFlightSweeps := state.inFlightSweeps.erase id }

/-- The pool's answer, as `flush_withdrawal_batch` branches on it. -/
def answered : SweepTask Id Secret Key Cause → SweepReply Id Cause →
    Option (SweepTask Id Secret Key Cause)
  | .callingSingle id _, .single (.ok ()) => some (.singleSwept id)
  | .callingSingle id _, .single (.error _) => some (.singleFailed id)
  | .calling keys, .multiple (.ok outcomes) => some (.releasing keys outcomes)
  | .calling keys, .multiple (.error _) => some (.failedReleasing keys)
  | _, _ => none

/-- The ids which an answer reports as swept, whether they were asked for or
not. -/
def okBy : SweepTask Id Secret Key Cause → SweepReply Id Cause → List Id
  | .callingSingle id _, .single (.ok ()) => [id]
  | .calling _, .multiple (.ok outcomes) => okIds outcomes
  | _, _ => []

/-- The ids among them which the flush has asked for. -/
def sweptBy : SweepTask Id Secret Key Cause → SweepReply Id Cause → List Id
  | .callingSingle id _, .single (.ok ()) => [id]
  | .calling keys, .multiple (.ok outcomes) =>
      (okIds outcomes).filter (· ∈ keys.map Prod.fst)
  | _, _ => []

/-- The next step of a flush. -/
def workTask (keyFromSecret : Secret → Option Key)
    (state : SweepState Id Secret Key Cause) (stored : Except Cause Unit) :
    SweepTask Id Secret Key Cause →
      Option (SweepState Id Secret Key Cause × SweepTask Id Secret Key Cause)
  | .starting [] => some (state, .done)
  | .starting [(id, secret)] =>
      match keyFromSecret secret with
      | some key => some (state, .callingSingle id key)
      | none => some (state.release id, .done)
  | .starting batch => some (state, .parsing batch [])
  | .parsing ((id, secret) :: remaining) keys =>
      match keyFromSecret secret with
      | some key => some (state, .parsing remaining (keys ++ [(id, key)]))
      | none => some (state.release id, .parsing remaining keys)
  | .parsing [] [] => some (state, .done)
  | .parsing [] keys => some (state, .calling keys)
  | .singleSwept id => some (state.release id, .removing [.ok id])
  | .singleFailed id => some (state.release id, .done)
  | .releasing ((id, _) :: remaining) outcomes =>
      some (state.release id, .releasing remaining outcomes)
  | .releasing [] outcomes => some (state, .removing outcomes)
  | .removing (.ok id :: outcomes) =>
      some (state.dropEntry id stored, .removing outcomes)
  | .removing (.error _ :: outcomes) => some (state, .removing outcomes)
  | .removing [] => some (state, .done)
  | .failedReleasing ((id, _) :: remaining) =>
      some (state.release id, .failedReleasing remaining)
  | .failedReleasing [] => some (state, .done)
  | .callingSingle _ _ | .calling _ | .done => none

/-- The next step of the replay.  An entry whose secret gives no key is passed
over with its claim in place. -/
def replayStep (keyFromSecret : Secret → Option Key)
    (state : SweepState Id Secret Key Cause) (stored : Except Cause Unit) :
    Option (SweepState Id Secret Key Cause) :=
  match state.replay with
  | .walking ((id, secret) :: remaining) =>
      if id ∈ state.inFlightSweeps then
        some { state with replay := .walking remaining }
      else some { state with replay := .cleared id secret remaining }
  | .cleared id secret remaining =>
      some { state with
        inFlightSweeps := insert id state.inFlightSweeps
        replay := .claimed id secret remaining }
  | .claimed id secret remaining =>
      match keyFromSecret secret with
      | some key => some { state with replay := .calling id key remaining }
      | none => some { state with replay := .walking remaining }
  | .swept id remaining =>
      some { state.release id with replay := .removing id remaining }
  | .removing id remaining =>
      some { state.dropEntry id stored with replay := .walking remaining }
  | .failed id remaining =>
      some { state.release id with replay := .walking remaining }
  | .notStarted | .walking [] | .calling _ _ _ => none

def next (keyFromSecret : Secret → Option Key)
    (state : SweepState Id Secret Key Cause) :
    SweepAction Id Secret Cause → Option (SweepState Id Secret Key Cause)
  | .recover id secret stored =>
      match state.handler with
      | .idle => some (state.persist id secret stored)
      | _ => none
  | .checkSweep =>
      match state.handler with
      | .persisted id secret =>
          if id ∈ state.inFlightSweeps then
            some { state with
              handler := .idle
              result := .ok () }
          else some { state with handler := .cleared id secret }
      | _ => none
  | .claim =>
      match state.handler with
      | .cleared id secret =>
          some { state with
            inFlightSweeps := insert id state.inFlightSweeps
            handler := .claimed id secret }
      | _ => none
  | .push =>
      match state.handler with
      | .claimed id secret =>
          some { state with
            withdrawalBuffer := state.withdrawalBuffer ++ [(id, secret)]
            handler := .idle
            result := .ok () }
      | _ => none
  | .flush =>
      match state.handler with
      | .idle =>
          some { state with
            withdrawalBuffer := []
            flushes := state.flushes ++ [.starting state.withdrawalBuffer] }
      | _ => none
  | .answer task reply =>
      match state.flushes[task]? with
      | some running =>
          match answered running reply with
          | some after =>
              some { state with
                flushes := state.flushes.set task after
                reportedOk := state.reportedOk ++ okBy running reply
                sweptSinceCapture := state.sweptSinceCapture ∪
                  (sweptBy running reply).toFinset }
          | none => none
      | none => none
  | .work task stored =>
      match state.flushes[task]? with
      | some running =>
          match workTask keyFromSecret state stored running with
          | some (state, after) =>
              some { state with flushes := state.flushes.set task after }
          | none => none
      | none => none
  | .capture entries =>
      match state.replay, state.recoveryStore with
      | .notStarted, some store =>
          if (∀ entry ∈ entries, entry ∈ store.entries) ∧
              (entries.map Prod.fst).Nodup then
            some { state with
              replay := .walking entries
              sweptSinceCapture := ∅ }
          else none
      | _, _ => none
  | .replayWork stored => state.replayStep keyFromSecret stored
  | .replayAnswer result =>
      match state.replay, result with
      | .calling id _ remaining, .ok () =>
          some { state with
            replay := .swept id remaining
            reportedOk := state.reportedOk ++ [id]
            sweptSinceCapture := insert id state.sweptSinceCapture }
      | .calling id _ remaining, .error _ =>
          some { state with replay := .failed id remaining }
      | _, _ => none
  | .crash => some state.restarted

end SweepState

/-- The strategy, started on a recovery store or without one. -/
def sweepSystem (keyFromSecret : Secret → Option Key)
    (recoveryStore : Option (PixRecoveryStore Id Secret)) :
    TransitionSystem (SweepState Id Secret Key Cause)
      (SweepAction Id Secret Cause) where
  init state := state = SweepState.initial recoveryStore
  next := SweepState.next keyFromSecret

end HoprStrategy.Pix
