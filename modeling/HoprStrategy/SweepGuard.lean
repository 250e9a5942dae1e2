import HoprStrategy.KeyRecovery
import HoprStrategy.Library.ExclusiveClaims
import HoprStrategy.Library.TaskList

/-!
# The sweep guard

The event loop and the replay both look the guard up first and write it later.
While no recovered key is reported again for an entry which the replay has yet
to claim, and every stored secret gives a key, the marked ids are those which
the handler, the buffer, the flushes and the replay hold, each once.
-/

namespace HoprStrategy.Pix

open Library

variable {Id Secret Key Cause : Type}

/-! ## What is held -/

namespace RecoveryPhase

def held : RecoveryPhase Id Secret → List Id
  | .claimed id _ => [id]
  | _ => []

/-- The id at hand, claimed or not. -/
def ids : RecoveryPhase Id Secret → List Id
  | .persisted id _ | .cleared id _ | .claimed id _ => [id]
  | .idle => []

end RecoveryPhase

namespace SweepTask

/-- The ids which the flush has yet to release. -/
def unreleased : SweepTask Id Secret Key Cause → List Id
  | .starting batch => batch.map Prod.fst
  | .parsing remaining keys => keys.map Prod.fst ++ remaining.map Prod.fst
  | .callingSingle id _ => [id]
  | .calling keys => keys.map Prod.fst
  | .singleSwept id => [id]
  | .singleFailed id => [id]
  | .releasing remaining _ => remaining.map Prod.fst
  | .failedReleasing remaining => remaining.map Prod.fst
  | .removing _ | .done => []

/-- The sweeps which the pool has been asked for. -/
def calls : SweepTask Id Secret Key Cause → List (Id × Key)
  | .callingSingle id key => [(id, key)]
  | .calling keys => keys
  | _ => []

/-- The number of steps to the pool's answer, or else to the end. -/
def stepsLeft : SweepTask Id Secret Key Cause → ℕ
  | .starting batch => batch.length + 2
  | .parsing remaining _ => remaining.length + 1
  | .singleSwept _ => 3
  | .singleFailed _ => 1
  | .releasing remaining outcomes => remaining.length + outcomes.length + 2
  | .removing outcomes => outcomes.length + 1
  | .failedReleasing remaining => remaining.length + 1
  | .callingSingle _ _ | .calling _ | .done => 0

end SweepTask

namespace ReplayPhase

def held : ReplayPhase Id Secret Key → List Id
  | .claimed id _ _ => [id]
  | .calling id _ _ => [id]
  | .swept id _ => [id]
  | .failed id _ => [id]
  | _ => []

def calls : ReplayPhase Id Secret Key → List (Id × Key)
  | .calling id key _ => [(id, key)]
  | _ => []

/-- The id which the replay is about to sweep or is sweeping. -/
def sweeping : ReplayPhase Id Secret Key → List Id
  | .claimed id _ _ => [id]
  | .calling id _ _ => [id]
  | _ => []

/-- The entries which the replay has yet to claim. -/
def ahead : ReplayPhase Id Secret Key → List Id
  | .walking remaining => remaining.map Prod.fst
  | .cleared id _ remaining => id :: remaining.map Prod.fst
  | .claimed _ _ remaining | .calling _ _ remaining | .swept _ remaining
  | .removing _ remaining | .failed _ remaining => remaining.map Prod.fst
  | .notStarted => []

/-- The entry at hand, where there is one, and those which are left. -/
def entryIds : ReplayPhase Id Secret Key → List Id
  | .walking remaining => remaining.map Prod.fst
  | .cleared id _ remaining | .claimed id _ remaining
  | .calling id _ remaining | .swept id remaining | .removing id remaining
  | .failed id remaining => id :: remaining.map Prod.fst
  | .notStarted => []

/-- The secrets which the replay has yet to parse. -/
def unparsed : ReplayPhase Id Secret Key → List Secret
  | .walking remaining => remaining.map Prod.snd
  | .cleared _ secret remaining | .claimed _ secret remaining =>
      secret :: remaining.map Prod.snd
  | .calling _ _ remaining | .swept _ remaining | .removing _ remaining
  | .failed _ remaining => remaining.map Prod.snd
  | .notStarted => []

/-- A bound on the number of steps to the pool's answer, or else to the end of
the entries. -/
def stepsLeft : ReplayPhase Id Secret Key → ℕ
  | .walking remaining => 5 * remaining.length
  | .cleared _ _ remaining => 5 * remaining.length + 4
  | .claimed _ _ remaining => 5 * remaining.length + 3
  | .swept _ remaining => 5 * remaining.length + 2
  | .removing _ remaining => 5 * remaining.length + 1
  | .failed _ remaining => 5 * remaining.length + 1
  | .notStarted | .calling _ _ _ => 0

theorem held_of_sweeping {replay : ReplayPhase Id Secret Key} {id : Id}
    (hid : id ∈ replay.sweeping) : id ∈ replay.held := by
  cases replay <;> first | exact hid | cases hid

end ReplayPhase

namespace SweepState

/-- The sweeps in flight. -/
def sweeps (state : SweepState Id Secret Key Cause) : List (Id × Key) :=
  state.flushes.flatMap SweepTask.calls ++ state.replay.calls

variable [DecidableEq Id]

def idsHeld (state : SweepState Id Secret Key Cause) (id : Id) : ℕ :=
  state.handler.held.count id +
    (state.withdrawalBuffer.map Prod.fst).count id +
    held (fun task => task.unreleased.count id) state.flushes +
    state.replay.held.count id

theorem calls_le_unreleased (task : SweepTask Id Secret Key Cause) (id : Id) :
    (task.calls.map Prod.fst).count id ≤ task.unreleased.count id := by
  cases task <;> simp [SweepTask.calls, SweepTask.unreleased]

theorem replay_calls_le_held (replay : ReplayPhase Id Secret Key) (id : Id) :
    (replay.calls.map Prod.fst).count id ≤ replay.held.count id := by
  cases replay <;> simp [ReplayPhase.calls, ReplayPhase.held]

theorem count_sweeps_le (state : SweepState Id Secret Key Cause) (id : Id) :
    (state.sweeps.map Prod.fst).count id ≤ state.idsHeld id := by
  have hflushes : ((state.flushes.flatMap SweepTask.calls).map
      Prod.fst).count id ≤
        held (fun task => task.unreleased.count id) state.flushes := by
    rw [List.map_flatMap, count_flatMap_eq_held]
    exact held_mono (fun task => calls_le_unreleased task id) _
  have hreplay := replay_calls_le_held state.replay id
  rw [sweeps, List.map_append, List.count_append, idsHeld]
  omega

/-! ## The steps of a flush and of the replay -/

/-- A flush step releases at most one id, and only its own. -/
structure WorkStep (state after : SweepState Id Secret Key Cause)
    (task task' : SweepTask Id Secret Key Cause) : Prop where
  buffer : after.withdrawalBuffer = state.withdrawalBuffer
  handler : after.handler = state.handler
  flushes : after.flushes = state.flushes
  replay : after.replay = state.replay
  swept : after.sweptSinceCapture = state.sweptSinceCapture
  released :
    (after.inFlightSweeps = state.inFlightSweeps ∧
      ∀ id, task.unreleased.count id = task'.unreleased.count id) ∨
    (∃ released, after.inFlightSweeps = state.inFlightSweeps.erase released ∧
      ∀ id, task.unreleased.count id =
        task'.unreleased.count id + [released].count id)

theorem WorkStep.unchanged {state : SweepState Id Secret Key Cause}
    {task task' : SweepTask Id Secret Key Cause}
    (hsame : ∀ id, task.unreleased.count id = task'.unreleased.count id) :
    WorkStep state state task task' :=
  ⟨rfl, rfl, rfl, rfl, rfl, Or.inl ⟨rfl, hsame⟩⟩

theorem WorkStep.releasing {state : SweepState Id Secret Key Cause} {id : Id}
    {task task' : SweepTask Id Secret Key Cause}
    (hrest : ∀ other, task.unreleased.count other =
      task'.unreleased.count other + [id].count other) :
    WorkStep state (state.release id) task task' :=
  ⟨rfl, rfl, rfl, rfl, rfl, Or.inr ⟨id, rfl, hrest⟩⟩

theorem WorkStep.dropping {state : SweepState Id Secret Key Cause} {id : Id}
    {stored : Except Cause Unit} {task task' : SweepTask Id Secret Key Cause}
    (hsame : ∀ id, task.unreleased.count id = task'.unreleased.count id) :
    WorkStep state (state.dropEntry id stored) task task' := by
  cases stored <;> exact ⟨rfl, rfl, rfl, rfl, rfl, Or.inl ⟨rfl, hsame⟩⟩

variable {keyFromSecret : Secret → Option Key}
  {state after : SweepState Id Secret Key Cause}

/-- A flush which neither waits for the pool nor is done takes a step, which
brings it closer to either. -/
theorem workTask_step (keyFromSecret : Secret → Option Key)
    (stored : Except Cause Unit)
    {task : SweepTask Id Secret Key Cause} (hleft : task.stepsLeft ≠ 0) :
    ∃ settled task', state.workTask keyFromSecret stored task =
        some (settled, task') ∧
      WorkStep state settled task task' ∧ task'.stepsLeft < task.stepsLeft := by
  cases task with
  | starting batch =>
      match batch with
      | [] => exact ⟨_, _, rfl, .unchanged fun _ => rfl,
            by simp [SweepTask.stepsLeft]⟩
      | [(id, secret)] =>
          cases hkey : keyFromSecret secret with
          | some key =>
              refine ⟨state, .callingSingle id key, ?_, .unchanged fun _ => rfl,
                by simp [SweepTask.stepsLeft]⟩
              simp [workTask, hkey]
          | none =>
              refine ⟨state.release id, .done, ?_, .releasing fun other => ?_,
                by simp [SweepTask.stepsLeft]⟩
              · simp [workTask, hkey]
              · simp [SweepTask.unreleased]
      | first :: second :: rest =>
          exact ⟨_, _, rfl, .unchanged fun _ => rfl,
            by simp [SweepTask.stepsLeft]⟩
  | parsing remaining keys =>
      match remaining with
      | [] =>
          cases keys with
          | nil => exact ⟨_, _, rfl, .unchanged fun _ => rfl,
            by simp [SweepTask.stepsLeft]⟩
          | cons entry keys =>
              refine ⟨_, _, rfl, .unchanged fun _ => ?_,
                by simp [SweepTask.stepsLeft]⟩
              simp [SweepTask.unreleased]
      | (id, secret) :: remaining =>
          cases hkey : keyFromSecret secret with
          | some key =>
              refine ⟨state, .parsing remaining (keys ++ [(id, key)]), ?_,
                .unchanged fun other => ?_, by simp [SweepTask.stepsLeft]⟩
              · simp [workTask, hkey]
              · simp [SweepTask.unreleased]
          | none =>
              refine ⟨state.release id, .parsing remaining keys, ?_,
                .releasing fun other => ?_, by simp [SweepTask.stepsLeft]⟩
              · simp [workTask, hkey]
              · simp only [SweepTask.unreleased, List.map_cons,
                  List.count_append, List.count_cons, List.count_nil]
                omega
  | callingSingle id key => exact absurd rfl hleft
  | calling keys => exact absurd rfl hleft
  | singleSwept id =>
      refine ⟨_, _, rfl, .releasing fun other => ?_,
        by simp [SweepTask.stepsLeft]⟩
      simp [SweepTask.unreleased]
  | singleFailed id =>
      refine ⟨_, _, rfl, .releasing fun other => ?_,
        by simp [SweepTask.stepsLeft]⟩
      simp [SweepTask.unreleased]
  | releasing remaining outcomes =>
      cases remaining with
      | nil =>
          exact ⟨_, _, rfl, .unchanged fun _ => rfl,
            by simp [SweepTask.stepsLeft]⟩
      | cons entry remaining =>
          refine ⟨_, _, rfl, .releasing fun other => ?_,
            by simp [SweepTask.stepsLeft]⟩
          simp [SweepTask.unreleased, List.count_cons]
  | removing outcomes =>
      match outcomes with
      | [] => exact ⟨_, _, rfl, .unchanged fun _ => rfl,
            by simp [SweepTask.stepsLeft]⟩
      | .ok id :: outcomes =>
          exact ⟨_, _, rfl, .dropping fun _ => rfl,
            by simp [SweepTask.stepsLeft]⟩
      | .error _ :: outcomes =>
          exact ⟨_, _, rfl, .unchanged fun _ => rfl,
            by simp [SweepTask.stepsLeft]⟩
  | failedReleasing remaining =>
      cases remaining with
      | nil => exact ⟨_, _, rfl, .unchanged fun _ => rfl,
            by simp [SweepTask.stepsLeft]⟩
      | cons entry remaining =>
          refine ⟨_, _, rfl, .releasing fun other => ?_,
            by simp [SweepTask.stepsLeft]⟩
          simp [SweepTask.unreleased, List.count_cons]
  | done => exact absurd rfl hleft

theorem workTask_of_some {stored : Except Cause Unit}
    {task task' : SweepTask Id Secret Key Cause}
    (hwork : state.workTask keyFromSecret stored task = some (after, task')) :
    WorkStep state after task task' := by
  have hleft : task.stepsLeft ≠ 0 := by
    intro hzero
    cases task <;> simp [SweepTask.stepsLeft] at hzero <;>
      simp [workTask] at hwork
  rcases workTask_step keyFromSecret stored hleft with
    ⟨settled, running, hsame, hstep, _⟩
  rw [hwork, Option.some.injEq, Prod.mk.injEq] at hsame
  rw [hsame.1, hsame.2]
  exact hstep

omit [DecidableEq Id] in
theorem answered_unreleased {task task' : SweepTask Id Secret Key Cause}
    {reply : SweepReply Id Cause} (hanswered : answered task reply = some task') :
    task'.unreleased = task.unreleased := by
  unfold answered at hanswered
  split at hanswered <;>
    simp only [Option.some.injEq, reduceCtorEq] at hanswered <;>
    subst hanswered <;> rfl

theorem mem_sweptBy {task : SweepTask Id Secret Key Cause}
    {reply : SweepReply Id Cause} {id : Id} (hid : id ∈ sweptBy task reply) :
    id ∈ task.unreleased := by
  unfold sweptBy at hid
  split at hid
  · exact hid
  · simpa [SweepTask.unreleased] using (List.mem_filter.mp hid).2
  · cases hid

/-! ## The steps of the system -/

/-- The ids which the event loop has at hand, in its buffer and in flushes. -/
def atLoop (state : SweepState Id Secret Key Cause) : List Id :=
  state.handler.ids ++ state.withdrawalBuffer.map Prod.fst ++
    state.flushes.flatMap SweepTask.unreleased

/-- The condition on a step: the replay reads its entries while the event loop
has none of them and with secrets which give keys, and no recovered key is
reported for an entry which it has yet to claim. -/
def SweepsAlone (keyFromSecret : Secret → Option Key)
    (state : SweepState Id Secret Key Cause) :
    SweepAction Id Secret Cause → Prop
  | .recover id _ _ => id ∉ state.replay.ahead
  | .capture entries => ∀ entry ∈ entries,
      entry.1 ∉ state.atLoop ∧ (keyFromSecret entry.2).isSome
  | _ => True

instance (keyFromSecret : Secret → Option Key)
    (state : SweepState Id Secret Key Cause)
    (action : SweepAction Id Secret Cause) :
    Decidable (SweepsAlone keyFromSecret state action) :=
  match action with
  | .recover id _ _ => inferInstanceAs (Decidable (id ∉ state.replay.ahead))
  | .capture entries => inferInstanceAs (Decidable (∀ entry ∈ entries,
      entry.1 ∉ state.atLoop ∧ (keyFromSecret entry.2).isSome))
  | .checkSweep | .claim | .push | .flush | .answer _ _ | .work _ _
  | .replayWork _ | .replayAnswer _ | .crash => inferInstanceAs (Decidable True)

/-- The event loop has no entry at hand which the replay has yet to claim, so
each of them finds an id free which it has found unmarked. -/
structure Separate (keyFromSecret : Secret → Option Key)
    (state : SweepState Id Secret Key Cause) : Prop where
  apart : ∀ id ∈ state.replay.ahead, id ∉ state.atLoop
  unswept : ∀ id ∈ state.replay.ahead, id ∉ state.sweptSinceCapture
  distinct : state.replay.entryIds.Nodup
  keys : ∀ secret ∈ state.replay.unparsed, (keyFromSecret secret).isSome
  loopFree : ∀ id secret, state.handler = .cleared id secret →
    id ∉ state.inFlightSweeps
  replayFree : ∀ id secret remaining,
    state.replay = .cleared id secret remaining → id ∉ state.inFlightSweeps

/-- The guard is exact, and what the replay sweeps was not swept since its
entries were read. -/
structure SweepInvariant (keyFromSecret : Secret → Option Key)
    (state : SweepState Id Secret Key Cause) : Prop where
  exclusive : Exclusive state.idsHeld state.inFlightSweeps
  fresh : ∀ id ∈ state.replay.sweeping, id ∉ state.sweptSinceCapture
  separate : state.Separate keyFromSecret

/-- What a step does with the marked ids and those which are held. -/
inductive SweepMove (state after : SweepState Id Secret Key Cause) : Prop
  | kept (hheld : ∀ id, after.idsHeld id = state.idsHeld id)
      (hguard : after.inFlightSweeps = state.inFlightSweeps)
  | claimed (id : Id) (hfree : id ∉ state.inFlightSweeps)
      (hheld : ∀ other, after.idsHeld other =
        state.idsHeld other + [id].count other)
      (hguard : after.inFlightSweeps = insert id state.inFlightSweeps)
  | released (id : Id)
      (hheld : ∀ other, after.idsHeld other + [id].count other =
        state.idsHeld other)
      (hguard : after.inFlightSweeps = state.inFlightSweeps.erase id)
  | restarted (hheld : ∀ id, after.idsHeld id = 0)
      (hguard : after.inFlightSweeps = ∅)

theorem SweepMove.exclusive (hmove : SweepMove state after)
    (hexclusive : Exclusive state.idsHeld state.inFlightSweeps) :
    Exclusive after.idsHeld after.inFlightSweeps := by
  cases hmove with
  | kept hheld hguard =>
      rw [hguard]
      exact hexclusive.keep hheld
  | claimed id hfree hheld hguard =>
      rw [hguard]
      exact hexclusive.claim hfree hheld
  | released id hheld hguard =>
      rw [hguard]
      exact hexclusive.release hheld
  | restarted hheld hguard =>
      rw [hguard]
      exact Exclusive.nothing.keep hheld

theorem persist_move (hidle : state.handler = .idle) (id : Id)
    (secret : Secret) (stored : Except Cause Unit) :
    SweepMove state (state.persist id secret stored) := by
  unfold persist
  split
  · refine .kept (fun other => ?_) rfl
    simp [idsHeld, hidle, RecoveryPhase.held]
  · refine .kept (fun other => ?_) rfl
    simp [idsHeld, hidle, RecoveryPhase.held]
  · exact .kept (fun _ => rfl) rfl

theorem answer_move {index : ℕ} {task task' : SweepTask Id Secret Key Cause}
    {reply : SweepReply Id Cause} (htask : state.flushes[index]? = some task)
    (hanswered : answered task reply = some task') :
    SweepMove state { state with
      flushes := state.flushes.set index task'
      reportedOk := state.reportedOk ++ okBy task reply
      sweptSinceCapture :=
        state.sweptSinceCapture ∪ (sweptBy task reply).toFinset } := by
  refine .kept (fun id => ?_) rfl
  have hset := held_set (fun task : SweepTask Id Secret Key Cause =>
    task.unreleased.count id) task' htask
  rw [answered_unreleased hanswered] at hset
  simp only [idsHeld]
  omega

theorem work_move {index : ℕ} {task task' : SweepTask Id Secret Key Cause}
    {settled : SweepState Id Secret Key Cause}
    (htask : state.flushes[index]? = some task)
    (hstep : WorkStep state settled task task') :
    SweepMove state
      { settled with flushes := settled.flushes.set index task' } := by
  have hset := fun id => held_set
    (fun task : SweepTask Id Secret Key Cause => task.unreleased.count id)
    task' htask
  rcases hstep.released with ⟨hguard, hsame⟩ | ⟨id, hguard, hrest⟩
  · refine .kept (fun other => ?_) hguard
    have hother := hset other
    rw [hsame] at hother
    simp only [idsHeld, hstep.buffer, hstep.handler, hstep.replay,
      hstep.flushes]
    omega
  · refine .released id (fun other => ?_) hguard
    have hother := hset other
    rw [hrest] at hother
    simp only [idsHeld, hstep.buffer, hstep.handler, hstep.replay,
      hstep.flushes]
    omega

/-- A step of the replay, with what it leaves of the entries. -/
theorem replayStep_move {stored : Except Cause Unit}
    (hseparate : state.Separate keyFromSecret)
    (hstep : state.replayStep keyFromSecret stored = some after) :
    SweepMove state after := by
  unfold replayStep at hstep
  cases hreplay : state.replay with
  | notStarted => simp [hreplay] at hstep
  | walking remaining =>
      match remaining with
      | [] => simp [hreplay] at hstep
      | (id, secret) :: remaining =>
          simp only [hreplay] at hstep
          split at hstep <;> simp only [Option.some.injEq] at hstep <;>
            subst hstep
          · refine .kept (fun other => ?_) rfl
            simp [idsHeld, hreplay, ReplayPhase.held]
          · refine .kept (fun other => ?_) rfl
            simp [idsHeld, hreplay, ReplayPhase.held]
  | cleared id secret remaining =>
      simp only [hreplay, Option.some.injEq] at hstep
      subst hstep
      have hfree := hseparate.replayFree id secret remaining hreplay
      refine .claimed id hfree (fun other => ?_) rfl
      simp [idsHeld, hreplay, ReplayPhase.held]
  | claimed id secret remaining =>
      have hsome := hseparate.keys secret
        (by simp [hreplay, ReplayPhase.unparsed])
      cases hkey : keyFromSecret secret with
      | none => simp [hkey] at hsome
      | some key =>
          simp only [hreplay, hkey, Option.some.injEq] at hstep
          subst hstep
          refine .kept (fun other => ?_) rfl
          simp [idsHeld, hreplay, ReplayPhase.held]
  | calling id key remaining => simp [hreplay] at hstep
  | swept id remaining =>
      simp only [hreplay, Option.some.injEq] at hstep
      subst hstep
      refine .released id (fun other => ?_) rfl
      simp [idsHeld, hreplay, ReplayPhase.held, release]
  | removing id remaining =>
      simp only [hreplay, Option.some.injEq] at hstep
      subst hstep
      cases stored with
      | ok value =>
          refine .kept (fun other => ?_) rfl
          simp [idsHeld, hreplay, ReplayPhase.held, dropEntry]
      | error cause =>
          refine .kept (fun other => ?_) rfl
          simp [idsHeld, hreplay, ReplayPhase.held, dropEntry]
  | failed id remaining =>
      simp only [hreplay, Option.some.injEq] at hstep
      subst hstep
      refine .released id (fun other => ?_) rfl
      simp [idsHeld, hreplay, ReplayPhase.held, release]

variable [DecidableEq Secret]

theorem next_move {action : SweepAction Id Secret Cause}
    (hseparate : state.Separate keyFromSecret)
    (hnext : state.next keyFromSecret action = some after) :
    SweepMove state after := by
  cases action with
  | recover id secret stored =>
      cases hhandler : state.handler with
      | idle =>
          simp only [next, hhandler, Option.some.injEq] at hnext
          subst hnext
          exact persist_move hhandler id secret stored
      | _ => simp [next, hhandler] at hnext
  | checkSweep =>
      cases hhandler : state.handler with
      | persisted id secret =>
          simp only [next, hhandler] at hnext
          split at hnext <;> simp only [Option.some.injEq] at hnext <;>
            subst hnext
          · refine .kept (fun other => ?_) rfl
            simp [idsHeld, hhandler, RecoveryPhase.held]
          · refine .kept (fun other => ?_) rfl
            simp [idsHeld, hhandler, RecoveryPhase.held]
      | _ => simp [next, hhandler] at hnext
  | claim =>
      cases hhandler : state.handler with
      | cleared id secret =>
          simp only [next, hhandler, Option.some.injEq] at hnext
          subst hnext
          refine .claimed id (hseparate.loopFree id secret hhandler)
            (fun other => ?_) rfl
          simp only [idsHeld, hhandler, RecoveryPhase.held, List.count_nil]
          omega
      | _ => simp [next, hhandler] at hnext
  | push =>
      cases hhandler : state.handler with
      | claimed id secret =>
          simp only [next, hhandler, Option.some.injEq] at hnext
          subst hnext
          refine .kept (fun other => ?_) rfl
          simp only [idsHeld, hhandler, RecoveryPhase.held, List.map_append,
            List.count_append, List.map_cons, List.map_nil, List.count_nil]
          omega
      | _ => simp [next, hhandler] at hnext
  | flush =>
      cases hhandler : state.handler with
      | idle =>
          simp only [next, hhandler, Option.some.injEq] at hnext
          subst hnext
          refine .kept (fun other => ?_) rfl
          simp only [idsHeld, hhandler, RecoveryPhase.held, held_append,
            held_singleton, SweepTask.unreleased, List.map_nil, List.count_nil]
          omega
      | _ => simp [next, hhandler] at hnext
  | answer index reply =>
      simp only [next] at hnext
      split at hnext
      · rename_i task htask
        split at hnext
        · rename_i task' hanswered
          simp only [Option.some.injEq] at hnext
          subst hnext
          exact answer_move htask hanswered
        · cases hnext
      · cases hnext
  | work index stored =>
      simp only [next] at hnext
      split at hnext
      · rename_i task htask
        split at hnext
        · rename_i settled task' hwork
          simp only [Option.some.injEq] at hnext
          subst hnext
          exact work_move htask (workTask_of_some hwork)
        · cases hnext
      · cases hnext
  | capture entries =>
      cases hreplay : state.replay with
      | notStarted =>
          simp only [next, hreplay] at hnext
          split at hnext
          · split at hnext
            · simp only [Option.some.injEq] at hnext
              subst hnext
              refine .kept (fun other => ?_) rfl
              simp [idsHeld, hreplay, ReplayPhase.held]
            · cases hnext
          · cases hnext
      | _ => simp [next, hreplay] at hnext
  | replayWork stored => exact replayStep_move hseparate hnext
  | replayAnswer result =>
      cases hreplay : state.replay with
      | calling id key remaining =>
          cases result with
          | ok value =>
              simp only [next, hreplay, Option.some.injEq] at hnext
              subst hnext
              refine .kept (fun other => ?_) rfl
              simp [idsHeld, hreplay, ReplayPhase.held]
          | error error =>
              simp only [next, hreplay, Option.some.injEq] at hnext
              subst hnext
              refine .kept (fun other => ?_) rfl
              simp [idsHeld, hreplay, ReplayPhase.held]
      | _ => simp [next, hreplay] at hnext
  | crash =>
      simp only [next, Option.some.injEq] at hnext
      subst hnext
      exact .restarted (fun _ => rfl) rfl

/-! ## Runs -/

/-- A step of the event loop or of a flush, beside the replay.  It takes up no
entry which the replay has yet to claim. -/
structure LoopStep (before after : SweepState Id Secret Key Cause) : Prop where
  replay : after.replay = before.replay
  loop : ∀ id ∈ after.atLoop, id ∈ before.atLoop ∨ id ∉ before.replay.ahead
  swept : ∀ id ∈ after.sweptSinceCapture,
    id ∈ before.sweptSinceCapture ∨ id ∈ before.atLoop
  guard : ∀ id ∈ after.inFlightSweeps,
    id ∈ before.inFlightSweeps ∨ id ∈ before.atLoop
  cleared : ∀ id secret, after.handler = .cleared id secret →
    id ∉ after.inFlightSweeps ∨ before.handler = .cleared id secret ∧
      after.inFlightSweeps ⊆ before.inFlightSweeps

/-- A step of the replay, beside the event loop. -/
structure ReplayStep (before after : SweepState Id Secret Key Cause) :
    Prop where
  handler : after.handler = before.handler
  buffer : after.withdrawalBuffer = before.withdrawalBuffer
  flushes : after.flushes = before.flushes
  ahead : after.replay.ahead ⊆ before.replay.ahead
  entryIds : after.replay.entryIds.Sublist before.replay.entryIds
  unparsed : after.replay.unparsed ⊆ before.replay.unparsed
  swept : ∀ id ∈ after.sweptSinceCapture,
    id ∈ before.sweptSinceCapture ∨ id ∉ after.replay.ahead
  guard : ∀ id ∈ after.inFlightSweeps,
    id ∈ before.inFlightSweeps ∨ id ∈ before.replay.ahead
  cleared : ∀ id secret remaining,
    after.replay = .cleared id secret remaining → id ∉ after.inFlightSweeps

omit [DecidableEq Id] [DecidableEq Secret] in
theorem Separate.loopStep (hseparate : state.Separate keyFromSecret)
    (hstep : LoopStep state after) :
    after.Separate keyFromSecret := by
  have hreplay := hstep.replay
  constructor
  · intro id hahead hloop
    rw [hreplay] at hahead
    rcases hstep.loop id hloop with hbefore | hnew
    · exact hseparate.apart id hahead hbefore
    · exact hnew hahead
  · intro id hahead hswept
    rw [hreplay] at hahead
    rcases hstep.swept id hswept with hbefore | hloop
    · exact hseparate.unswept id hahead hbefore
    · exact hseparate.apart id hahead hloop
  · rw [hreplay]
    exact hseparate.distinct
  · rw [hreplay]
    exact hseparate.keys
  · intro id secret hhandler
    rcases hstep.cleared id secret hhandler with hfree | ⟨hbefore, hguard⟩
    · exact hfree
    · exact fun hmarked =>
        hseparate.loopFree id secret hbefore (hguard hmarked)
  · intro id secret remaining hcleared hmarked
    rw [hreplay] at hcleared
    rcases hstep.guard id hmarked with hbefore | hloop
    · exact hseparate.replayFree id secret remaining hcleared hbefore
    · exact hseparate.apart id (by simp [hcleared, ReplayPhase.ahead]) hloop

omit [DecidableEq Id] [DecidableEq Secret] in
theorem Separate.replayStep (hseparate : state.Separate keyFromSecret)
    (hstep : ReplayStep state after) :
    after.Separate keyFromSecret := by
  have hloop : after.atLoop = state.atLoop := by
    unfold atLoop
    rw [hstep.handler, hstep.buffer, hstep.flushes]
  constructor
  · intro id hahead
    rw [hloop]
    exact hseparate.apart id (hstep.ahead hahead)
  · intro id hahead hswept
    rcases hstep.swept id hswept with hbefore | hpast
    · exact hseparate.unswept id (hstep.ahead hahead) hbefore
    · exact hpast hahead
  · exact hseparate.distinct.sublist hstep.entryIds
  · exact fun secret hmem => hseparate.keys secret (hstep.unparsed hmem)
  · intro id secret hhandler hmarked
    rw [hstep.handler] at hhandler
    rcases hstep.guard id hmarked with hbefore | hahead
    · exact hseparate.loopFree id secret hhandler hbefore
    · apply hseparate.apart id hahead
      simp [atLoop, hhandler, RecoveryPhase.ids]
  · exact hstep.cleared

omit [DecidableEq Id] [DecidableEq Secret] in
/-- The replay goes on without a claim. -/
theorem ReplayStep.of_moved (hhandler : after.handler = state.handler)
    (hbuffer : after.withdrawalBuffer = state.withdrawalBuffer)
    (hflushes : after.flushes = state.flushes)
    (hswept : after.sweptSinceCapture = state.sweptSinceCapture)
    (hguard : after.inFlightSweeps ⊆ state.inFlightSweeps)
    (hahead : after.replay.ahead ⊆ state.replay.ahead)
    (hentries : after.replay.entryIds.Sublist state.replay.entryIds)
    (hunparsed : after.replay.unparsed ⊆ state.replay.unparsed)
    (hcleared : ∀ id secret remaining,
      after.replay = .cleared id secret remaining →
      id ∉ after.inFlightSweeps) : ReplayStep state after where
  handler := hhandler
  buffer := hbuffer
  flushes := hflushes
  ahead := hahead
  entryIds := hentries
  unparsed := hunparsed
  swept := fun _ hid => Or.inl (hswept ▸ hid)
  guard := fun _ hid => Or.inl (hguard hid)
  cleared := hcleared

omit [DecidableEq Secret] in
theorem replayStep_beside {stored : Except Cause Unit}
    (hnext : state.replayStep keyFromSecret stored = some after) :
    ReplayStep state after := by
  unfold replayStep at hnext
  cases hreplay : state.replay with
  | notStarted => simp [hreplay] at hnext
  | walking remaining =>
      match remaining with
      | [] => simp [hreplay] at hnext
      | (id, secret) :: remaining =>
          simp only [hreplay] at hnext
          split at hnext
          · cases hnext
            refine .of_moved rfl rfl rfl rfl (Finset.Subset.refl _) ?_ ?_ ?_
              (by simp)
            · simp [hreplay, ReplayPhase.ahead]
            · simp [hreplay, ReplayPhase.entryIds]
            · simp [hreplay, ReplayPhase.unparsed]
          · rename_i hfree
            cases hnext
            refine .of_moved rfl rfl rfl rfl (Finset.Subset.refl _) ?_ ?_ ?_ ?_
            · simp [hreplay, ReplayPhase.ahead]
            · simp [hreplay, ReplayPhase.entryIds]
            · simp [hreplay, ReplayPhase.unparsed]
            · intro other secret rest hcleared
              cases hcleared
              exact hfree
  | cleared id secret remaining =>
      simp only [hreplay, Option.some.injEq] at hnext
      subst hnext
      refine ⟨rfl, rfl, rfl, ?_, ?_, ?_, fun _ => Or.inl, ?_, by simp⟩
      · simp [hreplay, ReplayPhase.ahead]
      · simp [hreplay, ReplayPhase.entryIds]
      · simp [hreplay, ReplayPhase.unparsed]
      · intro other hmem
        rcases Finset.mem_insert.mp hmem with heq | hbefore
        · exact Or.inr (by simp [hreplay, ReplayPhase.ahead, heq])
        · exact Or.inl hbefore
  | claimed id secret remaining =>
      simp only [hreplay] at hnext
      split at hnext <;> cases hnext <;>
        refine .of_moved rfl rfl rfl rfl (Finset.Subset.refl _) ?_ ?_ ?_
          (by simp) <;>
        simp [hreplay, ReplayPhase.ahead, ReplayPhase.entryIds,
          ReplayPhase.unparsed]
  | calling id key remaining => simp [hreplay] at hnext
  | swept id remaining =>
      simp only [hreplay, Option.some.injEq] at hnext
      subst hnext
      refine .of_moved rfl rfl rfl rfl (Finset.erase_subset _ _) ?_ ?_ ?_
        (by simp) <;>
        simp [hreplay, ReplayPhase.ahead, ReplayPhase.entryIds,
          ReplayPhase.unparsed]
  | removing id remaining =>
      simp only [hreplay, Option.some.injEq] at hnext
      subst hnext
      cases stored <;>
        refine .of_moved rfl rfl rfl rfl (Finset.Subset.refl _) ?_ ?_ ?_
          (by simp) <;>
        simp [hreplay, ReplayPhase.ahead, ReplayPhase.entryIds,
          ReplayPhase.unparsed]
  | failed id remaining =>
      simp only [hreplay, Option.some.injEq] at hnext
      subst hnext
      refine .of_moved rfl rfl rfl rfl (Finset.erase_subset _ _) ?_ ?_ ?_
        (by simp) <;>
        simp [hreplay, ReplayPhase.ahead, ReplayPhase.entryIds,
          ReplayPhase.unparsed]

omit [DecidableEq Secret] in
/-- A successful sweep of the replay is of the entry at hand, which is none of
those which are left. -/
theorem replayAnswer_beside {id : Id} {key : Key}
    {remaining : List (Id × Secret)}
    (hdistinct : state.replay.entryIds.Nodup)
    (hreplay : state.replay = .calling id key remaining) :
    ReplayStep state { state with
      replay := .swept id remaining
      reportedOk := state.reportedOk ++ [id]
      sweptSinceCapture := insert id state.sweptSinceCapture } := by
  rw [hreplay] at hdistinct
  refine ⟨rfl, rfl, rfl, ?_, ?_, ?_, ?_, fun _ => Or.inl, by simp⟩
  · simp [hreplay, ReplayPhase.ahead]
  · simp [hreplay, ReplayPhase.entryIds]
  · simp [hreplay, ReplayPhase.unparsed]
  · intro other hmem
    rcases Finset.mem_insert.mp hmem with heq | hbefore
    · rw [heq]
      exact Or.inr (List.nodup_cons.mp hdistinct).1
    · exact Or.inl hbefore

omit [DecidableEq Id] [DecidableEq Secret] in
/-- A step which moves the event loop's ids about without taking up others. -/
theorem LoopStep.of_moved (hreplay : after.replay = state.replay)
    (hswept : after.sweptSinceCapture = state.sweptSinceCapture)
    (hloop : after.atLoop ⊆ state.atLoop)
    (hguard : ∀ id ∈ after.inFlightSweeps,
      id ∈ state.inFlightSweeps ∨ id ∈ state.atLoop)
    (hcleared : ∀ id secret, after.handler = .cleared id secret →
      id ∉ after.inFlightSweeps ∨ state.handler = .cleared id secret ∧
        after.inFlightSweeps ⊆ state.inFlightSweeps) :
    LoopStep state after where
  replay := hreplay
  loop := fun _ hid => Or.inl (hloop hid)
  swept := fun _ hid => Or.inl (hswept ▸ hid)
  guard := hguard
  cleared := hcleared

omit [DecidableEq Secret] in
theorem WorkStep.loopStep {index : ℕ} {task task' : SweepTask Id Secret Key Cause}
    {settled : SweepState Id Secret Key Cause}
    (htask : state.flushes[index]? = some task)
    (hstep : WorkStep state settled task task') :
    LoopStep state
      { settled with flushes := settled.flushes.set index task' } := by
  have hids : ∀ id ∈ task'.unreleased, id ∈ task.unreleased := by
    intro id hid
    rw [← List.count_pos_iff] at hid ⊢
    rcases hstep.released with ⟨_, hsame⟩ | ⟨released, _, hrest⟩
    · rwa [hsame id]
    · have hcount := hrest id
      omega
  have hguard : settled.inFlightSweeps ⊆ state.inFlightSweeps := by
    rcases hstep.released with ⟨hsame, _⟩ | ⟨released, herased, _⟩
    · rw [hsame]
    · rw [herased]
      exact Finset.erase_subset _ _
  refine .of_moved hstep.replay hstep.swept ?_ (fun id hid => Or.inl (hguard hid))
    ?_
  · intro id hid
    unfold atLoop at hid ⊢
    rw [hstep.handler, hstep.buffer, hstep.flushes] at hid
    rcases List.mem_append.mp hid with hother | hflush
    · exact List.mem_append_left _ hother
    · apply List.mem_append_right
      obtain ⟨other, hmem, hin⟩ := List.mem_flatMap.mp hflush
      rcases List.mem_or_eq_of_mem_set hmem with hold | heq
      · exact List.mem_flatMap.mpr ⟨other, hold, hin⟩
      · rw [heq] at hin
        exact List.mem_flatMap.mpr
          ⟨task, List.mem_of_getElem? htask, hids id hin⟩
  · intro id secret hhandler
    rw [← hstep.handler]
    exact Or.inr ⟨hhandler, hguard⟩

omit [DecidableEq Secret] in
theorem loopStep_answer {index : ℕ} {task task' : SweepTask Id Secret Key Cause}
    {reply : SweepReply Id Cause} (htask : state.flushes[index]? = some task)
    (hanswered : answered task reply = some task') :
    LoopStep state { state with
      flushes := state.flushes.set index task'
      reportedOk := state.reportedOk ++ okBy task reply
      sweptSinceCapture :=
        state.sweptSinceCapture ∪ (sweptBy task reply).toFinset } := by
  have hmem := List.mem_of_getElem? htask
  refine ⟨rfl, ?_, ?_, fun _ => Or.inl,
    fun _ _ hhandler => Or.inr ⟨hhandler, Finset.Subset.refl _⟩⟩
  · intro id hid
    apply Or.inl
    unfold atLoop at hid ⊢
    rcases List.mem_append.mp hid with hother | hflush
    · exact List.mem_append_left _ hother
    · apply List.mem_append_right
      obtain ⟨other, hin, hheld⟩ := List.mem_flatMap.mp hflush
      rcases List.mem_or_eq_of_mem_set hin with hold | heq
      · exact List.mem_flatMap.mpr ⟨other, hold, hheld⟩
      · rw [heq, answered_unreleased hanswered] at hheld
        exact List.mem_flatMap.mpr ⟨task, hmem, hheld⟩
  · intro id hid
    rcases Finset.mem_union.mp hid with hbefore | hnow
    · exact Or.inl hbefore
    · apply Or.inr
      apply List.mem_append_right
      exact List.mem_flatMap.mpr
        ⟨task, hmem, mem_sweptBy (List.mem_toFinset.mp hnow)⟩

omit [DecidableEq Secret] in
/-- A reported key which is not one of those entries comes to the handler. -/
theorem separate_persist {id : Id} (hseparate : state.Separate keyFromSecret)
    (hother : id ∉ state.replay.ahead) (secret : Secret)
    (stored : Except Cause Unit) :
    (state.persist id secret stored).Separate keyFromSecret := by
  have hhandled : ∀ after : SweepState Id Secret Key Cause,
      after.handler = .persisted id secret → after.replay = state.replay →
      after.inFlightSweeps = state.inFlightSweeps →
      after.withdrawalBuffer = state.withdrawalBuffer →
      after.flushes = state.flushes →
      after.sweptSinceCapture = state.sweptSinceCapture →
      LoopStep state after := by
    intro after hhandler hreplay hguard hbuffer hflushes hswept
    refine ⟨hreplay, fun other hmem => ?_, fun _ hid => Or.inl (hswept ▸ hid),
      fun _ hid => Or.inl (hguard ▸ hid), fun _ _ hcleared => ?_⟩
    · unfold atLoop at hmem ⊢
      rw [hhandler, hbuffer, hflushes, List.append_assoc] at hmem
      rcases List.mem_append.mp hmem with hin | hin
      · rw [List.mem_singleton.mp hin]
        exact Or.inr hother
      · rw [List.append_assoc]
        exact Or.inl (List.mem_append_right _ hin)
    · rw [hhandler] at hcleared
      cases hcleared
  unfold persist
  split
  · exact hseparate.loopStep (hhandled _ rfl rfl rfl rfl rfl rfl)
  · exact hseparate.loopStep (hhandled _ rfl rfl rfl rfl rfl rfl)
  · exact ⟨hseparate.apart, hseparate.unswept, hseparate.distinct,
      hseparate.keys, hseparate.loopFree, hseparate.replayFree⟩

theorem next_separate {action : SweepAction Id Secret Cause}
    (hseparate : state.Separate keyFromSecret)
    (hallowed : SweepsAlone keyFromSecret state action)
    (hnext : state.next keyFromSecret action = some after) :
    after.Separate keyFromSecret := by
  cases action with
  | recover id secret stored =>
      simp only [next] at hnext
      split at hnext
      · cases hnext
        exact separate_persist hseparate hallowed secret stored
      · cases hnext
  | checkSweep =>
      simp only [next] at hnext
      split at hnext
      · rename_i id secret hhandler
        split at hnext
        · cases hnext
          refine hseparate.loopStep (.of_moved rfl rfl ?_ (fun _ => Or.inl)
            (by simp))
          simp [atLoop, hhandler, RecoveryPhase.ids]
        · rename_i hfree
          cases hnext
          refine hseparate.loopStep (.of_moved rfl rfl ?_ (fun _ => Or.inl) ?_)
          · simp [atLoop, hhandler, RecoveryPhase.ids]
          · intro other secret hcleared
            cases hcleared
            exact Or.inl hfree
      · cases hnext
  | claim =>
      simp only [next] at hnext
      split at hnext
      · rename_i id secret hhandler
        cases hnext
        refine hseparate.loopStep (.of_moved rfl rfl ?_ ?_ (by simp))
        · simp [atLoop, hhandler, RecoveryPhase.ids]
        · intro other hmem
          rcases Finset.mem_insert.mp hmem with heq | hbefore
          · exact Or.inr (by simp [atLoop, hhandler, RecoveryPhase.ids, heq])
          · exact Or.inl hbefore
      · cases hnext
  | push =>
      simp only [next] at hnext
      split at hnext
      · rename_i id secret hhandler
        cases hnext
        refine hseparate.loopStep (.of_moved rfl rfl ?_ (fun _ => Or.inl)
          (by simp))
        intro other hmem
        simp only [atLoop, RecoveryPhase.ids, hhandler, List.mem_append,
          List.map_append, List.map_cons, List.map_nil,
          List.nil_append] at hmem ⊢
        tauto
      · cases hnext
  | flush =>
      simp only [next] at hnext
      split at hnext
      · rename_i hhandler
        cases hnext
        refine hseparate.loopStep (.of_moved rfl rfl ?_ (fun _ => Or.inl) ?_)
        · intro other hmem
          simp only [atLoop, RecoveryPhase.ids, hhandler, List.mem_append,
            List.flatMap_append, List.flatMap_singleton, List.map_nil,
            SweepTask.unreleased, List.nil_append] at hmem ⊢
          tauto
        · intro other secret hcleared
          rw [hhandler] at hcleared
          cases hcleared
      · cases hnext
  | answer index reply =>
      simp only [next] at hnext
      split at hnext
      · rename_i task htask
        split at hnext
        · rename_i task' hanswered
          cases hnext
          exact hseparate.loopStep (loopStep_answer htask hanswered)
        · cases hnext
      · cases hnext
  | work index stored =>
      simp only [next] at hnext
      split at hnext
      · rename_i task htask
        split at hnext
        · rename_i settled task' hwork
          cases hnext
          exact hseparate.loopStep ((workTask_of_some hwork).loopStep htask)
        · cases hnext
      · cases hnext
  | capture entries =>
      simp only [next] at hnext
      split at hnext
      · split at hnext
        · rename_i hentries
          cases hnext
          refine ⟨?_, ?_, hentries.2, ?_, hseparate.loopFree, by simp⟩
          · intro id hid
            obtain ⟨entry, hmem, heq⟩ := List.mem_map.mp hid
            exact heq ▸ (hallowed entry hmem).1
          · exact fun id _ => Finset.notMem_empty id
          · intro secret hsecret
            obtain ⟨entry, hmem, heq⟩ := List.mem_map.mp hsecret
            exact heq ▸ (hallowed entry hmem).2
        · cases hnext
      · cases hnext
  | replayWork stored => exact hseparate.replayStep (replayStep_beside hnext)
  | replayAnswer result =>
      simp only [next] at hnext
      split at hnext
      · rename_i id key remaining hreplay
        cases hnext
        exact hseparate.replayStep
          (replayAnswer_beside hseparate.distinct hreplay)
      · rename_i id key remaining error hreplay
        cases hnext
        refine hseparate.replayStep (.of_moved rfl rfl rfl rfl
          (Finset.Subset.refl _) ?_ ?_ ?_ (by simp)) <;>
          simp [hreplay, ReplayPhase.ahead, ReplayPhase.entryIds,
            ReplayPhase.unparsed]
      · cases hnext
  | crash =>
      cases hnext
      constructor <;>
        simp [restarted, initial, ReplayPhase.ahead, ReplayPhase.entryIds,
          ReplayPhase.unparsed]

omit [DecidableEq Secret] in
theorem SweepInvariant.initial
    (store : Option (PixRecoveryStore Id Secret)) :
    SweepInvariant keyFromSecret (SweepState.initial store :
      SweepState Id Secret Key Cause) where
  exclusive := Exclusive.nothing
  fresh _ hid := by cases hid
  separate := by
    constructor <;>
      simp [SweepState.initial, ReplayPhase.ahead, ReplayPhase.entryIds,
        ReplayPhase.unparsed]

omit [DecidableEq Secret] in
/-- An answered flush holds what it has swept, so the replay does not. -/
theorem SweepInvariant.fresh_answer
    (hinv : state.SweepInvariant keyFromSecret) {index : ℕ}
    {task : SweepTask Id Secret Key Cause} {reply : SweepReply Id Cause}
    (htask : state.flushes[index]? = some task) (id : Id)
    (hid : id ∈ state.replay.sweeping) : id ∉ sweptBy task reply := by
  intro hswept
  have honce := hinv.exclusive.once id
  have hflush := le_held (fun task : SweepTask Id Secret Key Cause =>
    task.unreleased.count id) (List.mem_of_getElem? htask)
  have hunreleased := List.count_pos_iff.mpr (mem_sweptBy hswept)
  have hreplay :=
    List.count_pos_iff.mpr (ReplayPhase.held_of_sweeping hid)
  simp only [idsHeld] at honce
  omega

omit [DecidableEq Secret] in
theorem SweepInvariant.fresh_replayStep (hinv : state.SweepInvariant keyFromSecret)
    {stored : Except Cause Unit}
    (hstep : state.replayStep keyFromSecret stored = some after) :
    ∀ id ∈ after.replay.sweeping, id ∉ after.sweptSinceCapture := by
  unfold replayStep at hstep
  cases hreplay : state.replay with
  | notStarted => simp [hreplay] at hstep
  | walking remaining =>
      match remaining with
      | [] => simp [hreplay] at hstep
      | (id, secret) :: remaining =>
          simp only [hreplay] at hstep
          split at hstep <;> simp only [Option.some.injEq] at hstep <;>
            subst hstep <;> intro _ hid <;> cases hid
  | cleared id secret remaining =>
      simp only [hreplay, Option.some.injEq] at hstep
      subst hstep
      intro other hother
      rw [List.mem_singleton.mp hother]
      exact hinv.separate.unswept id (by simp [hreplay, ReplayPhase.ahead])
  | claimed id secret remaining =>
      have hfresh := hinv.fresh id (by simp [hreplay, ReplayPhase.sweeping])
      simp only [hreplay] at hstep
      split at hstep <;> simp only [Option.some.injEq] at hstep <;>
        subst hstep
      · intro other hother
        rw [List.mem_singleton.mp hother]
        exact hfresh
      · intro _ hid
        cases hid
  | calling id key remaining => simp [hreplay] at hstep
  | swept id remaining =>
      simp only [hreplay, Option.some.injEq] at hstep
      subst hstep
      intro _ hid
      cases hid
  | removing id remaining =>
      simp only [hreplay, Option.some.injEq] at hstep
      subst hstep
      intro _ hid
      cases hid
  | failed id remaining =>
      simp only [hreplay, Option.some.injEq] at hstep
      subst hstep
      intro _ hid
      cases hid

theorem SweepInvariant.fresh_next {action : SweepAction Id Secret Cause}
    (hinv : state.SweepInvariant keyFromSecret)
    (hnext : state.next keyFromSecret action = some after) :
    ∀ id ∈ after.replay.sweeping, id ∉ after.sweptSinceCapture := by
  cases action with
  | recover id secret stored =>
      simp only [next] at hnext
      split at hnext
      · simp only [Option.some.injEq] at hnext
        subst hnext
        unfold persist
        split <;> exact hinv.fresh
      · cases hnext
  | checkSweep =>
      simp only [next] at hnext
      split at hnext
      · split at hnext <;> simp only [Option.some.injEq] at hnext <;>
          subst hnext <;> exact hinv.fresh
      · cases hnext
  | claim | push | flush =>
      simp only [next] at hnext
      split at hnext
      · simp only [Option.some.injEq] at hnext
        subst hnext
        exact hinv.fresh
      · cases hnext
  | answer index reply =>
      simp only [next] at hnext
      split at hnext
      · rename_i task htask
        split at hnext
        · simp only [Option.some.injEq] at hnext
          subst hnext
          intro id hid hswept
          rcases Finset.mem_union.mp hswept with hbefore | hnow
          · exact hinv.fresh id hid hbefore
          · exact hinv.fresh_answer htask id hid (List.mem_toFinset.mp hnow)
        · cases hnext
      · cases hnext
  | work index stored =>
      simp only [next] at hnext
      split at hnext
      · split at hnext
        · rename_i settled task' hwork
          simp only [Option.some.injEq] at hnext
          subst hnext
          have hstep := workTask_of_some hwork
          simp only [hstep.replay, hstep.swept]
          exact hinv.fresh
        · cases hnext
      · cases hnext
  | capture entries =>
      simp only [next] at hnext
      split at hnext
      · split at hnext
        · simp only [Option.some.injEq] at hnext
          subst hnext
          intro _ hid
          cases hid
        · cases hnext
      · cases hnext
  | replayWork stored => exact hinv.fresh_replayStep hnext
  | replayAnswer result =>
      simp only [next] at hnext
      split at hnext
      · simp only [Option.some.injEq] at hnext
        subst hnext
        intro _ hid
        cases hid
      · simp only [Option.some.injEq] at hnext
        subst hnext
        intro _ hid
        cases hid
      · cases hnext
  | crash =>
      simp only [next, Option.some.injEq] at hnext
      subst hnext
      intro _ hid
      cases hid

theorem sweepInvariant_of_reachable
    {recoveryStore : Option (PixRecoveryStore Id Secret)}
    (hreach : (sweepSystem keyFromSecret recoveryStore).ReachableWithin
      (SweepsAlone keyFromSecret) state) :
    state.SweepInvariant keyFromSecret := by
  apply hreach.invariant
  · rintro start rfl
    exact .initial recoveryStore
  · intro before action after hinv hallowed hnext
    exact ⟨(next_move hinv.separate hnext).exclusive hinv.exclusive,
      hinv.fresh_next hnext, next_separate hinv.separate hallowed hnext⟩

/-! ## Every path comes to its end -/

/-- Left to itself, a flush comes to the pool's answer or to its end. -/
theorem worksOn (keyFromSecret : Secret → Option Key)
    (recoveryStore : Option (PixRecoveryStore Id Secret)) {index : ℕ}
    {task : SweepTask Id Secret Key Cause}
    (htask : state.flushes[index]? = some task) :
    ∃ steps after task', (sweepSystem keyFromSecret recoveryStore).run state
        (List.replicate steps (.work index (.ok ()))) = some after ∧
      after.flushes[index]? = some task' ∧ task'.stepsLeft = 0 := by
  let Running := fun state : SweepState Id Secret Key Cause =>
    ∃ task, state.flushes[index]? = some task
  let left := fun state : SweepState Id Secret Key Cause =>
    (state.flushes[index]?.map SweepTask.stepsLeft).getD 0
  have hcloser : ∀ before, Running before → left before ≠ 0 →
      ∃ after, (sweepSystem keyFromSecret recoveryStore).next before
        (.work index (.ok ())) = some after ∧ Running after ∧
          left after < left before := by
    rintro before ⟨running, hrunning⟩ hleft
    simp only [left, hrunning, Option.map_some, Option.getD_some] at hleft
    rcases workTask_step keyFromSecret (.ok ()) hleft with
      ⟨settled, running', hwork, hstep, hcloser⟩
    have hset : (settled.flushes.set index running')[index]? =
        some running' := by
      rw [hstep.flushes]
      exact List.getElem?_set_self (List.getElem?_eq_some_iff.mp hrunning).1
    refine ⟨{ settled with flushes := settled.flushes.set index running' },
      ?_, ⟨running', hset⟩, ?_⟩
    · simp only [sweepSystem, next, hrunning, hwork]
    · simpa [left, hrunning, hset] using hcloser
  rcases (sweepSystem keyFromSecret recoveryStore).exists_run_to_end
    (.work index (.ok ())) Running left hcloser state ⟨task, htask⟩ with
    ⟨steps, after, hrun, ⟨last, hlast⟩, hzero⟩
  exact ⟨steps, after, last, hrun, hlast, by simpa [left, hlast] using hzero⟩

/-- Left to itself, the replay comes to the pool's answer or to its end. -/
theorem replaysOn (keyFromSecret : Secret → Option Key)
    (recoveryStore : Option (PixRecoveryStore Id Secret))
    (state : SweepState Id Secret Key Cause) :
    ∃ steps after, (sweepSystem keyFromSecret recoveryStore).run state
        (List.replicate steps (.replayWork (.ok ()))) = some after ∧
      after.replay.stepsLeft = 0 := by
  have hcloser : ∀ before : SweepState Id Secret Key Cause, True →
      before.replay.stepsLeft ≠ 0 →
      ∃ after, (sweepSystem keyFromSecret recoveryStore).next before
        (.replayWork (.ok ())) = some after ∧ True ∧
          after.replay.stepsLeft < before.replay.stepsLeft := by
    intro before _ hleft
    cases hreplay : before.replay with
    | notStarted => simp [hreplay, ReplayPhase.stepsLeft] at hleft
    | walking remaining =>
        match remaining with
        | [] => simp [hreplay, ReplayPhase.stepsLeft] at hleft
        | (id, secret) :: remaining =>
            by_cases hmarked : id ∈ before.inFlightSweeps
            · refine ⟨{ before with replay := .walking remaining }, ?_,
                trivial, ?_⟩
              · simp [sweepSystem, next, replayStep, hreplay, hmarked]
              · simp [ReplayPhase.stepsLeft]
            · refine ⟨{ before with replay := .cleared id secret remaining },
                ?_, trivial, ?_⟩
              · simp [sweepSystem, next, replayStep, hreplay, hmarked]
              · simp only [ReplayPhase.stepsLeft, List.length_cons]
                omega
    | cleared id secret remaining =>
        refine ⟨_, by simp [sweepSystem, next, replayStep, hreplay]; rfl,
          trivial, ?_⟩
        simp [ReplayPhase.stepsLeft]
    | claimed id secret remaining =>
        cases hkey : keyFromSecret secret with
        | some key =>
            refine ⟨{ before with replay := .calling id key remaining }, ?_,
              trivial, ?_⟩
            · simp [sweepSystem, next, replayStep, hreplay, hkey]
            · simp [ReplayPhase.stepsLeft]
        | none =>
            refine ⟨{ before with replay := .walking remaining }, ?_,
              trivial, ?_⟩
            · simp [sweepSystem, next, replayStep, hreplay, hkey]
            · simp [ReplayPhase.stepsLeft]
    | calling id key remaining =>
        simp [hreplay, ReplayPhase.stepsLeft] at hleft
    | swept id remaining =>
        refine ⟨_, by simp [sweepSystem, next, replayStep, hreplay]; rfl,
          trivial, ?_⟩
        simp [ReplayPhase.stepsLeft]
    | removing id remaining =>
        refine ⟨_, by simp [sweepSystem, next, replayStep, hreplay]; rfl,
          trivial, ?_⟩
        simp [ReplayPhase.stepsLeft]
    | failed id remaining =>
        refine ⟨_, by simp [sweepSystem, next, replayStep, hreplay]; rfl,
          trivial, ?_⟩
        simp [ReplayPhase.stepsLeft]
  rcases (sweepSystem keyFromSecret recoveryStore).exists_run_to_end
    (.replayWork (.ok ())) (fun _ => True)
    (fun state => state.replay.stepsLeft) hcloser state trivial with
    ⟨steps, after, hrun, _, hzero⟩
  exact ⟨steps, after, hrun, hzero⟩

end SweepState

/-- In a run whose replay reads entries which the event loop has not at hand,
whose secrets give keys and whose keys are not reported again before it claims
them, no id has two sweeps in flight, the replay sweeps nothing which was
swept since it has read its entries, and the marked ids are those which are
held; every flush and the replay come to the pool's answer or to their end,
where they hold nothing. -/
theorem sweepGuard [DecidableEq Id] [DecidableEq Secret]
    (keyFromSecret : Secret → Option Key)
    (recoveryStore : Option (PixRecoveryStore Id Secret))
    {state : SweepState Id Secret Key Cause}
    (hreach : (sweepSystem keyFromSecret recoveryStore).ReachableWithin
      (SweepState.SweepsAlone keyFromSecret) state) :
    (∀ id, (state.sweeps.map Prod.fst).count id ≤ 1) ∧
    (∀ id ∈ state.replay.sweeping, id ∉ state.sweptSinceCapture) ∧
    (∀ id, id ∈ state.inFlightSweeps ↔ 0 < state.idsHeld id) ∧
    (∀ index task, state.flushes[index]? = some task →
      ∃ steps after task', (sweepSystem keyFromSecret recoveryStore).run state
          (List.replicate steps (.work index (.ok ()))) = some after ∧
        after.flushes[index]? = some task' ∧ task'.stepsLeft = 0) ∧
    (∃ steps after, (sweepSystem keyFromSecret recoveryStore).run state
        (List.replicate steps (.replayWork (.ok ()))) = some after ∧
      after.replay.stepsLeft = 0) := by
  have hinv := SweepState.sweepInvariant_of_reachable hreach
  refine ⟨fun id => ?_, hinv.fresh, hinv.exclusive.marked,
    fun _ _ => SweepState.worksOn keyFromSecret recoveryStore,
    SweepState.replaysOn keyFromSecret recoveryStore state⟩
  exact (SweepState.count_sweeps_le state id).trans (hinv.exclusive.once id)

/-- A recovered key up to its claim, and from its buffer to the pool. -/
def recovering (id : ℕ) : List (SweepAction ℕ ℕ Unit) :=
  [.recover id 0 (.ok ()), .checkSweep]

def sweeping : List (SweepAction ℕ ℕ Unit) :=
  [.claim, .push, .flush, .work 0 (.ok ())]

/-- A key is stored and the strategy starts again.  While the replay has the
entry at hand, another key is recovered, claimed and flushed; both sweeps are
in flight at the end. -/
def besideReplay : List (SweepAction ℕ ℕ Unit) :=
  [.recover 7 0 (.ok ()), .crash, .capture [(7, 0)], .recover 8 1 (.ok ()),
    .replayWork (.ok ()), .checkSweep, .replayWork (.ok ())] ++ sweeping ++
  [.replayWork (.ok ())]

theorem sweepGuard_besideReplay :
    ∃ state : SweepState ℕ ℕ ℕ Unit,
      state.sweeps = [(8, 1), (7, 0)] ∧ state.inFlightSweeps = {7, 8} ∧
      (∀ id, (state.sweeps.map Prod.fst).count id ≤ 1) ∧
      ∀ id ∈ state.replay.sweeping, id ∉ state.sweptSinceCapture := by
  have hinit : (sweepSystem (some : ℕ → Option ℕ)
      (some ⟨[]⟩)).ReachableWithin (SweepState.SweepsAlone some)
      (SweepState.initial (some ⟨[]⟩) : SweepState ℕ ℕ ℕ Unit) := .init rfl
  have hrun : (sweepSystem (some : ℕ → Option ℕ) (some ⟨[]⟩)).run
      (SweepState.initial (some ⟨[]⟩) : SweepState ℕ ℕ ℕ Unit)
      besideReplay = some _ := rfl
  have halone : (sweepSystem (some : ℕ → Option ℕ) (some ⟨[]⟩)).Throughout
      (fun before action _ => SweepState.SweepsAlone some before action)
      (SweepState.initial (some ⟨[]⟩) : SweepState ℕ ℕ ℕ Unit)
      besideReplay := by decide
  have hguard := sweepGuard some _ (hinit.throughout halone hrun)
  exact ⟨_, by decide, by decide, hguard.1, hguard.2.1⟩

/-- An entry whose secret gives no key leaves its id marked; two claims after
two look-ups sweep an id twice at once; and an entry which was swept after the
replay has read it is swept again. -/
theorem sweepGuard_not_always :
    (¬ ∀ (keyFromSecret : ℕ → Option ℕ) (state : SweepState ℕ ℕ ℕ Unit),
      (sweepSystem keyFromSecret (some ⟨[]⟩)).Reachable state →
        ∀ id, id ∈ state.inFlightSweeps ↔ 0 < state.idsHeld id) ∧
    (¬ ∀ (keyFromSecret : ℕ → Option ℕ) (state : SweepState ℕ ℕ ℕ Unit),
      (sweepSystem keyFromSecret (some ⟨[]⟩)).Reachable state →
        ∀ id, (state.sweeps.map Prod.fst).count id ≤ 1) ∧
    (¬ ∀ (keyFromSecret : ℕ → Option ℕ) (state : SweepState ℕ ℕ ℕ Unit),
      (sweepSystem keyFromSecret (some ⟨[]⟩)).Reachable state →
        ∀ id ∈ state.replay.sweeping, id ∉ state.sweptSinceCapture) := by
  have hinit : ∀ keyFromSecret : ℕ → Option ℕ,
      (sweepSystem keyFromSecret (some ⟨[]⟩)).Reachable
        (SweepState.initial (some ⟨[]⟩) : SweepState ℕ ℕ ℕ Unit) :=
    fun _ => .init rfl
  let replaying : List (SweepAction ℕ ℕ Unit) :=
    [.recover 7 0 (.ok ()), .crash, .capture [(7, 0)]]
  let replayStep : SweepAction ℕ ℕ Unit := .replayWork (.ok ())
  refine ⟨fun hclaim => ?_, fun hclaim => ?_, fun hclaim => ?_⟩
  · have hleaked := (hinit fun _ => none).run
      (replaying ++ [replayStep, replayStep, replayStep]) rfl
    exact absurd (hclaim _ _ hleaked 7) (by decide)
  · have htwice := (hinit some).run (replaying ++ recovering 7 ++
      [replayStep] ++ sweeping ++ [replayStep, replayStep]) rfl
    exact absurd (hclaim _ _ htwice 7) (by decide)
  · have hagain := (hinit some).run (replaying ++ recovering 7 ++ sweeping ++
      [.answer 0 (.single (.ok ())), .work 0 (.ok ()), .work 0 (.ok ()),
        replayStep, replayStep]) rfl
    exact absurd (hclaim _ _ hagain 7) (by decide)

end HoprStrategy.Pix
