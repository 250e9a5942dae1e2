import HoprStrategy.Library.TransitionSystem
import Mathlib.Tactic

/-!
# The buffers of the run loop

Deposits and withdrawals are debounced alike: a buffer, a deadline which every
event moves while the buffer is not empty, and the batches handed over so far.
The loop waits for the next event or for the earlier of the two deadlines, and
flushes both buffers after the event stream has ended.
-/

namespace HoprStrategy.Pix

open Library

/-- A buffer with its flush deadline.  `flushes` are the batches handed to a
flush, in their order. -/
structure FlushBuffer (Item : Type) where
  buffer : List Item
  flushAt : Option ℕ
  flushes : List (List Item)

namespace FlushBuffer

variable {Item : Type}

def empty : FlushBuffer Item := ⟨[], none, []⟩

def push (queue : FlushBuffer Item) (item : Item) : FlushBuffer Item :=
  { queue with buffer := queue.buffer ++ [item] }

/-- The awaited flush takes whatever is buffered. -/
def flush (queue : FlushBuffer Item) : FlushBuffer Item :=
  { queue with
    buffer := []
    flushes := queue.flushes ++ [queue.buffer] }

/-- The detached flush spawns no task for an empty buffer. -/
def detachFlush (queue : FlushBuffer Item) : FlushBuffer Item :=
  if queue.buffer.isEmpty then queue else queue.flush

/-- What a handler does with an entry which has passed its checks.  Inside the
loop every flush is detached. -/
def handle (period : ℕ) (queue : FlushBuffer Item) (item : Item) :
    FlushBuffer Item :=
  if period = 0 then (queue.push item).detachFlush else queue.push item

/-- Debounce: the deadline moves while something is buffered. -/
def rearm (period now : ℕ) (queue : FlushBuffer Item) : FlushBuffer Item :=
  if queue.buffer.isEmpty then queue
  else { queue with flushAt := some (now + period) }

def due (queue : FlushBuffer Item) (now : ℕ) : Bool :=
  queue.flushAt.any (· ≤ now)

/-- The buffer's part of an elapsed timer. -/
def elapse (now : ℕ) (queue : FlushBuffer Item) : FlushBuffer Item :=
  if queue.due now then { queue.detachFlush with flushAt := none } else queue

end FlushBuffer

inductive LoopPhase where
  | looping
  /-- The stream has ended and the last deposits are being flushed. -/
  | flushingDeposits
  | flushingWithdrawals
  | returned
  deriving DecidableEq

structure BufferPeriods where
  depositBufferPeriod : ℕ
  withdrawalBufferPeriod : ℕ

structure RunState (Deposit Withdrawal : Type) where
  deposits : FlushBuffer Deposit
  withdrawals : FlushBuffer Withdrawal
  phase : LoopPhase

/-- What `on_pix_event` has buffered when it returns. -/
inductive Handled (Deposit Withdrawal : Type) where
  | deposit (deposit : Deposit)
  | withdrawal (withdrawal : Withdrawal)
  /-- The event was refused, failed, or is of a kind which is never buffered. -/
  | nothing

inductive RunAction (Deposit Withdrawal : Type) where
  | event (handled : Handled Deposit Withdrawal) (now : ℕ)
  | timer (now : ℕ)
  | streamEnded
  | depositsFlushed
  | withdrawalsFlushed

variable {Deposit Withdrawal : Type}

namespace RunState

def initial : RunState Deposit Withdrawal :=
  ⟨.empty, .empty, .looping⟩

/-- The event handler, with its flush where there is no buffer period. -/
def onPixEvent (cfg : BufferPeriods) (state : RunState Deposit Withdrawal) :
    Handled Deposit Withdrawal → RunState Deposit Withdrawal
  | .deposit deposit =>
      { state with
        deposits := state.deposits.handle cfg.depositBufferPeriod deposit }
  | .withdrawal withdrawal =>
      { state with
        withdrawals :=
          state.withdrawals.handle cfg.withdrawalBufferPeriod withdrawal }
  | .nothing => state

/-- The earlier one of the armed deadlines. -/
def sleepDeadline (state : RunState Deposit Withdrawal) : Option ℕ :=
  match state.deposits.flushAt, state.withdrawals.flushAt with
  | some deposits, some withdrawals => some (min deposits withdrawals)
  | some deposits, none => some deposits
  | none, withdrawals => withdrawals

def next (cfg : BufferPeriods) (state : RunState Deposit Withdrawal) :
    RunAction Deposit Withdrawal → Option (RunState Deposit Withdrawal)
  | .event handled now =>
      match state.phase with
      | .looping =>
          let handledState := state.onPixEvent cfg handled
          some { handledState with
            deposits := handledState.deposits.rearm cfg.depositBufferPeriod now
            withdrawals :=
              handledState.withdrawals.rearm cfg.withdrawalBufferPeriod now }
      | _ => none
  | .timer now =>
      match state.phase, state.sleepDeadline with
      | .looping, some deadline =>
          if deadline ≤ now then
            some { state with
              deposits := state.deposits.elapse now
              withdrawals := state.withdrawals.elapse now }
          else none
      | _, _ => none
  | .streamEnded =>
      match state.phase with
      | .looping =>
          some { state with
            deposits := state.deposits.flush
            phase := .flushingDeposits }
      | _ => none
  | .depositsFlushed =>
      match state.phase with
      | .flushingDeposits =>
          some { state with
            withdrawals := state.withdrawals.flush
            phase := .flushingWithdrawals }
      | _ => none
  | .withdrawalsFlushed =>
      match state.phase with
      | .flushingWithdrawals => some { state with phase := .returned }
      | _ => none

end RunState

def runSystem (cfg : BufferPeriods) :
    TransitionSystem (RunState Deposit Withdrawal)
      (RunAction Deposit Withdrawal) where
  init state := state = RunState.initial
  next := RunState.next cfg

/-- The deposits which the events of a run have buffered. -/
def depositsOf (actions : List (RunAction Deposit Withdrawal)) :
    List Deposit :=
  actions.filterMap fun
    | .event (.deposit deposit) _ => some deposit
    | _ => none

/-- The withdrawals which the events of a run have buffered. -/
def withdrawalsOf (actions : List (RunAction Deposit Withdrawal)) :
    List Withdrawal :=
  actions.filterMap fun
    | .event (.withdrawal withdrawal) _ => some withdrawal
    | _ => none

/-! ## One buffer -/

namespace FlushBuffer

variable {Item : Type} {queue : FlushBuffer Item}

/-- Everything which was buffered so far, handed over or not. -/
def items (queue : FlushBuffer Item) : List Item :=
  queue.flushes.flatten ++ queue.buffer

/-- The deadline is armed just when something is buffered. -/
def Armed (queue : FlushBuffer Item) : Prop :=
  queue.flushAt.isSome ↔ queue.buffer ≠ []

theorem empty_armed : Armed (empty : FlushBuffer Item) := by
  simp [Armed, empty]

@[simp] theorem items_push (item : Item) :
    (queue.push item).items = queue.items ++ [item] := by
  simp [items, push]

@[simp] theorem items_flush : queue.flush.items = queue.items := by
  simp [items, flush]

@[simp] theorem items_detachFlush : queue.detachFlush.items = queue.items := by
  unfold detachFlush
  split
  · rfl
  · exact items_flush

@[simp] theorem buffer_detachFlush : queue.detachFlush.buffer = [] := by
  unfold detachFlush
  split
  · rename_i hempty
    exact List.isEmpty_iff.mp hempty
  · rfl

@[simp] theorem flushAt_detachFlush :
    queue.detachFlush.flushAt = queue.flushAt := by
  unfold detachFlush
  split <;> rfl

@[simp] theorem items_handle (period : ℕ) (item : Item) :
    (queue.handle period item).items = queue.items ++ [item] := by
  unfold handle
  split <;> simp

@[simp] theorem items_rearm (period now : ℕ) :
    (queue.rearm period now).items = queue.items := by
  unfold rearm
  split <;> rfl

@[simp] theorem items_elapse (now : ℕ) :
    (queue.elapse now).items = queue.items := by
  unfold elapse
  split
  · exact items_detachFlush
  · rfl

/-- Without a buffer period nothing stays buffered, so no deadline is ever
armed; with one, the deadline is armed by the event which buffers first. -/
theorem Armed.rearm_handle (harmed : queue.Armed) (period now : ℕ)
    (item : Item) (hperiod : period = 0 → queue.buffer = []) :
    ((queue.handle period item).rearm period now).Armed := by
  by_cases hzero : period = 0
  · have hflushAt : queue.flushAt = none := by
      have hnone := harmed.not.mpr (not_not.mpr (hperiod hzero))
      simpa using hnone
    have hbuffer : (queue.handle period item).buffer = [] := by
      simp [handle, hzero]
    have hrearm : (queue.handle period item).rearm period now =
        queue.handle period item := by
      simp [rearm, hbuffer]
    rw [hrearm, Armed, hbuffer]
    simp [handle, hzero, push, hflushAt]
  · have hhandle : queue.handle period item = queue.push item := by
      simp [handle, hzero]
    rw [hhandle]
    simp [Armed, rearm, push]

theorem Armed.rearm (harmed : queue.Armed) (period now : ℕ) :
    (queue.rearm period now).Armed := by
  cases hbuffer : queue.buffer with
  | nil =>
      have hrearm : queue.rearm period now = queue := by
        simp [FlushBuffer.rearm, hbuffer]
      rw [hrearm]
      exact harmed
  | cons item rest => simp [Armed, FlushBuffer.rearm, hbuffer]

/-- An elapsed timer disarms the deadline of the buffer which it drains, and
only that. -/
theorem Armed.elapse (harmed : queue.Armed) (now : ℕ) :
    (queue.elapse now).Armed := by
  unfold FlushBuffer.elapse
  split
  · simp [Armed]
  · exact harmed

/-- Without a buffer period nothing is left over by any step. -/
theorem buffer_rearm_handle (period now : ℕ) (item : Item)
    (hzero : period = 0) :
    ((queue.handle period item).rearm period now).buffer = [] := by
  have hbuffer : (queue.handle period item).buffer = [] := by
    simp [handle, hzero]
  simp [rearm, hbuffer]

theorem buffer_rearm (period now : ℕ) :
    (queue.rearm period now).buffer = queue.buffer := by
  unfold rearm
  split <;> rfl

theorem buffer_elapse (now : ℕ) (hbuffer : queue.buffer = []) :
    (queue.elapse now).buffer = [] := by
  unfold elapse
  split
  · exact buffer_detachFlush
  · exact hbuffer

/-- A due buffer is handed over as it stands, and its deadline is gone. -/
theorem elapse_eq (harmed : queue.Armed) (now : ℕ) :
    queue.elapse now = if queue.due now
      then ⟨[], none, queue.flushes ++ [queue.buffer]⟩ else queue := by
  cases hdue : queue.due now with
  | false => simp [elapse, hdue]
  | true =>
      have hbuffer : queue.buffer ≠ [] := by
        apply harmed.mp
        unfold due at hdue
        cases hflushAt : queue.flushAt with
        | none => simp [hflushAt] at hdue
        | some deadline => rfl
      simp [elapse, hdue, detachFlush, hbuffer, flush]

end FlushBuffer

/-! ## The loop -/

namespace RunState

variable {cfg : BufferPeriods} {state after : RunState Deposit Withdrawal}

/-- A non-empty buffer of the running loop is armed, and the flushes after the
loop leave nothing. -/
structure Invariant (cfg : BufferPeriods)
    (state : RunState Deposit Withdrawal) : Prop where
  depositsArmed : state.phase = .looping → state.deposits.Armed
  withdrawalsArmed : state.phase = .looping → state.withdrawals.Armed
  depositsUnheld : cfg.depositBufferPeriod = 0 → state.deposits.buffer = []
  withdrawalsUnheld :
    cfg.withdrawalBufferPeriod = 0 → state.withdrawals.buffer = []
  depositsFlushed : state.phase ≠ .looping → state.deposits.buffer = []
  withdrawalsFlushed :
    state.phase ≠ .looping → state.phase ≠ .flushingDeposits →
      state.withdrawals.buffer = []

theorem Invariant.initial :
    Invariant cfg (RunState.initial : RunState Deposit Withdrawal) where
  depositsArmed _ := FlushBuffer.empty_armed
  withdrawalsArmed _ := FlushBuffer.empty_armed
  depositsUnheld _ := rfl
  withdrawalsUnheld _ := rfl
  depositsFlushed _ := rfl
  withdrawalsFlushed _ _ := rfl

theorem Invariant.afterEvent (hinv : state.Invariant cfg)
    (hlooping : state.phase = .looping) (handled : Handled Deposit Withdrawal)
    (now : ℕ) (hnext : state.next cfg (.event handled now) = some after) :
    after.Invariant cfg := by
  have hdeposits := hinv.depositsArmed hlooping
  have hwithdrawals := hinv.withdrawalsArmed hlooping
  simp only [next, hlooping, Option.some.injEq] at hnext
  subst hnext
  cases handled with
  | deposit deposit =>
      constructor
      · intro _
        exact hdeposits.rearm_handle _ now deposit hinv.depositsUnheld
      · intro _
        exact hwithdrawals.rearm _ now
      · exact FlushBuffer.buffer_rearm_handle _ now deposit
      · intro hzero
        simpa [onPixEvent, FlushBuffer.buffer_rearm] using
          hinv.withdrawalsUnheld hzero
      · intro hphase
        exact absurd hlooping hphase
      · intro hphase
        exact absurd hlooping hphase
  | withdrawal withdrawal =>
      constructor
      · intro _
        exact hdeposits.rearm _ now
      · intro _
        exact hwithdrawals.rearm_handle _ now withdrawal hinv.withdrawalsUnheld
      · intro hzero
        simpa [onPixEvent, FlushBuffer.buffer_rearm] using
          hinv.depositsUnheld hzero
      · exact FlushBuffer.buffer_rearm_handle _ now withdrawal
      · intro hphase
        exact absurd hlooping hphase
      · intro hphase
        exact absurd hlooping hphase
  | nothing =>
      constructor
      · intro _
        exact hdeposits.rearm _ now
      · intro _
        exact hwithdrawals.rearm _ now
      · intro hzero
        simpa [onPixEvent, FlushBuffer.buffer_rearm] using
          hinv.depositsUnheld hzero
      · intro hzero
        simpa [onPixEvent, FlushBuffer.buffer_rearm] using
          hinv.withdrawalsUnheld hzero
      · intro hphase
        exact absurd hlooping hphase
      · intro hphase
        exact absurd hlooping hphase

theorem Invariant.next {action : RunAction Deposit Withdrawal}
    (hinv : state.Invariant cfg) (hnext : state.next cfg action = some after) :
    after.Invariant cfg := by
  cases hphase : state.phase with
  | looping =>
      have hdeposits := hinv.depositsArmed hphase
      have hwithdrawals := hinv.withdrawalsArmed hphase
      cases action with
      | event handled now => exact hinv.afterEvent hphase handled now hnext
      | timer now =>
          simp only [RunState.next, hphase] at hnext
          split at hnext
          · split at hnext
            · simp only [Option.some.injEq] at hnext
              subst hnext
              constructor
              · intro _
                exact hdeposits.elapse now
              · intro _
                exact hwithdrawals.elapse now
              · intro hzero
                exact FlushBuffer.buffer_elapse now (hinv.depositsUnheld hzero)
              · intro hzero
                exact FlushBuffer.buffer_elapse now
                  (hinv.withdrawalsUnheld hzero)
              · intro hother
                exact absurd rfl hother
              · intro hother
                exact absurd rfl hother
            · cases hnext
          · cases hnext
      | streamEnded =>
          simp only [RunState.next, hphase, Option.some.injEq] at hnext
          subst hnext
          constructor
          · rintro ⟨⟩
          · rintro ⟨⟩
          · intro _
            rfl
          · exact hinv.withdrawalsUnheld
          · intro _
            rfl
          · intro _ hother
            exact absurd rfl hother
      | depositsFlushed => simp [RunState.next, hphase] at hnext
      | withdrawalsFlushed => simp [RunState.next, hphase] at hnext
  | flushingDeposits =>
      have hflushed := hinv.depositsFlushed (by simp [hphase])
      cases action with
      | depositsFlushed =>
          simp only [RunState.next, hphase, Option.some.injEq] at hnext
          subst hnext
          constructor
          · rintro ⟨⟩
          · rintro ⟨⟩
          · intro _
            exact hflushed
          · intro _
            rfl
          · intro _
            exact hflushed
          · intro _ _
            rfl
      | _ => simp [RunState.next, hphase] at hnext
  | flushingWithdrawals =>
      have hdeposits := hinv.depositsFlushed (by simp [hphase])
      have hwithdrawals :=
        hinv.withdrawalsFlushed (by simp [hphase]) (by simp [hphase])
      cases action with
      | withdrawalsFlushed =>
          simp only [RunState.next, hphase, Option.some.injEq] at hnext
          subst hnext
          constructor
          · rintro ⟨⟩
          · rintro ⟨⟩
          · intro _
            exact hdeposits
          · intro _
            exact hwithdrawals
          · intro _
            exact hdeposits
          · intro _ _
            exact hwithdrawals
      | _ => simp [RunState.next, hphase] at hnext
  | returned => cases action <;> simp [RunState.next, hphase] at hnext

theorem invariant_of_run {actions : List (RunAction Deposit Withdrawal)}
    (hrun : (runSystem cfg).run RunState.initial actions = some state) :
    state.Invariant cfg := by
  have hinit : (runSystem cfg).Reachable
      (RunState.initial : RunState Deposit Withdrawal) := .init rfl
  apply (hinit.run actions hrun).invariant
  · rintro start rfl
    exact Invariant.initial
  · intro before action after hinv hnext
    exact hinv.next hnext

/-- A step adds what its event buffers, and moves everything else. -/
theorem items_next {action : RunAction Deposit Withdrawal}
    (hnext : state.next cfg action = some after) :
    after.deposits.items = state.deposits.items ++ depositsOf [action] ∧
      after.withdrawals.items =
        state.withdrawals.items ++ withdrawalsOf [action] := by
  cases action with
  | event handled now =>
      simp only [next] at hnext
      split at hnext
      · simp only [Option.some.injEq] at hnext
        subst hnext
        cases handled <;> simp [onPixEvent, depositsOf, withdrawalsOf]
      · cases hnext
  | timer now =>
      simp only [next] at hnext
      split at hnext
      · split at hnext
        · simp only [Option.some.injEq] at hnext
          subst hnext
          simp [depositsOf, withdrawalsOf]
        · cases hnext
      · cases hnext
  | streamEnded | depositsFlushed | withdrawalsFlushed =>
      simp only [next] at hnext
      split at hnext
      · simp only [Option.some.injEq] at hnext
        subst hnext
        simp [depositsOf, withdrawalsOf]
      · cases hnext

theorem items_run {actions : List (RunAction Deposit Withdrawal)}
    (hrun : (runSystem cfg).run state actions = some after) :
    after.deposits.items = state.deposits.items ++ depositsOf actions ∧
      after.withdrawals.items =
        state.withdrawals.items ++ withdrawalsOf actions := by
  induction actions generalizing state with
  | nil =>
      simp only [TransitionSystem.run, Option.some.injEq] at hrun
      subst hrun
      simp [depositsOf, withdrawalsOf]
  | cons action rest ih =>
      cases hnext : state.next cfg action with
      | none => simp [TransitionSystem.run, runSystem, hnext] at hrun
      | some middle =>
          have hrest : (runSystem cfg).run middle rest = some after := by
            simpa [TransitionSystem.run, runSystem, hnext] using hrun
          have hstep := items_next hnext
          have hind := ih hrest
          have hdeposits : depositsOf (action :: rest) =
              depositsOf [action] ++ depositsOf rest := by
            rw [depositsOf, ← List.singleton_append, List.filterMap_append]
            rfl
          have hwithdrawals : withdrawalsOf (action :: rest) =
              withdrawalsOf [action] ++ withdrawalsOf rest := by
            rw [withdrawalsOf, ← List.singleton_append, List.filterMap_append]
            rfl
          rw [hind.1, hind.2, hstep.1, hstep.2, hdeposits, hwithdrawals]
          simp only [List.append_assoc, and_self]

/-- When a deadline has passed, the timer can fire and takes each buffer by its
own deadline. -/
theorem timer_elapses {now : ℕ} (hlooping : state.phase = .looping)
    (hdue : state.deposits.due now ∨ state.withdrawals.due now) :
    state.next cfg (.timer now) = some { state with
      deposits := state.deposits.elapse now
      withdrawals := state.withdrawals.elapse now } := by
  have hsleep : ∃ deadline, state.sleepDeadline = some deadline ∧
      deadline ≤ now := by
    unfold sleepDeadline
    unfold FlushBuffer.due at hdue
    cases hdeposits : state.deposits.flushAt with
    | none =>
        cases hwithdrawals : state.withdrawals.flushAt with
        | none => simp [hdeposits, hwithdrawals] at hdue
        | some withdrawals =>
            simp only [hdeposits, hwithdrawals, Option.any_none,
              Bool.false_eq_true, false_or, Option.any_some,
              decide_eq_true_eq] at hdue
            exact ⟨withdrawals, rfl, hdue⟩
    | some deposits =>
        cases hwithdrawals : state.withdrawals.flushAt with
        | none =>
            simp only [hdeposits, hwithdrawals, Option.any_none,
              Bool.false_eq_true, or_false, Option.any_some,
              decide_eq_true_eq] at hdue
            exact ⟨deposits, rfl, hdue⟩
        | some withdrawals =>
            simp only [hdeposits, hwithdrawals, Option.any_some,
              decide_eq_true_eq] at hdue
            exact ⟨_, rfl, min_le_iff.mpr hdue⟩
  rcases hsleep with ⟨deadline, hdeadline, hle⟩
  simp only [next, hlooping, hdeadline, hle, if_true]

end RunState

/-- In every run the batches handed over and the buffer are the deposits which
the events have buffered, each once and in order; a buffer is armed just when
it is not empty, and an elapsed deadline hands over its own buffer and leaves
the other; the loop ends with both buffers flushed.  Likewise for
withdrawals. -/
theorem runLoopBuffering (cfg : BufferPeriods)
    {actions : List (RunAction Deposit Withdrawal)}
    {state : RunState Deposit Withdrawal}
    (hrun : (runSystem cfg).run RunState.initial actions = some state) :
    (state.deposits.flushes.flatten ++ state.deposits.buffer =
        depositsOf actions ∧
      state.withdrawals.flushes.flatten ++ state.withdrawals.buffer =
        withdrawalsOf actions) ∧
    (state.phase = .looping →
      (state.deposits.flushAt.isSome ↔ state.deposits.buffer ≠ []) ∧
      (state.withdrawals.flushAt.isSome ↔ state.withdrawals.buffer ≠ [])) ∧
    (∀ now, state.phase = .looping →
      (state.deposits.due now ∨ state.withdrawals.due now) →
      ∃ after, state.next cfg (.timer now) = some after ∧
        after.deposits = (if state.deposits.due now
          then ⟨[], none, state.deposits.flushes ++ [state.deposits.buffer]⟩
          else state.deposits) ∧
        after.withdrawals = (if state.withdrawals.due now
          then ⟨[], none,
            state.withdrawals.flushes ++ [state.withdrawals.buffer]⟩
          else state.withdrawals)) ∧
    (state.phase = .looping → ∃ after, (runSystem cfg).run state
      [.streamEnded, .depositsFlushed, .withdrawalsFlushed] = some after ∧
        after.phase = .returned) ∧
    (state.phase = .returned →
      state.deposits.flushes.flatten = depositsOf actions ∧
      state.withdrawals.flushes.flatten = withdrawalsOf actions) := by
  have hinv := RunState.invariant_of_run hrun
  have hitems := RunState.items_run hrun
  have hdeposits : state.deposits.flushes.flatten ++ state.deposits.buffer =
      depositsOf actions := by
    simpa [RunState.initial, FlushBuffer.items, FlushBuffer.empty]
      using hitems.1
  have hwithdrawals : state.withdrawals.flushes.flatten ++
      state.withdrawals.buffer = withdrawalsOf actions := by
    simpa [RunState.initial, FlushBuffer.items, FlushBuffer.empty]
      using hitems.2
  refine ⟨⟨hdeposits, hwithdrawals⟩, ?_, ?_, ?_, ?_⟩
  · intro hlooping
    exact ⟨hinv.depositsArmed hlooping, hinv.withdrawalsArmed hlooping⟩
  · intro now hlooping hdue
    refine ⟨_, RunState.timer_elapses hlooping hdue, ?_, ?_⟩
    · exact FlushBuffer.elapse_eq (hinv.depositsArmed hlooping) now
    · exact FlushBuffer.elapse_eq (hinv.withdrawalsArmed hlooping) now
  · intro hlooping
    refine ⟨⟨state.deposits.flush, state.withdrawals.flush, .returned⟩,
      ?_, rfl⟩
    simp [TransitionSystem.run, runSystem, RunState.next, hlooping]
  · intro hreturned
    have hempty := hinv.depositsFlushed (by simp [hreturned])
    have hnone := hinv.withdrawalsFlushed (by simp [hreturned])
      (by simp [hreturned])
    rw [hempty, List.append_nil] at hdeposits
    rw [hnone, List.append_nil] at hwithdrawals
    exact ⟨hdeposits, hwithdrawals⟩

/-- Two deposits and a withdrawal, the deposits flushed by their deadline and
the withdrawal by the end of the stream. -/
theorem runLoopBuffering_periods :
    ∃ state : RunState ℕ ℕ, state.phase = .returned ∧
      state.deposits.flushes = [[7, 8], []] ∧
      state.withdrawals.flushes.flatten = [9] := by
  let actions : List (RunAction ℕ ℕ) :=
    [.event (.deposit 7) 0, .event (.deposit 8) 3, .event (.withdrawal 9) 5,
      .timer 11, .streamEnded, .depositsFlushed, .withdrawalsFlushed]
  have hrun : ∃ state, (runSystem ⟨5, 100⟩).run RunState.initial actions =
      some state ∧ state.phase = .returned ∧
        state.deposits.flushes = [[7, 8], []] := ⟨_, rfl, rfl, rfl⟩
  rcases hrun with ⟨state, hrun, hreturned, hdeposits⟩
  rcases runLoopBuffering ⟨5, 100⟩ hrun with ⟨_, _, _, _, hflushed⟩
  exact ⟨state, hreturned, hdeposits, (hflushed hreturned).2⟩

end HoprStrategy.Pix
