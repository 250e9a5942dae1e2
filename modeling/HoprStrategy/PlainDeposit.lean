import HoprStrategy.Errors
import HoprStrategy.HoprBalance
import HoprStrategy.Library.TransitionSystem

/-!
# A deposit of the plain pool

One call of `deposit_funds_to` and the chain around it.  A transfer which was
submitted lands or is dropped at any later time, its confirmation may be lost,
and others move the same balances.  Every attempt decides by one balance read
whether an earlier transfer has arrived.
-/

namespace HoprStrategy.Plain

open Library

structure NonAnonymousDepositPoolConfig where
  minSafeHoprReserve : HoprBalance
  maxDepositRetries : ℕ

inductive PlainDepositError where
  | unaffordable (afterAttempt : Bool)

/-- The errors behind `StrategyError::Other`: the pool's own and the chain's. -/
inductive PlainCause (Cause : Type) where
  | pool (error : PlainDepositError)
  | chain (error : Cause)

abbrev PlainError (Cause : Type) := StrategyError (PlainCause Cause)

structure ByteDepositData (Id Payload : Type) where
  id : Id
  payload : Payload

inductive TransferStatus where
  | pending
  | landed
  /-- It will not land any more. -/
  | dropped
  deriving DecidableEq

inductive AttemptPhase (Cause : Type) where
  | readingDest
  | readingSafe
  | submitting
  /-- The last transfer waits for its confirmation. -/
  | confirming
  | backingOff
  | returned (result : Except (PlainError Cause) Unit)

/-- The call and the chain.  `transfers` are those which the call has
submitted. -/
structure DepositCall (Cause : Type) where
  amount : HoprBalance
  retriesLeft : ℕ
  afterAttempt : Bool
  phase : AttemptPhase Cause
  destBalance : HoprBalance
  safeBalance : HoprBalance
  transfers : List TransferStatus

/-- `failure` is the chain's error, where the call fails. -/
inductive CallAction (Cause : Type) where
  | readDest (failure : Option Cause)
  | readSafe (failure : Option Cause)
  | submit (failure : Option Cause)
  | confirmed
  /-- The confirmation fails or is lost, whatever becomes of the transfer. -/
  | unconfirmed (failure : Cause)
  | retry
  | land (transfer : ℕ)
  | drop (transfer : ℕ)
  /-- Someone else moves funds: a sweep, a third party, another deposit. -/
  | elsewhere (destBalance safeBalance : HoprBalance)

variable {Id Payload Cause : Type} [DecidableEq Id] [DecidableEq Payload]

def checkDepositPayload (marker : Payload) (id : Id)
    (data : ByteDepositData Id Payload) : Except (PlainError Cause) Unit :=
  if data.id ≠ id then .error (.generalError .invalidInput)
  else if data.payload ≠ marker then .error (.generalError .invalidInput)
  else .ok ()

namespace DepositCall

/-- The call of `deposit_funds_to`: the payload is checked before the first
attempt. -/
def depositFundsTo (cfg : NonAnonymousDepositPoolConfig) (marker : Payload)
    (id : Id) (amount : HoprBalance) (data : ByteDepositData Id Payload)
    (destBalance safeBalance : HoprBalance) : DepositCall Cause where
  amount := amount
  retriesLeft := cfg.maxDepositRetries
  afterAttempt := false
  phase :=
    match checkDepositPayload marker id data with
    | .error error => .returned (.error error)
    | .ok () => .readingDest
  destBalance := destBalance
  safeBalance := safeBalance
  transfers := []

/-- The attempt has failed: the call backs off, or returns its last error. -/
def fail (call : DepositCall Cause) (error : PlainError Cause) :
    DepositCall Cause :=
  match call.retriesLeft with
  | 0 => { call with phase := .returned (.error error) }
  | left + 1 =>
      { call with
        retriesLeft := left
        phase := .backingOff }

/-- The destination is read before every transfer. -/
def readDest (call : DepositCall Cause) : Option Cause → DepositCall Cause
  | some failure => call.fail (.other (.chain failure))
  | none =>
      if call.amount ≤ call.destBalance then
        { call with phase := .returned (.ok ()) }
      else { call with phase := .readingSafe }

def readSafe (cfg : NonAnonymousDepositPoolConfig)
    (call : DepositCall Cause) : Option Cause → DepositCall Cause
  | some failure => call.fail (.other (.chain failure))
  | none =>
      if call.safeBalance < call.amount + cfg.minSafeHoprReserve then
        call.fail (.other (.pool (.unaffordable call.afterAttempt)))
      else
        { call with
          afterAttempt := true
          phase := .submitting }

def submit (call : DepositCall Cause) : Option Cause → DepositCall Cause
  | some failure => call.fail (.other (.chain failure))
  | none =>
      { call with
        phase := .confirming
        transfers := call.transfers ++ [.pending] }

def next (cfg : NonAnonymousDepositPoolConfig) (call : DepositCall Cause) :
    CallAction Cause → Option (DepositCall Cause)
  | .readDest failure =>
      match call.phase with
      | .readingDest => some (call.readDest failure)
      | _ => none
  | .readSafe failure =>
      match call.phase with
      | .readingSafe => some (call.readSafe cfg failure)
      | _ => none
  | .submit failure =>
      match call.phase with
      | .submitting => some (call.submit failure)
      | _ => none
  | .confirmed =>
      match call.phase, call.transfers.getLast? with
      | .confirming, some .landed =>
          some { call with phase := .returned (.ok ()) }
      | _, _ => none
  | .unconfirmed failure =>
      match call.phase with
      | .confirming => some (call.fail (.other (.chain failure)))
      | _ => none
  | .retry =>
      match call.phase with
      | .backingOff => some { call with phase := .readingDest }
      | _ => none
  | .land transfer =>
      match call.transfers[transfer]? with
      | some .pending =>
          some { call with
            destBalance := call.destBalance + call.amount
            safeBalance := call.safeBalance - call.amount
            transfers := call.transfers.set transfer .landed }
      | _ => none
  | .drop transfer =>
      match call.transfers[transfer]? with
      | some .pending =>
          some { call with
            transfers := call.transfers.set transfer .dropped }
      | _ => none
  | .elsewhere destBalance safeBalance =>
      some { call with
        destBalance := destBalance
        safeBalance := safeBalance }

end DepositCall

/-- One call, from any balances. -/
def callSystem (cfg : NonAnonymousDepositPoolConfig) (marker : Payload)
    (id : Id) (amount : HoprBalance) (data : ByteDepositData Id Payload) :
    TransitionSystem (DepositCall Cause) (CallAction Cause) where
  init call := ∃ destBalance safeBalance, call =
    .depositFundsTo cfg marker id amount data destBalance safeBalance
  next := DepositCall.next cfg

/-! ## One transfer at most -/

namespace DepositCall

variable {cfg : NonAnonymousDepositPoolConfig} {call after : DepositCall Cause}

/-- What one step of a call does. -/
inductive Moves (cfg : NonAnonymousDepositPoolConfig)
    (call : DepositCall Cause) : CallAction Cause → DepositCall Cause → Prop
  | readDest (failure : Option Cause) :
      Moves cfg call (.readDest failure) (call.readDest failure)
  | readSafe (failure : Option Cause) (hphase : call.phase = .readingSafe) :
      Moves cfg call (.readSafe failure) (call.readSafe cfg failure)
  | submit (failure : Option Cause) (hphase : call.phase = .submitting) :
      Moves cfg call (.submit failure) (call.submit failure)
  | confirmed :
      Moves cfg call .confirmed { call with phase := .returned (.ok ()) }
  | unconfirmed (failure : Cause) :
      Moves cfg call (.unconfirmed failure)
        (call.fail (.other (.chain failure)))
  | retry : Moves cfg call .retry { call with phase := .readingDest }
  | land (transfer : ℕ)
      (hpending : call.transfers[transfer]? = some .pending) :
      Moves cfg call (.land transfer) { call with
        destBalance := call.destBalance + call.amount
        safeBalance := call.safeBalance - call.amount
        transfers := call.transfers.set transfer .landed }
  | drop (transfer : ℕ)
      (hpending : call.transfers[transfer]? = some .pending) :
      Moves cfg call (.drop transfer) { call with
        transfers := call.transfers.set transfer .dropped }
  | elsewhere (destBalance safeBalance : HoprBalance) :
      Moves cfg call (.elsewhere destBalance safeBalance) { call with
        destBalance := destBalance
        safeBalance := safeBalance }

theorem moves_of_next {action : CallAction Cause}
    (hnext : call.next cfg action = some after) :
    Moves cfg call action after := by
  cases action with
  | readDest failure =>
      simp only [DepositCall.next] at hnext
      split at hnext
      · cases hnext
        exact .readDest failure
      · cases hnext
  | readSafe failure =>
      simp only [DepositCall.next] at hnext
      split at hnext
      · next hphase =>
          cases hnext
          exact .readSafe failure hphase
      · cases hnext
  | submit failure =>
      simp only [DepositCall.next] at hnext
      split at hnext
      · next hphase =>
          cases hnext
          exact .submit failure hphase
      · cases hnext
  | confirmed =>
      simp only [DepositCall.next] at hnext
      split at hnext
      · cases hnext
        exact .confirmed
      · cases hnext
  | unconfirmed failure =>
      simp only [DepositCall.next] at hnext
      split at hnext
      · cases hnext
        exact .unconfirmed failure
      · cases hnext
  | retry =>
      simp only [DepositCall.next] at hnext
      split at hnext
      · cases hnext
        exact .retry
      · cases hnext
  | land transfer =>
      simp only [DepositCall.next] at hnext
      split at hnext
      · next hpending =>
          cases hnext
          exact .land transfer hpending
      · cases hnext
  | drop transfer =>
      simp only [DepositCall.next] at hnext
      split at hnext
      · next hpending =>
          cases hnext
          exact .drop transfer hpending
      · cases hnext
  | elsewhere destBalance safeBalance =>
      cases hnext
      exact .elsewhere destBalance safeBalance

/-- The transfers which have landed or can still land. -/
def live (transfers : List TransferStatus) : ℕ :=
  transfers.countP (· ≠ .dropped)

/-- The condition on a step: where the destination is read, no earlier
transfer has landed or can still land, or the balance covers the amount. -/
def Visible (call : DepositCall Cause) : CallAction Cause → Prop
  | .readDest none => live call.transfers = 0 ∨ call.amount ≤ call.destBalance
  | _ => True

/-- Between the read and the transfer nothing of the call is under way. -/
structure Invariant (call : DepositCall Cause) : Prop where
  once : live call.transfers ≤ 1
  readingSafe : call.phase = .readingSafe → live call.transfers = 0
  submitting : call.phase = .submitting → live call.transfers = 0

theorem live_set {transfers : List TransferStatus} {index : ℕ}
    (hpending : transfers[index]? = some .pending) (status : TransferStatus) :
    live (transfers.set index status) ≤ live transfers := by
  induction transfers generalizing index with
  | nil => simp at hpending
  | cons head rest ih =>
      cases index with
      | zero =>
          simp only [List.getElem?_cons_zero, Option.some.injEq] at hpending
          subst hpending
          cases status <;> simp [live]
      | succ index =>
          have hrest := ih (by simpa using hpending)
          simp only [live, List.set_cons_succ, List.countP_cons] at hrest ⊢
          omega

theorem live_append (transfers : List TransferStatus) :
    live (transfers ++ [.pending]) = live transfers + 1 := by
  simp [live]

theorem Invariant.fail (hinv : call.Invariant) (error : PlainError Cause) :
    (call.fail error).Invariant := by
  unfold DepositCall.fail
  split
  · exact ⟨hinv.once, by rintro ⟨⟩, by rintro ⟨⟩⟩
  · exact ⟨hinv.once, by rintro ⟨⟩, by rintro ⟨⟩⟩

theorem Invariant.readDest (hinv : call.Invariant) (failure : Option Cause)
    (hvisible : call.Visible (.readDest failure)) :
    (call.readDest failure).Invariant := by
  cases failure with
  | some failure => exact hinv.fail _
  | none =>
      by_cases hfunded : call.amount ≤ call.destBalance
      · simp only [DepositCall.readDest, hfunded, if_true]
        exact ⟨hinv.once, by rintro ⟨⟩, by rintro ⟨⟩⟩
      · simp only [DepositCall.readDest, hfunded, if_false]
        have hnone := hvisible.resolve_right hfunded
        exact ⟨hinv.once, fun _ => hnone, by rintro ⟨⟩⟩

theorem Invariant.readSafe (hinv : call.Invariant)
    (hphase : call.phase = .readingSafe) (failure : Option Cause) :
    (call.readSafe cfg failure).Invariant := by
  cases failure with
  | some failure => exact hinv.fail _
  | none =>
      simp only [DepositCall.readSafe]
      split
      · exact hinv.fail _
      · exact ⟨hinv.once, by rintro ⟨⟩, fun _ => hinv.readingSafe hphase⟩

theorem Invariant.submit (hinv : call.Invariant)
    (hphase : call.phase = .submitting) (failure : Option Cause) :
    (call.submit failure).Invariant := by
  cases failure with
  | some failure => exact hinv.fail _
  | none =>
      refine ⟨?_, by rintro ⟨⟩, by rintro ⟨⟩⟩
      have hnone := hinv.submitting hphase
      simp only [DepositCall.submit, live_append]
      omega

/-- A transfer which lands or is dropped leaves no more to land. -/
theorem Invariant.settled (hinv : call.Invariant) {transfer : ℕ}
    (hpending : call.transfers[transfer]? = some .pending)
    (status : TransferStatus) (destBalance safeBalance : HoprBalance) :
    Invariant { call with
      destBalance := destBalance
      safeBalance := safeBalance
      transfers := call.transfers.set transfer status } := by
  have hle := live_set hpending status
  constructor
  · exact hle.trans hinv.once
  · intro hphase
    have hnone := hinv.readingSafe hphase
    simp only
    omega
  · intro hphase
    have hnone := hinv.submitting hphase
    simp only
    omega

theorem Invariant.next {action : CallAction Cause} (hinv : call.Invariant)
    (hvisible : call.Visible action)
    (hnext : call.next cfg action = some after) : after.Invariant := by
  cases moves_of_next hnext with
  | readDest failure => exact hinv.readDest failure hvisible
  | readSafe failure hphase => exact hinv.readSafe hphase failure
  | submit failure hphase => exact hinv.submit hphase failure
  | confirmed => exact ⟨hinv.once, by rintro ⟨⟩, by rintro ⟨⟩⟩
  | unconfirmed failure => exact hinv.fail _
  | retry => exact ⟨hinv.once, by rintro ⟨⟩, by rintro ⟨⟩⟩
  | land transfer hpending => exact hinv.settled hpending _ _ _
  | drop transfer hpending => exact hinv.settled hpending _ _ _
  | elsewhere destBalance safeBalance =>
      exact ⟨hinv.once, hinv.readingSafe, hinv.submitting⟩

theorem Invariant.start (marker : Payload) (id : Id) (amount : HoprBalance)
    (data : ByteDepositData Id Payload)
    (destBalance safeBalance : HoprBalance) :
    Invariant (depositFundsTo cfg marker id amount data destBalance
      safeBalance : DepositCall Cause) :=
  ⟨Nat.zero_le _, fun _ => rfl, fun _ => rfl⟩

end DepositCall

/-- In a run whose destination reads all see what an earlier transfer has done
or can still do, at most one transfer of the call lands. -/
theorem depositedOnce (cfg : NonAnonymousDepositPoolConfig) (marker : Payload)
    (id : Id) (amount : HoprBalance) (data : ByteDepositData Id Payload)
    {call : DepositCall Cause}
    (hreach : (callSystem cfg marker id amount data).ReachableWithin
      DepositCall.Visible call) :
    call.transfers.count .landed ≤ 1 := by
  have hinv : call.Invariant := by
    apply hreach.invariant
    · rintro start ⟨destBalance, safeBalance, rfl⟩
      exact .start marker id amount data destBalance safeBalance
    · intro before action after hbefore hvisible hnext
      exact hbefore.next hvisible hnext
  have hlanded : call.transfers.count .landed ≤
      DepositCall.live call.transfers := by
    apply List.countP_mono_left
    intro status _ hstatus
    rw [beq_iff_eq] at hstatus
    simp [hstatus]
  exact hlanded.trans hinv.once

/-- A pool without a reserve. -/
def bareConfig (maxDepositRetries : ℕ) : NonAnonymousDepositPoolConfig :=
  ⟨HoprBalance.zero, maxDepositRetries⟩

def ten : HoprBalance := HoprBalance.saturating 10

/-- An attempt up to its transfer. -/
def attempt : List (CallAction Unit) :=
  [.readDest none, .readSafe none, .submit none]

/-- The transfer whose confirmation was lost has landed when the retry reads
the balance. -/
theorem depositedOnce_retried :
    ∃ call : DepositCall Unit, call.phase = .returned (.ok ()) ∧
      call.transfers = [.landed] ∧ call.transfers.count .landed ≤ 1 := by
  have hinit : (callSystem (bareConfig 1) () 0 ten ⟨0, ()⟩).ReachableWithin
      DepositCall.Visible (DepositCall.depositFundsTo (bareConfig 1) () 0 ten
        ⟨0, ()⟩ HoprBalance.zero ten : DepositCall Unit) :=
    .init ⟨_, _, rfl⟩
  have hvisible : ∀ call : DepositCall Unit,
      DepositCall.live call.transfers = 0 ∨ call.amount ≤ call.destBalance →
        call.Visible (.readDest none) := fun _ h => h
  have hread := TransitionSystem.ReachableWithin.step hinit
    (hvisible _ (Or.inl rfl)) rfl
  have hretry := hread.run
    [.readSafe none, .submit none, .land 0, .unconfirmed (), .retry]
    (fun _ action haction => by
      simp only [List.mem_cons, List.not_mem_nil, or_false] at haction
      rcases haction with rfl | rfl | rfl | rfl | rfl <;> trivial) rfl
  have hdone := TransitionSystem.ReachableWithin.step hretry
    (hvisible _ (Or.inr (by decide))) rfl
  exact ⟨_, rfl, rfl, depositedOnce _ _ _ _ _ hdone⟩

/-- The confirmation is lost, the retry reads the balance before the transfer
lands, and both transfers land. -/
theorem depositedOnce_not_always :
    ¬ ∀ (cfg : NonAnonymousDepositPoolConfig) (amount : HoprBalance)
      (call : DepositCall Unit),
      (callSystem cfg () 0 amount ⟨0, ()⟩).Reachable call →
        call.transfers.count .landed ≤ 1 := by
  intro hclaim
  have hinit : (callSystem (bareConfig 1) () 0 ten ⟨0, ()⟩).Reachable
      (DepositCall.depositFundsTo (bareConfig 1) () 0 ten ⟨0, ()⟩
        HoprBalance.zero (HoprBalance.saturating 20) : DepositCall Unit) :=
    .init ⟨_, _, rfl⟩
  have htwice := hinit.run (attempt ++ [.unconfirmed (), .retry] ++ attempt ++
    [.land 0, .land 1]) rfl
  exact absurd (hclaim _ _ _ htwice) (by decide)

/-! ## A refund after the call -/

/-- `error_moved_no_funds` of the pools.  The chain's errors are neither
pool's own. -/
def errorMovedNoFunds : PlainCause Cause → Bool
  | .pool (.unaffordable false) => true
  | .pool (.unaffordable true) => false
  | .chain _ => false

namespace DepositCall

variable {cfg : NonAnonymousDepositPoolConfig} {call after : DepositCall Cause}

/-- The flag is set before a transfer is sent, and a fund-free error is
returned only without it. -/
structure Flagged (call : DepositCall Cause) : Prop where
  sending : call.phase = .submitting → call.afterAttempt = true
  sent : call.afterAttempt = false → call.transfers = []
  fundFree : ∀ error, call.phase = .returned (.error error) →
    error.movedNoFunds errorMovedNoFunds = true → call.afterAttempt = false

/-- The attempt neither sends nor returns an error. -/
def Quiet : AttemptPhase Cause → Prop
  | .submitting => False
  | .returned (.error _) => False
  | _ => True

theorem Flagged.of_quiet
    (hsent : call.afterAttempt = false → call.transfers = [])
    (hquiet : Quiet call.phase) : call.Flagged where
  sending := by
    intro hphase
    rw [hphase] at hquiet
    exact hquiet.elim
  sent := hsent
  fundFree := by
    intro error hphase
    rw [hphase] at hquiet
    exact hquiet.elim

/-- A failure which is fund-free only without the flag. -/
theorem Flagged.fail (hflagged : call.Flagged) {error : PlainError Cause}
    (herror : error.movedNoFunds errorMovedNoFunds = true →
      call.afterAttempt = false) : (call.fail error).Flagged := by
  unfold DepositCall.fail
  split
  · refine ⟨?_, hflagged.sent, ?_⟩
    · intro hphase
      cases hphase
    · intro returned hphase hfree
      cases hphase
      exact herror hfree
  · exact .of_quiet hflagged.sent trivial

theorem Flagged.fail_chain (hflagged : call.Flagged) (failure : Cause) :
    (call.fail (.other (.chain failure))).Flagged := by
  apply hflagged.fail
  intro hfree
  cases hfree

theorem Flagged.readDest (hflagged : call.Flagged) (failure : Option Cause) :
    (call.readDest failure).Flagged := by
  cases failure with
  | some failure => exact hflagged.fail_chain failure
  | none =>
      simp only [DepositCall.readDest]
      split
      · exact .of_quiet hflagged.sent trivial
      · exact .of_quiet hflagged.sent trivial

theorem Flagged.readSafe (hflagged : call.Flagged) (failure : Option Cause) :
    (call.readSafe cfg failure).Flagged := by
  cases failure with
  | some failure => exact hflagged.fail_chain failure
  | none =>
      simp only [DepositCall.readSafe]
      split
      · apply hflagged.fail
        intro hfree
        cases hflag : call.afterAttempt with
        | false => rfl
        | true =>
            rw [hflag] at hfree
            cases hfree
      · refine ⟨fun _ => rfl, ?_, ?_⟩
        · intro hflag
          cases hflag
        · intro error hphase
          cases hphase

theorem Flagged.submit (hflagged : call.Flagged)
    (hphase : call.phase = .submitting) (failure : Option Cause) :
    (call.submit failure).Flagged := by
  cases failure with
  | some failure => exact hflagged.fail_chain failure
  | none =>
      have hsent : call.afterAttempt = false →
          call.transfers ++ [.pending] = [] := by
        intro hflag
        exact absurd (hflagged.sending hphase) (Bool.eq_false_iff.mp hflag)
      exact .of_quiet hsent trivial

/-- A transfer which lands or is dropped was sent before. -/
theorem Flagged.settled (hflagged : call.Flagged) (transfer : ℕ)
    (status : TransferStatus) (destBalance safeBalance : HoprBalance) :
    Flagged { call with
      destBalance := destBalance
      safeBalance := safeBalance
      transfers := call.transfers.set transfer status } where
  sending := hflagged.sending
  sent := by
    intro hflag
    simp only [hflagged.sent hflag, List.set_nil]
  fundFree := hflagged.fundFree

theorem Flagged.next {action : CallAction Cause} (hflagged : call.Flagged)
    (hnext : call.next cfg action = some after) : after.Flagged := by
  cases moves_of_next hnext with
  | readDest failure => exact hflagged.readDest failure
  | readSafe failure hphase => exact hflagged.readSafe failure
  | submit failure hphase => exact hflagged.submit hphase failure
  | confirmed => exact .of_quiet hflagged.sent trivial
  | unconfirmed failure => exact hflagged.fail_chain failure
  | retry => exact .of_quiet hflagged.sent trivial
  | land transfer hpending => exact hflagged.settled transfer _ _ _
  | drop transfer hpending => exact hflagged.settled transfer _ _ _
  | elsewhere destBalance safeBalance =>
      exact ⟨hflagged.sending, hflagged.sent, hflagged.fundFree⟩

theorem fail_afterAttempt (error : PlainError Cause) :
    (call.fail error).afterAttempt = call.afterAttempt := by
  unfold DepositCall.fail
  split
  · rfl
  · rfl

/-- No step takes the flag back. -/
theorem next_afterAttempt {action : CallAction Cause}
    (hflag : call.afterAttempt = true)
    (hnext : call.next cfg action = some after) :
    after.afterAttempt = true := by
  cases moves_of_next hnext with
  | readDest failure =>
      cases failure with
      | some failure => exact (fail_afterAttempt _).trans hflag
      | none =>
          simp only [DepositCall.readDest]
          split
          · exact hflag
          · exact hflag
  | readSafe failure hphase =>
      cases failure with
      | some failure => exact (fail_afterAttempt _).trans hflag
      | none =>
          simp only [DepositCall.readSafe]
          split
          · exact (fail_afterAttempt _).trans hflag
          · rfl
  | submit failure hphase =>
      cases failure with
      | some failure => exact (fail_afterAttempt _).trans hflag
      | none => exact hflag
  | unconfirmed failure => exact (fail_afterAttempt _).trans hflag
  | _ => exact hflag

theorem Flagged.start (marker : Payload) (id : Id) (amount : HoprBalance)
    (data : ByteDepositData Id Payload)
    (destBalance safeBalance : HoprBalance) :
    Flagged (depositFundsTo cfg marker id amount data destBalance
      safeBalance : DepositCall Cause) where
  sending := by
    unfold depositFundsTo
    cases (checkDepositPayload marker id data :
        Except (PlainError Cause) Unit) with
    | ok =>
        intro hphase
        cases hphase
    | error error =>
        intro hphase
        cases hphase
  sent := fun _ => rfl
  fundFree := fun _ _ _ => rfl

end DepositCall

variable {cfg : NonAnonymousDepositPoolConfig} {marker : Payload} {id : Id}
  {amount : HoprBalance} {data : ByteDepositData Id Payload}
  {call after : DepositCall Cause}

/-- After an attempt at a transfer the flag is set. -/
theorem afterAttempt_of_submitted {actions : List (CallAction Cause)}
    (hflagged : call.Flagged)
    (hrun : (callSystem cfg marker id amount data).run call actions =
      some after)
    {failure : Option Cause} (hsubmitted : .submit failure ∈ actions) :
    after.afterAttempt = true := by
  induction actions generalizing call with
  | nil => cases hsubmitted
  | cons action rest ih =>
      obtain ⟨middle, hnext, hrest⟩ := TransitionSystem.run_cons.mp hrun
      rcases List.mem_cons.mp hsubmitted with hfirst | hlater
      · have hflag : call.afterAttempt = true := by
          rw [← hfirst] at hnext
          have hmoves : DepositCall.Moves cfg call (.submit failure) middle :=
            DepositCall.moves_of_next hnext
          cases hmoves with
          | submit failure hphase => exact hflagged.sending hphase
        have hkept : ∀ (before : DepositCall Cause) action next,
            before.afterAttempt = true →
            (callSystem cfg marker id amount data).next before action =
              some next → next.afterAttempt = true := by
          intro before action next hbefore hstep
          exact DepositCall.next_afterAttempt hbefore hstep
        exact TransitionSystem.run_invariant hkept rest
          (DepositCall.next_afterAttempt hflag hnext) hrest
      · exact ih (hflagged.next hnext) hrest hlater

/-- When the returned error is fund-free, no attempt of the call has handed a
transfer to the chain, nor tried to. -/
theorem refundSound {start : DepositCall Cause}
    {actions : List (CallAction Cause)}
    (hinit : (callSystem cfg marker id amount data).init start)
    (hrun : (callSystem cfg marker id amount data).run start actions =
      some call)
    {error : PlainError Cause}
    (hreturned : call.phase = .returned (.error error))
    (hfree : error.movedNoFunds errorMovedNoFunds = true) :
    call.transfers = [] ∧ ∀ failure, .submit failure ∉ actions := by
  have hstart : start.Flagged := by
    obtain ⟨destBalance, safeBalance, rfl⟩ := hinit
    exact .start marker id amount data destBalance safeBalance
  have hflagged : call.Flagged :=
    TransitionSystem.run_invariant
      (fun _ _ _ hbefore hnext => hbefore.next hnext) actions hstart hrun
  have hflag := hflagged.fundFree error hreturned hfree
  constructor
  · exact hflagged.sent hflag
  · intro failure hsubmitted
    have hset := afterAttempt_of_submitted hstart hrun hsubmitted
    rw [hflag] at hset
    cases hset

/-- The balance read fails once, and the retry finds the Safe short. -/
theorem refundSound_shortSafe :
    (StrategyError.other (.pool (.unaffordable false)) :
        PlainError Unit).movedNoFunds errorMovedNoFunds = true ∧
      ∃ call : DepositCall Unit, call.phase = .returned (.error
          (.other (.pool (.unaffordable false)))) ∧
        call.transfers = [] ∧ ∀ failure, .submit failure ∉
          [.readDest (some ()), .retry, .readDest none,
            (.readSafe none : CallAction Unit)] := by
  have hinit : (callSystem (bareConfig 1) () 0 ten ⟨0, ()⟩).init
      (DepositCall.depositFundsTo (bareConfig 1) () 0 ten ⟨0, ()⟩
        HoprBalance.zero (HoprBalance.saturating 9) : DepositCall Unit) :=
    ⟨_, _, rfl⟩
  exact ⟨rfl, _, rfl, refundSound hinit rfl rfl rfl⟩

end HoprStrategy.Plain
