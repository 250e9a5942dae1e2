import HoprStrategy.Errors
import HoprStrategy.HoprBalance
import HoprStrategy.Library.TaskList
import HoprStrategy.Library.TransitionSystem

/-!
# Tracking deposits in the plain pool

The strategy asks the pool to tell it when a deposit has arrived, and passes
the answer on to the Exit.  The pool reads the balance at once, waits for a
random part of its polling interval, and then reads it once in every interval
until the deadline.  Trackers run side by side and share a counter of slots;
the chain moves meanwhile, and reads may fail.
-/

namespace HoprStrategy.Plain

open Library

/-! ## Trackers -/

def maxConcurrentDepositTrackers : ℕ := 256

/-- The settings which tracking reads, the pool's and the strategy's.  Times
are in nanoseconds. -/
structure TrackingConfig where
  maxDepositTrackingTime : ℕ
  pricePerByte : HoprBalance

def TrackingConfig.pollInterval (cfg : TrackingConfig) : ℕ :=
  max (cfg.maxDepositTrackingTime / 10) (10 ^ 9)

namespace DepositTrackerSlot

def tryAcquire (counter : ℕ) : Option ℕ :=
  if counter < maxConcurrentDepositTrackers then some (counter + 1) else none

/-- The atomic subtraction wraps. -/
def drop (counter : ℕ) : ℕ := (counter + (2 ^ 64 - 1)) % 2 ^ 64

end DepositTrackerSlot

section

variable (Wire Address Id : Type)

structure PixDepositAddressReceived where
  id : Id
  quota : UInt64
  address : Wire

/-- The deposit did not reach the target in time. -/
structure TrackingExpired where
  address : Address
  target : HoprBalance
  maxTracking : ℕ

/-- A read of the balance which is under way.  `first` is the position of what
the address held when it began. -/
structure BalanceRead where
  began : ℕ
  first : ℕ

abbrev TrackingResult :=
  Except (StrategyError (TrackingExpired Address)) (Id × Address × HoprBalance)

inductive TrackerPhase where
  /-- The future was handed out and not polled yet. -/
  | created
  | reading (jitterMillis : ℕ) (read : BalanceRead)
  | jittering (timer : ℕ)
  | waiting (since timer deadline : ℕ)
  | polling (timer deadline : ℕ) (read : BalanceRead)
  | returned (result : TrackingResult Address Id)
  | cancelled

/-- `seen` is what the address has held while the tracker was live, the present
balance last, and `answers` what the reads gave. -/
structure DepositTracker where
  id : Id
  dst : Address
  target : HoprBalance
  phase : TrackerPhase Address Id
  called : ℕ
  seen : List HoprBalance
  answers : List (Option HoprBalance)

inductive TrackerStep where
  /-- The future is polled for the first time. -/
  | begin (jitterMillis : ℕ)
  | answered (balance : Option HoprBalance)
  | wake
  | tick
  | expire
  | cancel

structure TrackingState where
  now : ℕ
  balances : Address → HoprBalance
  activeDepositTrackers : ℕ
  trackers : List (DepositTracker Address Id)

inductive TrackingAction where
  | pass (now : ℕ)
  /-- The chain moves. -/
  | change (balances : Address → HoprBalance)
  | received (event : PixDepositAddressReceived Wire Id)
  | track (index : ℕ) (step : TrackerStep)

end

variable {Wire Address Id : Type}

def TrackerPhase.live : TrackerPhase Address Id → Bool
  | .returned _ | .cancelled => false
  | _ => true

/-- The read which is under way. -/
def TrackerPhase.read : TrackerPhase Address Id → Option BalanceRead
  | .reading _ read | .polling _ _ read => some read
  | _ => none

namespace DepositTracker

def observe (balances : Address → HoprBalance)
    (tracker : DepositTracker Address Id) : DepositTracker Address Id :=
  if tracker.phase.live then
    { tracker with seen := tracker.seen ++ [balances tracker.dst] }
  else tracker

def beginRead (tracker : DepositTracker Address Id) (now : ℕ) : BalanceRead :=
  ⟨now, tracker.seen.length - 1⟩

/-- What the address has held since a read began. -/
def since (tracker : DepositTracker Address Id) (read : BalanceRead) :
    List HoprBalance :=
  tracker.seen.drop read.first

def expired (cfg : TrackingConfig) (tracker : DepositTracker Address Id) :
    DepositTracker Address Id :=
  { tracker with
    phase := .returned (.error (.other
      ⟨tracker.dst, tracker.target, cfg.maxDepositTrackingTime⟩)) }

/-- A read has been answered.  A failed read counts as one which showed too
little. -/
def answer (tracker : DepositTracker Address Id)
    (balance : Option HoprBalance) (otherwise : TrackerPhase Address Id) :
    DepositTracker Address Id :=
  { tracker with
    answers := tracker.answers ++ [balance]
    phase := match balance.filter (tracker.target ≤ ·) with
      | some balance => .returned (.ok (tracker.id, tracker.dst, balance))
      | none => otherwise }

/-- The interval is polled before the deadline is, and its timer is set again
when it is polled successfully. -/
def advance (cfg : TrackingConfig) (now : ℕ)
    (tracker : DepositTracker Address Id) :
    TrackerStep → Option (DepositTracker Address Id)
  | .begin jitterMillis =>
      match tracker.phase with
      | .created =>
          some { tracker with
            phase := .reading jitterMillis (tracker.beginRead now) }
      | _ => none
  | .answered balance =>
      match tracker.phase with
      | .reading jitterMillis _ =>
          some (tracker.answer balance
            (.jittering (now + jitterMillis * 10 ^ 6)))
      | .polling timer deadline _ =>
          some (tracker.answer balance (.waiting now timer deadline))
      | _ => none
  | .wake =>
      match tracker.phase with
      | .jittering timer =>
          if timer ≤ now then
            some { tracker with
              phase := .waiting now (now + cfg.pollInterval)
                (now + cfg.maxDepositTrackingTime) }
          else none
      | _ => none
  | .tick =>
      match tracker.phase with
      | .waiting _ timer deadline =>
          if timer ≤ now then
            some { tracker with
              phase := .polling (now + cfg.pollInterval) deadline
                (tracker.beginRead now) }
          else none
      | _ => none
  | .expire =>
      match tracker.phase with
      | .waiting _ timer deadline =>
          if deadline ≤ now ∧ now < timer then some (tracker.expired cfg)
          else none
      | .polling _ deadline _ =>
          if deadline ≤ now then some (tracker.expired cfg) else none
      | _ => none
  | .cancel =>
      if tracker.phase.live then some { tracker with phase := .cancelled }
      else none

/-- What the spawned task sends to the Exit. -/
def report (tracker : DepositTracker Address Id) : Option (Id × HoprBalance) :=
  match tracker.phase with
  | .returned (.ok (id, _, balance)) => some (id, balance)
  | _ => none

end DepositTracker

namespace TrackingState

def notifyDeposit (state : TrackingState Address Id) (id : Id) (dst : Address)
    (minAmount : HoprBalance) :
    Except (StrategyError (TrackingExpired Address))
      (TrackingState Address Id) :=
  match DepositTrackerSlot.tryAcquire state.activeDepositTrackers with
  | none => .error .criteriaNotSatisfied
  | some counter =>
      .ok { state with
        activeDepositTrackers := counter
        trackers := state.trackers ++
          [⟨id, dst, minAmount, .created, state.now, [state.balances dst],
            []⟩] }

/-- `on_pix_event`, for a deposit address which was received. -/
def onDepositAddressReceived (cfg : TrackingConfig)
    (tryIntoPublic : Wire → Option Address) (state : TrackingState Address Id)
    (event : PixDepositAddressReceived Wire Id) :
    Except (StrategyError (TrackingExpired Address))
      (TrackingState Address Id) :=
  match tryIntoPublic event.address with
  | none => .error (.generalError .invalidInput)
  | some trackAddr =>
      match state.notifyDeposit event.id trackAddr
          (cfg.pricePerByte.scale event.quota.toNat) with
      | .error _ => .error .criteriaNotSatisfied
      | .ok after => .ok after

/-- A tracker which is over drops its slot. -/
def replace (state : TrackingState Address Id) (index : ℕ)
    (after : DepositTracker Address Id) : TrackingState Address Id :=
  { state with
    activeDepositTrackers :=
      if after.phase.live then state.activeDepositTrackers
      else DepositTrackerSlot.drop state.activeDepositTrackers
    trackers := state.trackers.set index after }

def next (cfg : TrackingConfig) (tryIntoPublic : Wire → Option Address)
    (state : TrackingState Address Id) :
    TrackingAction Wire Address Id → Option (TrackingState Address Id)
  | .pass now =>
      if state.now ≤ now then some { state with now := now } else none
  | .change balances =>
      some { state with
        balances := balances
        trackers := state.trackers.map (·.observe balances) }
  | .received event =>
      match state.onDepositAddressReceived cfg tryIntoPublic event with
      | .ok after => some after
      | .error _ => some state
  | .track index step => do
      let tracker ← state.trackers[index]?
      let after ← tracker.advance cfg state.now step
      some (state.replace index after)

/-- How many trackers are under way. -/
def underWay (state : TrackingState Address Id) : ℕ :=
  held (·.phase.live.toNat) state.trackers

end TrackingState

/-- A pool which tracks nothing yet. -/
def trackingSystem (cfg : TrackingConfig)
    (tryIntoPublic : Wire → Option Address) :
    TransitionSystem (TrackingState Address Id)
      (TrackingAction Wire Address Id) where
  init state := state.activeDepositTrackers = 0 ∧ state.trackers = []
  next := TrackingState.next cfg tryIntoPublic

/-! ## What one step does -/

/-- The steps of a tracker. -/
inductive Tracks (cfg : TrackingConfig) (now : ℕ)
    (tracker : DepositTracker Address Id) :
    TrackerStep → DepositTracker Address Id → Prop
  | begin (jitterMillis : ℕ) (hphase : tracker.phase = .created) :
      Tracks cfg now tracker (.begin jitterMillis)
        { tracker with
          phase := .reading jitterMillis (tracker.beginRead now) }
  | found (balance : HoprBalance) (read : BalanceRead)
      (hread : tracker.phase.read = some read)
      (henough : tracker.target ≤ balance) :
      Tracks cfg now tracker (.answered (some balance))
        { tracker with
          answers := tracker.answers ++ [some balance]
          phase := .returned (.ok (tracker.id, tracker.dst, balance)) }
  | readShort (balance : Option HoprBalance) (jitterMillis : ℕ)
      (read : BalanceRead)
      (hphase : tracker.phase = .reading jitterMillis read)
      (hshort : ∀ shown, balance = some shown → ¬ tracker.target ≤ shown) :
      Tracks cfg now tracker (.answered balance)
        { tracker with
          answers := tracker.answers ++ [balance]
          phase := .jittering (now + jitterMillis * 10 ^ 6) }
  | polledShort (balance : Option HoprBalance) (timer deadline : ℕ)
      (read : BalanceRead)
      (hphase : tracker.phase = .polling timer deadline read)
      (hshort : ∀ shown, balance = some shown → ¬ tracker.target ≤ shown) :
      Tracks cfg now tracker (.answered balance)
        { tracker with
          answers := tracker.answers ++ [balance]
          phase := .waiting now timer deadline }
  | wake (timer : ℕ) (hphase : tracker.phase = .jittering timer)
      (hdue : timer ≤ now) :
      Tracks cfg now tracker .wake
        { tracker with
          phase := .waiting now (now + cfg.pollInterval)
            (now + cfg.maxDepositTrackingTime) }
  | tick (since timer deadline : ℕ)
      (hphase : tracker.phase = .waiting since timer deadline)
      (hdue : timer ≤ now) :
      Tracks cfg now tracker .tick
        { tracker with
          phase := .polling (now + cfg.pollInterval) deadline
            (tracker.beginRead now) }
  | expire (deadline : ℕ)
      (hphase : (∃ since timer,
          tracker.phase = .waiting since timer deadline) ∨
        ∃ timer read, tracker.phase = .polling timer deadline read)
      (hover : deadline ≤ now) :
      Tracks cfg now tracker .expire (tracker.expired cfg)
  | cancel (hlive : tracker.phase.live = true) :
      Tracks cfg now tracker .cancel { tracker with phase := .cancelled }

namespace DepositTracker

variable {cfg : TrackingConfig} {now : ℕ}
  {tracker after : DepositTracker Address Id}

theorem answer_enough {balance : HoprBalance}
    (otherwise : TrackerPhase Address Id)
    (henough : tracker.target ≤ balance) :
    tracker.answer (some balance) otherwise =
      { tracker with
        answers := tracker.answers ++ [some balance]
        phase := .returned (.ok (tracker.id, tracker.dst, balance)) } := by
  simp [answer, Option.filter, henough]

theorem answer_short {balance : Option HoprBalance}
    (otherwise : TrackerPhase Address Id)
    (hshort : ∀ shown, balance = some shown → ¬ tracker.target ≤ shown) :
    tracker.answer balance otherwise =
      { tracker with
        answers := tracker.answers ++ [balance]
        phase := otherwise } := by
  cases balance with
  | none => rfl
  | some shown => simp [answer, Option.filter, hshort shown rfl]

theorem enough_or_short (target : HoprBalance) (balance : Option HoprBalance) :
    (∃ shown, balance = some shown ∧ target ≤ shown) ∨
      ∀ shown, balance = some shown → ¬ target ≤ shown := by
  by_cases henough : ∃ shown, balance = some shown ∧ target ≤ shown
  · exact Or.inl henough
  · exact Or.inr fun shown hshown hle => henough ⟨shown, hshown, hle⟩

theorem tracks_of_advance {step : TrackerStep}
    (hnext : tracker.advance cfg now step = some after) :
    Tracks cfg now tracker step after := by
  cases step with
  | begin jitterMillis =>
      simp only [advance] at hnext
      split at hnext
      · cases hnext
        exact .begin jitterMillis ‹_›
      · cases hnext
  | answered balance =>
      simp only [advance] at hnext
      split at hnext
      · case h_1 jitterMillis read hphase =>
          cases hnext
          rcases enough_or_short tracker.target balance with
            ⟨shown, rfl, henough⟩ | hshort
          · rw [answer_enough _ henough]
            exact .found shown read (by rw [hphase]; rfl) henough
          · rw [answer_short _ hshort]
            exact .readShort balance jitterMillis read hphase hshort
      · case h_2 timer deadline read hphase =>
          cases hnext
          rcases enough_or_short tracker.target balance with
            ⟨shown, rfl, henough⟩ | hshort
          · rw [answer_enough _ henough]
            exact .found shown read (by rw [hphase]; rfl) henough
          · rw [answer_short _ hshort]
            exact .polledShort balance timer deadline read hphase hshort
      · cases hnext
  | wake =>
      simp only [advance] at hnext
      split at hnext
      · case h_1 timer hphase =>
          split at hnext
          · cases hnext
            exact .wake timer hphase ‹_›
          · cases hnext
      · cases hnext
  | tick =>
      simp only [advance] at hnext
      split at hnext
      · case h_1 since timer deadline hphase =>
          split at hnext
          · cases hnext
            exact .tick since timer deadline hphase ‹_›
          · cases hnext
      · cases hnext
  | expire =>
      simp only [advance] at hnext
      split at hnext
      · case h_1 since timer deadline hphase =>
          split at hnext
          · case isTrue hover =>
              cases hnext
              exact .expire deadline (.inl ⟨since, timer, hphase⟩) hover.1
          · cases hnext
      · case h_2 timer deadline read hphase =>
          split at hnext
          · cases hnext
            exact .expire deadline (.inr ⟨timer, read, hphase⟩) ‹_›
          · cases hnext
      · cases hnext
  | cancel =>
      simp only [advance] at hnext
      split at hnext
      · cases hnext
        exact .cancel ‹_›
      · cases hnext

end DepositTracker

section

variable {cfg : TrackingConfig} {tryIntoPublic : Wire → Option Address}
  {now : ℕ} {tracker after : DepositTracker Address Id}

/-- A tracker takes steps while it is live only. -/
theorem Tracks.live {step : TrackerStep}
    (htracks : Tracks cfg now tracker step after) :
    tracker.phase.live = true := by
  cases htracks with
  | begin _ hphase | wake _ hphase | tick _ _ _ hphase
  | readShort _ _ _ hphase | polledShort _ _ _ _ hphase =>
      rw [hphase]
      rfl
  | found _ read hread =>
      cases hphase : tracker.phase with
      | returned _ | cancelled => simp [hphase, TrackerPhase.read] at hread
      | _ => rfl
  | expire _ hphase =>
      rcases hphase with ⟨since, timer, hphase⟩ | ⟨timer, read, hphase⟩ <;>
        rw [hphase] <;> rfl
  | cancel hlive => exact hlive

/-! ## Slots -/

@[simp] theorem observe_phase (balances : Address → HoprBalance) :
    (tracker.observe balances).phase = tracker.phase := by
  unfold DepositTracker.observe
  split <;> rfl

theorem drop_succ {counter : ℕ} (hcounter : counter + 1 < 2 ^ 64) :
    DepositTrackerSlot.drop (counter + 1) = counter := by
  unfold DepositTrackerSlot.drop
  omega

/-- The counter of slots is the number of trackers which are under way. -/
structure TrackingState.Counted (state : TrackingState Address Id) : Prop where
  counter : state.activeDepositTrackers = state.underWay
  bounded : state.underWay ≤ maxConcurrentDepositTrackers

theorem tryAcquire_eq_none {counter : ℕ}
    (hbounded : counter ≤ maxConcurrentDepositTrackers) :
    DepositTrackerSlot.tryAcquire counter = none ↔
      counter = maxConcurrentDepositTrackers := by
  unfold DepositTrackerSlot.tryAcquire
  split
  · simp only [reduceCtorEq, false_iff]
    omega
  · simp only [true_iff]
    omega

/-- A deposit is tracked from the call on if there is a slot for it. -/
theorem onDepositAddressReceived_ok {state tracking : TrackingState Address Id}
    {event : PixDepositAddressReceived Wire Id}
    (hok : state.onDepositAddressReceived cfg tryIntoPublic event =
      .ok tracking) :
    ∃ trackAddr, tryIntoPublic event.address = some trackAddr ∧
      state.activeDepositTrackers < maxConcurrentDepositTrackers ∧
      tracking = { state with
        activeDepositTrackers := state.activeDepositTrackers + 1
        trackers := state.trackers ++
          [⟨event.id, trackAddr, cfg.pricePerByte.scale event.quota.toNat,
            .created, state.now, [state.balances trackAddr], []⟩] } := by
  unfold TrackingState.onDepositAddressReceived at hok
  cases hinto : tryIntoPublic event.address with
  | none => simp [hinto] at hok
  | some trackAddr =>
      unfold TrackingState.notifyDeposit DepositTrackerSlot.tryAcquire at hok
      by_cases hfree :
          state.activeDepositTrackers < maxConcurrentDepositTrackers
      · simp only [hinto, hfree, if_true, Except.ok.injEq] at hok
        exact ⟨trackAddr, rfl, hfree, hok.symm⟩
      · simp [hinto, hfree] at hok

theorem counted_step {state next : TrackingState Address Id}
    {action : TrackingAction Wire Address Id} (hcounted : state.Counted)
    (hnext : state.next cfg tryIntoPublic action = some next) :
    next.Counted := by
  obtain ⟨hcounter, hbounded⟩ := hcounted
  cases action with
  | pass later =>
      simp only [TrackingState.next] at hnext
      split at hnext
      · cases hnext
        exact ⟨hcounter, hbounded⟩
      · cases hnext
  | change balances =>
      cases hnext
      have hsame : held (fun tracker => tracker.phase.live.toNat)
          (state.trackers.map (·.observe balances)) = state.underWay := by
        simp [TrackingState.underWay, held, Function.comp_def]
      exact ⟨hcounter.trans hsame.symm, hsame.le.trans hbounded⟩
  | received event =>
      simp only [TrackingState.next] at hnext
      split at hnext
      · case h_1 tracking hok =>
          cases hnext
          obtain ⟨trackAddr, _, hfree, rfl⟩ := onDepositAddressReceived_ok hok
          have hmore : TrackingState.underWay { state with
              activeDepositTrackers := state.activeDepositTrackers + 1
              trackers := state.trackers ++ [⟨event.id, trackAddr,
                cfg.pricePerByte.scale event.quota.toNat, .created, state.now,
                [state.balances trackAddr], []⟩] } = state.underWay + 1 := by
            simp [TrackingState.underWay, TrackerPhase.live]
          exact ⟨by rw [hmore, ← hcounter], by rw [hmore]; omega⟩
      · cases hnext
        exact ⟨hcounter, hbounded⟩
  | track index step =>
      simp only [TrackingState.next, Option.bind_eq_bind,
        Option.bind_eq_some_iff, Option.some.injEq] at hnext
      obtain ⟨tracker, hmem, after, hadvance, rfl⟩ := hnext
      have hlive := (DepositTracker.tracks_of_advance hadvance).live
      have hset : held (·.phase.live.toNat) (state.trackers.set index after) +
          1 = state.underWay + after.phase.live.toNat := by
        have hset := held_set
          (fun tracker : DepositTracker Address Id => tracker.phase.live.toNat)
          after hmem
        rwa [hlive] at hset
      cases hover : after.phase.live with
      | true =>
          have hsame : (state.replace index after).underWay =
              state.underWay := by
            rw [hover] at hset
            exact Nat.add_right_cancel hset
          exact ⟨by rw [hsame, ← hcounter]; simp [TrackingState.replace, hover],
            by rwa [hsame]⟩
      | false =>
          have hless : (state.replace index after).underWay + 1 =
              state.underWay := by
            rw [hover] at hset
            exact hset
          have hsmall : (state.replace index after).underWay + 1 < 2 ^ 64 := by
            unfold maxConcurrentDepositTrackers at hbounded
            omega
          refine ⟨?_, by omega⟩
          rw [← drop_succ hsmall, hless, ← hcounter]
          simp [TrackingState.replace, hover]

theorem counted_reachable {state : TrackingState Address Id}
    {allowed : TrackingState Address Id →
      TrackingAction Wire Address Id → Prop}
    (hreach : (trackingSystem cfg tryIntoPublic).ReachableWithin allowed
      state) : state.Counted := by
  refine hreach.invariant ?_ fun _ _ _ hcounted _ hnext =>
    counted_step hcounted hnext
  rintro start ⟨hcounter, htrackers⟩
  have hnone : start.underWay = 0 := by
    simp [TrackingState.underWay, htrackers]
  exact ⟨by rw [hcounter, hnone], by rw [hnone]; exact Nat.zero_le _⟩

/-! ## Every tracker -/

/-- What holds of a new tracker, and is kept by the clock, the chain and the
tracker's own steps, holds of every tracker in every state reached. -/
theorem tracker_invariant
    {allowed : TrackingState Address Id →
      TrackingAction Wire Address Id → Prop}
    (Good : ℕ → (Address → HoprBalance) → DepositTracker Address Id → Prop)
    (hnew : ∀ now balances id dst target,
      Good now balances ⟨id, dst, target, .created, now, [balances dst], []⟩)
    (hpass : ∀ state later, allowed state (.pass later) → state.now ≤ later →
      ∀ tracker ∈ state.trackers, Good state.now state.balances tracker →
        Good later state.balances tracker)
    (hobserve : ∀ now balances later tracker, Good now balances tracker →
      Good now later (tracker.observe later))
    (htrack : ∀ state index step, allowed state (.track index step) →
      ∀ tracker after, state.trackers[index]? = some tracker →
        Tracks cfg state.now tracker step after →
          Good state.now state.balances tracker →
            Good state.now state.balances after)
    {state : TrackingState Address Id}
    (hreach : (trackingSystem cfg tryIntoPublic).ReachableWithin allowed
      state) :
    ∀ tracker ∈ state.trackers, Good state.now state.balances tracker := by
  have hall := @TransitionSystem.ReachableWithin.invariant _ _
    (trackingSystem cfg tryIntoPublic) allowed
    (fun state => ∀ tracker ∈ state.trackers,
      Good state.now state.balances tracker) state hreach
  refine hall ?_ ?_
  · rintro start ⟨_, htrackers⟩ tracker hmem
    rw [htrackers] at hmem
    cases hmem
  · intro before action next hgood hallowed hnext
    cases action with
    | pass later =>
        simp only [trackingSystem, TrackingState.next] at hnext
        split at hnext
        · case isTrue hle =>
            cases hnext
            intro tracker hmem
            exact hpass before later hallowed hle tracker hmem
              (hgood tracker hmem)
        · cases hnext
    | change balances =>
        cases hnext
        intro tracker hmem
        obtain ⟨earlier, hearlier, rfl⟩ := List.mem_map.mp hmem
        exact hobserve _ _ balances earlier (hgood earlier hearlier)
    | received event =>
        simp only [trackingSystem, TrackingState.next] at hnext
        split at hnext
        · case h_1 tracking hok =>
            cases hnext
            obtain ⟨trackAddr, _, _, rfl⟩ := onDepositAddressReceived_ok hok
            intro tracker hmem
            rcases List.mem_append.mp hmem with hold | hadded
            · exact hgood tracker hold
            · rw [List.mem_singleton.mp hadded]
              exact hnew _ _ _ _ _
        · cases hnext
          exact hgood
    | track index step =>
        simp only [trackingSystem, TrackingState.next, Option.bind_eq_bind,
          Option.bind_eq_some_iff, Option.some.injEq] at hnext
        obtain ⟨tracker, hat, after, hadvance, rfl⟩ := hnext
        intro other hmem
        rcases List.mem_or_eq_of_mem_set hmem with hold | rfl
        · exact hgood other hold
        · exact htrack before index step hallowed tracker other hat
            (DepositTracker.tracks_of_advance hadvance)
            (hgood tracker (List.mem_of_getElem? hat))

/-! ## What trackers tell -/

/-- A read shows what the address has held since it began, and the random
number is within its bound. -/
def Served (cfg : TrackingConfig) (state : TrackingState Address Id) :
    TrackingAction Wire Address Id → Prop
  | .track _ (.begin jitterMillis) => jitterMillis * 10 ^ 6 ≤ cfg.pollInterval
  | .track index (.answered (some balance)) =>
      ∀ tracker ∈ state.trackers[index]?, ∀ read ∈ tracker.phase.read,
        balance ∈ tracker.since read
  | _ => True

instance decidableServed (cfg : TrackingConfig)
    (state : TrackingState Address Id) :
    ∀ action : TrackingAction Wire Address Id,
      Decidable (Served cfg state action)
  | .track _ (.begin jitterMillis) =>
      inferInstanceAs (Decidable (jitterMillis * 10 ^ 6 ≤ cfg.pollInterval))
  | .track index (.answered (some balance)) =>
      inferInstanceAs (Decidable (∀ tracker ∈ state.trackers[index]?,
        ∀ read ∈ tracker.phase.read, balance ∈ tracker.since read))
  | .pass _ | .change _ | .received _ | .track _ (.answered none)
  | .track _ .wake | .track _ .tick | .track _ .expire | .track _ .cancel =>
      isTrue trivial

def TrackerPhase.deadline : TrackerPhase Address Id → Option ℕ
  | .waiting _ _ deadline | .polling _ deadline _ => some deadline
  | _ => none

/-- What a tracker which has returned knew. -/
structure DepositTracker.Honest (cfg : TrackingConfig) (now : ℕ)
    (tracker : DepositTracker Address Id) : Prop where
  found : ∀ id dst balance,
    tracker.phase = .returned (.ok (id, dst, balance)) →
      id = tracker.id ∧ dst = tracker.dst ∧ tracker.target ≤ balance ∧
        balance ∈ tracker.seen
  gaveUp : ∀ error, tracker.phase = .returned (.error error) →
    error = .other
        ⟨tracker.dst, tracker.target, cfg.maxDepositTrackingTime⟩ ∧
      tracker.called + cfg.maxDepositTrackingTime ≤ now ∧
      ∀ shown, some shown ∈ tracker.answers → shown < tracker.target

/-- A live tracker has read too little so far, and its deadline leaves it the
whole time. -/
structure DepositTracker.Looking (cfg : TrackingConfig) (now : ℕ)
    (tracker : DepositTracker Address Id) : Prop where
  honest : tracker.Honest cfg now
  called : tracker.called ≤ now
  short : tracker.phase.live = true →
    ∀ shown, some shown ∈ tracker.answers → shown < tracker.target
  deadline : ∀ deadline, tracker.phase.deadline = some deadline →
    tracker.called + cfg.maxDepositTrackingTime ≤ deadline

namespace DepositTracker

theorem Honest.of_live (hlive : tracker.phase.live = true) :
    tracker.Honest cfg now := by
  constructor <;>
    · intros
      simp_all [TrackerPhase.live]

theorem short_append {answers : List (Option HoprBalance)}
    {target : HoprBalance} {balance : Option HoprBalance}
    (hanswers : ∀ shown, some shown ∈ answers → shown < target)
    (hshort : ∀ shown, balance = some shown → ¬ target ≤ shown) :
    ∀ shown, some shown ∈ answers ++ [balance] → shown < target := by
  intro shown hmem
  rcases List.mem_append.mp hmem with hold | hlast
  · exact hanswers shown hold
  · exact Nat.lt_of_not_le
      (hshort shown (List.mem_singleton.mp hlast).symm)

theorem since_subset (tracker : DepositTracker Address Id)
    (read : BalanceRead) : tracker.since read ⊆ tracker.seen :=
  List.drop_subset _ _

theorem Looking.tracks {step : TrackerStep} (hlooking : tracker.Looking cfg now)
    (hserved : ∀ balance read, step = .answered (some balance) →
      tracker.phase.read = some read → balance ∈ tracker.since read)
    (htracks : Tracks cfg now tracker step after) :
    after.Looking cfg now := by
  have hshort := hlooking.short htracks.live
  cases htracks with
  | begin jitterMillis hphase =>
      exact ⟨.of_live rfl, hlooking.called, fun _ => hshort,
        fun _ hnone => by cases hnone⟩
  | found balance read hread henough =>
      have hseen := since_subset tracker read (hserved balance read rfl hread)
      refine ⟨⟨?_, fun _ herror => by cases herror⟩, hlooking.called,
        fun hlive => by simp [TrackerPhase.live] at hlive,
        fun _ hnone => by cases hnone⟩
      rintro id dst shown hok
      cases hok
      exact ⟨rfl, rfl, henough, hseen⟩
  | readShort balance jitterMillis read hphase hless =>
      exact ⟨.of_live rfl, hlooking.called,
        fun _ => short_append hshort hless, fun _ hnone => by cases hnone⟩
  | polledShort balance timer deadline read hphase hless =>
      refine ⟨.of_live rfl, hlooking.called,
        fun _ => short_append hshort hless, ?_⟩
      intro later hlater
      exact hlooking.deadline later (by rw [hphase]; exact hlater)
  | wake timer hphase hdue =>
      refine ⟨.of_live rfl, hlooking.called, fun _ => hshort, ?_⟩
      rintro later hlater
      cases hlater
      exact Nat.add_le_add_right hlooking.called _
  | tick since timer deadline hphase hdue =>
      refine ⟨.of_live rfl, hlooking.called, fun _ => hshort, ?_⟩
      intro later hlater
      exact hlooking.deadline later (by rw [hphase]; exact hlater)
  | expire deadline hphase hover =>
      have hdeadline : tracker.phase.deadline = some deadline := by
        rcases hphase with ⟨since, timer, hphase⟩ | ⟨timer, read, hphase⟩ <;>
          rw [hphase] <;> rfl
      refine ⟨⟨fun _ _ _ hok => (by cases hok), ?_⟩, hlooking.called,
        fun hlive => by simp [expired, TrackerPhase.live] at hlive,
        fun _ hnone => by cases hnone⟩
      rintro error herror
      cases herror
      exact ⟨rfl, (hlooking.deadline deadline hdeadline).trans hover, hshort⟩
  | cancel hlive =>
      exact ⟨⟨fun _ _ _ hok => (by cases hok), fun _ herror => by cases herror⟩,
        hlooking.called, fun hlive => by simp [TrackerPhase.live] at hlive,
        fun _ hnone => by cases hnone⟩

theorem Looking.observe (hlooking : tracker.Looking cfg now)
    (balances : Address → HoprBalance) :
    (tracker.observe balances).Looking cfg now := by
  unfold DepositTracker.observe
  split
  · case isTrue hlive =>
      exact ⟨.of_live hlive, hlooking.called, hlooking.short,
        hlooking.deadline⟩
  · exact hlooking

theorem Looking.pass {later : ℕ} (hlooking : tracker.Looking cfg now)
    (hle : now ≤ later) : tracker.Looking cfg later where
  honest := ⟨hlooking.honest.found, fun error herror =>
    have hgaveUp := hlooking.honest.gaveUp error herror
    ⟨hgaveUp.1, hgaveUp.2.1.trans hle, hgaveUp.2.2⟩⟩
  called := hlooking.called.trans hle
  short := hlooking.short
  deadline := hlooking.deadline

end DepositTracker

/-- Trackers in every run: no more than there are slots for, a new one whenever
a slot is free, and what they return is true. -/
theorem trackedHonestly {state : TrackingState Address Id}
    (hreach : (trackingSystem cfg tryIntoPublic).ReachableWithin (Served cfg)
      state) :
    state.activeDepositTrackers = state.underWay ∧
      state.underWay ≤ maxConcurrentDepositTrackers ∧
      (∀ event trackAddr, tryIntoPublic event.address = some trackAddr →
        (state.onDepositAddressReceived cfg tryIntoPublic event =
            .error .criteriaNotSatisfied ↔
          state.underWay = maxConcurrentDepositTrackers)) ∧
      ∀ tracker ∈ state.trackers, tracker.Honest cfg state.now := by
  obtain ⟨hcounter, hbounded⟩ := counted_reachable hreach
  refine ⟨hcounter, hbounded, ?_, ?_⟩
  · intro event trackAddr hinto
    rw [← tryAcquire_eq_none hbounded, ← hcounter]
    unfold TrackingState.onDepositAddressReceived TrackingState.notifyDeposit
    rw [hinto]
    cases DepositTrackerSlot.tryAcquire state.activeDepositTrackers with
    | none => simp
    | some counter => simp
  · intro tracker hmem
    refine (tracker_invariant (fun now _ => DepositTracker.Looking cfg now)
      ?_ ?_ ?_ ?_ hreach tracker hmem).honest
    · intro now balances id dst target
      exact ⟨.of_live rfl, le_refl _, by simp, fun _ hnone => by cases hnone⟩
    · intro state later _ hle tracker _ hlooking
      exact hlooking.pass hle
    · intro now balances later tracker hlooking
      exact hlooking.observe later
    · intro state index step hserved tracker after hat htracks hlooking
      refine hlooking.tracks ?_ htracks
      rintro balance read rfl hread
      exact hserved tracker hat read hread

end

/-! ## A deposit which never arrives -/

def onlyASecond : TrackingConfig := ⟨10 ^ 9, HoprBalance.saturating 1⟩

def untracked : TrackingState Unit ℕ := ⟨0, fun _ => HoprBalance.zero, 0, []⟩

/-- The first read fails.  The last is answered when the deadline has come. -/
def untilGivenUp : List (TrackingAction Unit Unit ℕ) :=
  [.received ⟨1, 10, ()⟩, .track 0 (.begin 0), .track 0 (.answered none),
    .track 0 .wake, .pass (10 ^ 9), .track 0 .tick,
    .track 0 (.answered (some HoprBalance.zero)), .track 0 .expire]

theorem trackedHonestly_givenUp :
    ∃ state, (trackingSystem onlyASecond some).run untracked untilGivenUp =
        some state ∧ state.activeDepositTrackers = 0 ∧
      (∀ event, state.onDepositAddressReceived onlyASecond some event ≠
        .error .criteriaNotSatisfied) ∧
      ∀ tracker ∈ state.trackers, tracker.Honest onlyASecond state.now := by
  have hserved : (trackingSystem onlyASecond some).Throughout
      (fun before action _ => Served onlyASecond before action)
      untracked untilGivenUp := by decide
  have hrun : (trackingSystem onlyASecond some).run untracked untilGivenUp =
      some _ := rfl
  have hinit : (trackingSystem onlyASecond
      (some : Unit → Option Unit)).ReachableWithin (Served onlyASecond)
        untracked := .init ⟨rfl, rfl⟩
  obtain ⟨_, _, hrefused, hhonest⟩ :=
    trackedHonestly (hinit.throughout hserved hrun)
  refine ⟨_, hrun, rfl, ?_, hhonest⟩
  intro event herror
  have hfull := (hrefused event event.address rfl).mp herror
  revert hfull
  decide

end HoprStrategy.Plain
