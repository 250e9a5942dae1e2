import HoprStrategy.LifecycleSteps
import Mathlib.Tactic

/-!
# The state which a tick publishes

A tick starts as `Running`, each pass raises what it finds, and the guard
publishes the result wherever the pipeline returns.  The functions named
`…Found` list the `state.set` calls of the step of that name, in order.
-/

namespace HoprStrategy.ChannelLifecycle

open Library

inductive StrategyState where
  | running
  | degraded
  | failed
  deriving DecidableEq

namespace StrategyState

/-- The discriminant, which orders the states by severity. -/
def toU8 : StrategyState → ℕ
  | running => 0
  | degraded => 1
  | failed => 2

theorem toU8_injective : Function.Injective toU8 := by
  intro left right heq
  cases left with
  | running => cases right with
    | running => rfl
    | degraded => cases heq
    | failed => cases heq
  | degraded => cases right with
    | running => cases heq
    | degraded => rfl
    | failed => cases heq
  | failed => cases right with
    | running => cases heq
    | degraded => cases heq
    | failed => rfl

instance : LinearOrder StrategyState :=
  LinearOrder.lift' toU8 toU8_injective

theorem le_iff (left right : StrategyState) :
    left ≤ right ↔ left.toU8 ≤ right.toU8 := Iff.rfl

theorem le_failed (state : StrategyState) : state ≤ failed := by
  rw [le_iff]
  cases state with
  | running => decide
  | degraded => decide
  | failed => decide

theorem degraded_le_of_ne {state : StrategyState} (hne : state ≠ running) :
    degraded ≤ state := by
  cases state with
  | running => exact absurd rfl hne
  | degraded => exact le_rfl
  | failed => exact le_failed degraded

end StrategyState

/-- `StatePublisher`, less the strategy which it publishes to. -/
structure StatePublisher where
  state : StrategyState

namespace StatePublisher

def new : StatePublisher := ⟨.running⟩

def set (publisher : StatePublisher) (next : StrategyState) :
    StatePublisher :=
  { publisher with state := max publisher.state next }

def setAll (publisher : StatePublisher) (found : List StrategyState) :
    StatePublisher :=
  found.foldl set publisher

theorem setAll_append (publisher : StatePublisher)
    (earlier later : List StrategyState) :
    publisher.setAll (earlier ++ later) =
      (publisher.setAll earlier).setAll later :=
  List.foldl_append

/-- A later finding never downgrades the state. -/
theorem le_setAll (publisher : StatePublisher) (found : List StrategyState) :
    publisher.state ≤ (publisher.setAll found).state := by
  induction found generalizing publisher with
  | nil => exact le_refl publisher.state
  | cons next rest ih =>
      have hset : publisher.state ≤ (publisher.set next).state :=
        le_max_left publisher.state next
      exact hset.trans (ih (publisher.set next))

theorem mem_le_setAll {found : List StrategyState} {finding : StrategyState}
    (publisher : StatePublisher) (hmem : finding ∈ found) :
    finding ≤ (publisher.setAll found).state := by
  induction found generalizing publisher with
  | nil => cases hmem
  | cons next rest ih =>
      rcases List.mem_cons.mp hmem with heq | hrest
      · have hset : next ≤ (publisher.set next).state :=
          le_max_right publisher.state next
        rw [heq]
        exact hset.trans (le_setAll (publisher.set next) rest)
      · exact ih (publisher.set next) hrest

end StatePublisher

variable {Id Addr : Type} [DecidableEq Id] [DecidableEq Addr]

namespace LifecycleState

/-! ## What the passes find -/

def startOpeningFound (cfg : ChannelLifecycleConfig)
    (state : LifecycleState Id Addr) : List StrategyState :=
  let deficit := cfg.targetOpenChannels - state.openCount
  if deficit = 0 then []
  else if ! state.tick.peerMapKnown then [.failed]
  else []

/-- `OpenAttempt::Underfunded`: the channel which the re-read found needs a
top-up which the Safe cannot pay. -/
def underfunded (state : LifecycleState Id Addr) (funding : ResolvedFunding) :
    Option (Option (ChannelEntry Id Addr)) → Bool
  | some (some existing) =>
      existing.status = .open &&
        ! decide (funding.lowerBalanceThreshold ≤ existing.balance) &&
        decide (state.safeRemaining < funding.topupBalance)
  | _ => false

def openStepFound (state : LifecycleState Id Addr)
    (reread : Option (Option (ChannelEntry Id Addr))) :
    List Addr → List StrategyState
  | [] => []
  | _ :: _ =>
      match state.tick.funding with
      | none => []
      | some funding =>
          if state.safeRemaining < funding.initialBalance then [.degraded]
          else if state.underfunded funding reread then [.degraded]
          else []

def startFinalizingFound (cfg : ChannelLifecycleConfig)
    (state : LifecycleState Id Addr) : List StrategyState :=
  if cfg.finalizerEnabled then [] else state.startOpeningFound cfg

def finalizeStepFound (cfg : ChannelLifecycleConfig)
    (state : LifecycleState Id Addr) (finalizeCount : ℕ) :
    List (ChannelEntry Id Addr) → List StrategyState
  | [] => state.startOpeningFound cfg
  | _ :: _ =>
      if cfg.finalizeMaxConcurrent ≤ finalizeCount then
        state.startOpeningFound cfg
      else []

def startConsolidationFound (cfg : ChannelLifecycleConfig)
    (state : LifecycleState Id Addr) : List StrategyState :=
  match state.tick.funding, state.tick.safe with
  | some funding, some _ =>
      if funding.faceValue.isZero || state.deferredToConsolidation.isEmpty ||
          (state.tick.openChannels.filter state.isFree).isEmpty then
        state.startFinalizingFound cfg
      else []
  | _, _ => state.startFinalizingFound cfg

/-- A consolidation close is reported once it is submitted. -/
def consolidateStepFound (cfg : ChannelLifecycleConfig)
    (state : LifecycleState Id Addr) (closeCount : ℕ) :
    List Id → List StrategyState
  | [] => []
  | id :: _ =>
      if cfg.closeMaxConcurrent ≤ closeCount then []
      else
        match state.tick.channelById id with
        | none => []
        | some channel =>
            if (state.tryCloseChannel cfg channel).1 then [.degraded] else []

def topUpStepFound (cfg : ChannelLifecycleConfig)
    (state : LifecycleState Id Addr) :
    List (ChannelEntry Id Addr) → List StrategyState
  | [] => state.startFinalizingFound cfg
  | channel :: _ =>
      match state.tick.funding with
      | none => state.startFinalizingFound cfg
      | some funding =>
          let topup := funding.faceValue - channel.balance
          if topup.isZero then []
          else if state.safeRemaining < topup then
            .degraded :: state.startFinalizingFound cfg
          else []

/-- Without the peer map the close pass is degraded, when it has a channel to
look at. -/
def startClosingFound (cfg : ChannelLifecycleConfig)
    (state : LifecycleState Id Addr) : List StrategyState :=
  if state.tick.startupPhase = .observing then
    state.startConsolidationFound cfg
  else if ! state.tick.peerMapKnown && ! state.tick.openChannels.isEmpty then
    [.degraded]
  else []

def closeStepFound (cfg : ChannelLifecycleConfig)
    (state : LifecycleState Id Addr) (closeCount dispatchedThisTick : ℕ) :
    List Id → List StrategyState
  | [] => state.startConsolidationFound cfg
  | _ :: _ =>
      if cfg.closeMaxConcurrent ≤ closeCount ||
          state.tick.maxClosesPerTick.any (· ≤ dispatchedThisTick) ||
          state.openCount - closeCount ≤ cfg.minOpenChannels then
        state.startConsolidationFound cfg
      else []

/-- The fund pass fails when it cannot read its inputs. -/
def startFundingFound (cfg : ChannelLifecycleConfig)
    (state : LifecycleState Id Addr) : List StrategyState :=
  match state.tick.funding, state.tick.safe with
  | some funding, some _ =>
      if funding.topupBalance.isZero || funding.faceValue.isZero then
        state.startClosingFound cfg
      else []
  | _, _ => .failed :: state.startClosingFound cfg

/-- A Safe which cannot pay one ticket ends the pass, and one which cannot pay
a full top-up is short of it. -/
def fundStepFound (cfg : ChannelLifecycleConfig)
    (state : LifecycleState Id Addr) (stranded : Bool) :
    List (ChannelEntry Id Addr) → List StrategyState
  | [] => state.startClosingFound cfg
  | channel :: _ =>
      match state.tick.funding with
      | none => state.startClosingFound cfg
      | some funding =>
          if stranded && channel.balance < funding.faceValue then []
          else
            let amount := fundAmount funding state.safeRemaining
            if amount.isZero then .degraded :: state.startClosingFound cfg
            else if amount < funding.topupBalance then [.degraded]
            else []

def workFound (cfg : ChannelLifecycleConfig) (state : LifecycleState Id Addr)
    (reread : Option (Option (ChannelEntry Id Addr))) : List StrategyState :=
  match state.phase with
  | .funding stranded candidates =>
      state.fundStepFound cfg stranded candidates
  | .closing candidates closeCount dispatchedThisTick =>
      state.closeStepFound cfg closeCount dispatchedThisTick candidates
  | .consolidating _ remaining closeCount =>
      state.consolidateStepFound cfg closeCount remaining
  | .toppingUp survivors => state.topUpStepFound cfg survivors
  | .finalizing channels finalizeCount =>
      state.finalizeStepFound cfg finalizeCount channels
  | .opening candidates => state.openStepFound reread candidates
  | .idle | .decreased _ _ | .crashed => []

/-! ## What the passes leave -/

/-- The channels which the fund pass takes up. -/
def fundDemand (state : LifecycleState Id Addr) :
    List (ChannelEntry Id Addr) :=
  match state.phase with
  | .funding _ candidates => candidates
  | _ => []

/-- The channel to which the step means to pay a top-up. -/
def workOffers (state : LifecycleState Id Addr) : List Id :=
  match state.phase, state.tick.funding with
  | .funding stranded (channel :: _), some funding =>
      if stranded && channel.balance < funding.faceValue ||
          (fundAmount funding state.safeRemaining).isZero then []
      else [channel.id]
  | .toppingUp (channel :: _), some funding =>
      if (funding.faceValue - channel.balance).isZero ||
          decide (state.safeRemaining < funding.faceValue - channel.balance)
      then []
      else [channel.id]
  | _, _ => []

end LifecycleState

/-- The operation pays into the channel, or closes it. -/
def Operation.actsOn (operation : Operation Id Addr) (id : Id) : Bool :=
  match operation with
  | .fund other _ | .close other => other = id
  | .open _ _ | .finalize _ => false

namespace LifecycleState

/-- Whether the tick has sent a top-up or a close for the channel. -/
def served (state : LifecycleState Id Addr) (id : Id) : Bool :=
  state.dispatched.any (·.actsOn id)

/-- Whether the channel has a fund or a close lease. -/
def engaged (state : LifecycleState Id Addr) (id : Id) : Bool :=
  state.fundInFlight.isHeld state.now id ||
    state.closeInFlight.isHeld state.now id

end LifecycleState

/-- Whether the channel is below face value. -/
def TickInputs.belowFaceValue (tick : TickInputs Id Addr)
    (channel : ChannelEntry Id Addr) : Bool :=
  tick.funding.any (channel.balance < ·.faceValue)

section

variable (Id Addr : Type)

/-- What a tick publishes, with all that its passes found, whether it has read
the channel list and the inputs of the fund pass, and the channels which it
leaves because the Safe is short of money. -/
structure PublishedTick where
  state : StrategyState
  found : List StrategyState
  inputsRead : Bool
  leftShort : List (ChannelEntry Id Addr)

/-- The strategy with what its last tick has found so far and what it has
published.  `needy` are the channels which the fund pass took up, and
`offered` those to which a pass meant to pay a top-up. -/
structure ReportingState where
  lifecycle : LifecycleState Id Addr
  publisher : StatePublisher
  found : List StrategyState
  needy : List (ChannelEntry Id Addr)
  offered : List Id
  published : List (PublishedTick Id Addr)

inductive ReportingAction where
  | lifecycle (action : LifecycleAction Id Addr)
  /-- A tick which cannot read the channel list. -/
  | unreadable

end

namespace ReportingState

/-- The needy channels below face value for which nothing was sent, which hold
no lease, and which no pass could pay. -/
def leftShort (state : ReportingState Id Addr) :
    List (ChannelEntry Id Addr) :=
  state.needy.filter fun channel =>
    state.lifecycle.tick.belowFaceValue channel &&
      ! state.lifecycle.served channel.id &&
      ! state.lifecycle.engaged channel.id &&
      channel.id ∉ state.offered

/-- The guard drops when the pipeline returns, and when it panics. -/
def publish (state : ReportingState Id Addr) : ReportingState Id Addr :=
  match state.lifecycle.phase with
  | .idle | .crashed =>
      { state with
        published := state.published ++
          [{ state := state.publisher.state
             found := state.found
             inputsRead := state.lifecycle.tick.funding.isSome &&
               state.lifecycle.tick.safe.isSome
             leftShort := state.leftShort }] }
  | _ => state

def startTick (cfg : ChannelLifecycleConfig) (state : ReportingState Id Addr)
    (inputs : TickInputs Id Addr) : ReportingState Id Addr :=
  let started := state.lifecycle.startTick cfg inputs
  let found := (state.lifecycle.snapshot inputs).startFundingFound cfg
  { state with
    lifecycle := started
    publisher := StatePublisher.new.setAll found
    found := found
    needy := started.fundDemand
    offered := [] }

/-- The step of the tick which makes `after` of the strategy. -/
def work (cfg : ChannelLifecycleConfig) (state : ReportingState Id Addr)
    (reread : Option (Option (ChannelEntry Id Addr)))
    (after : LifecycleState Id Addr) : ReportingState Id Addr :=
  let found := state.lifecycle.workFound cfg reread
  { state with
    lifecycle := after
    publisher := state.publisher.setAll found
    found := state.found ++ found
    offered := state.offered ++ state.lifecycle.workOffers }

/-- A tick which ends before its first pass. -/
def skipTick (state : ReportingState Id Addr) : ReportingState Id Addr :=
  let publisher := StatePublisher.new.set .failed
  { state with
    lifecycle := state.lifecycle.swept
    publisher := publisher
    found := [.failed]
    needy := []
    offered := []
    published := state.published ++
      [{ state := publisher.state
         found := [.failed]
         inputsRead := false
         leftShort := [] }] }

def next (cfg : ChannelLifecycleConfig) (state : ReportingState Id Addr) :
    ReportingAction Id Addr → Option (ReportingState Id Addr)
  | .unreadable =>
      match state.lifecycle.phase with
      | .idle => some state.skipTick
      | _ => none
  | .lifecycle action =>
      match state.lifecycle.next cfg action with
      | none => none
      | some after =>
          match action with
          | .tick inputs => some (state.startTick cfg inputs).publish
          | .work reread => some (state.work cfg reread after).publish
          | _ => some { state with lifecycle := after }

end ReportingState

def ReportingState.initial : ReportingState Id Addr where
  lifecycle := LifecycleState.initial
  publisher := StatePublisher.new
  found := []
  needy := []
  offered := []
  published := []

def reportingLifecycle (cfg : ChannelLifecycleConfig) :
    TransitionSystem (ReportingState Id Addr) (ReportingAction Id Addr) where
  init state := state = ReportingState.initial
  next := ReportingState.next cfg

/-- The channels of the strategy are worked on as without the report. -/
theorem reporting_next {cfg : ChannelLifecycleConfig}
    {before after : ReportingState Id Addr} {action : LifecycleAction Id Addr}
    (hnext : before.next cfg (.lifecycle action) = some after) :
    before.lifecycle.next cfg action = some after.lifecycle := by
  have hpublish : ∀ state : ReportingState Id Addr,
      state.publish.lifecycle = state.lifecycle := by
    intro state
    unfold ReportingState.publish
    split <;> rfl
  simp only [ReportingState.next] at hnext
  cases hlifecycle : before.lifecycle.next cfg action with
  | none =>
      rw [hlifecycle] at hnext
      cases hnext
  | some worked =>
      rw [hlifecycle] at hnext
      dsimp only at hnext
      split at hnext
      · cases hnext
        rw [hpublish]
        simp only [LifecycleState.next] at hlifecycle
        split at hlifecycle
        · exact hlifecycle.symm
        · cases hlifecycle
      · cases hnext
        rw [hpublish]
        rfl
      · cases hnext
        rfl

end HoprStrategy.ChannelLifecycle
