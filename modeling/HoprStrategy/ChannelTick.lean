import HoprStrategy.ActionLeases
import HoprStrategy.HoprBalance
import HoprStrategy.Library.TransitionSystem
import Mathlib.Data.List.Sort

/-!
# A tick of the channel lifecycle

The strategy is one task which works on a tick or on a chain event at a time;
the transactions which it spawns report back on tasks of their own.  Every
candidate of a pass is a step, and between two steps time passes and leases
are released.  What a tick reads of the chain, the network and the selector is
its input.
-/

namespace HoprStrategy.ChannelLifecycle

open Library

inductive ChannelStatus where
  | open
  | pendingToClose
  | closed
  deriving DecidableEq

structure ChannelEntry (Id Addr : Type) where
  id : Id
  destination : Addr
  balance : HoprBalance
  status : ChannelStatus
  deriving DecidableEq

structure ResolvedFunding where
  initialBalance : HoprBalance
  topupBalance : HoprBalance
  lowerBalanceThreshold : HoprBalance
  faceValue : HoprBalance

/-- The Safe's balance, and what a transaction can move of it. -/
structure SafeBudget where
  balance : HoprBalance
  spendable : HoprBalance

inductive StartupPhase where
  | observing
  | shieldingConnected
  | expired
  deriving DecidableEq

structure ChannelLifecycleConfig where
  minOpenChannels : ℕ
  targetOpenChannels : ℕ
  closeWhenDrainedBelow : HoprBalance
  closeMaxConcurrent : ℕ
  finalizerEnabled : Bool
  finalizeMaxConcurrent : ℕ
  maxConcurrentActions : ℕ
  actionLeaseTimeout : ℕ

/-- `required_safe_balance`. -/
def ResolvedFunding.requiredSafeBalance (funding : ResolvedFunding)
    (channelsNeedingTopup openDeficit : ℕ) : HoprBalance :=
  funding.topupBalance.scale channelsNeedingTopup +
    funding.initialBalance.scale openDeficit

section

variable (Id Addr : Type)

/-- What a tick works with.  `worthKeeping` says that a peer is connected or
active, `proactive` that a channel is draining, `disconnected` lists the
channels whose peer was seen disconnected often enough. -/
structure TickInputs where
  channels : List (ChannelEntry Id Addr)
  funding : Option ResolvedFunding
  safe : Option SafeBudget
  worthKeeping : Addr → Bool
  proactive : Id → Bool
  startupPhase : StartupPhase
  closesRanked : List Id
  disconnected : List Id
  maxClosesPerTick : Option ℕ
  rank : Id → ℚ
  overdue : Id → Bool
  peerMapKnown : Bool
  opensRanked : List Addr

/-- A chain write which was submitted. -/
inductive Operation where
  | open (dest : Addr) (amount : HoprBalance)
  | fund (id : Id) (amount : HoprBalance)
  | close (id : Id)
  | finalize (id : Id)

/-- Where the strategy's task stands. -/
inductive TaskPhase where
  | idle
  | funding (stranded : Bool) (candidates : List (ChannelEntry Id Addr))
  | closing (candidates : List Id) (closeCount dispatchedThisTick : ℕ)
  | consolidating (closes remaining : List Id) (closeCount : ℕ)
  | toppingUp (survivors : List (ChannelEntry Id Addr))
  | finalizing (channels : List (ChannelEntry Id Addr)) (finalizeCount : ℕ)
  | opening (candidates : List Addr)
  /-- A balance decrease waits for the safe balance. -/
  | decreased (channel : ChannelEntry Id Addr) (funding : ResolvedFunding)
  /-- The task panicked. -/
  | crashed

/-- The strategy.  `running` are the spawned operations which have not reported
back, with their holders, and `dispatched` all that the last tick spawned. -/
structure LifecycleState where
  now : ℕ
  openInFlight : ActionLeases Addr
  fundInFlight : ActionLeases Id
  closeInFlight : ActionLeases Id
  finalizeInFlight : ActionLeases Id
  lastResolvedFunding : Option ResolvedFunding
  running : List (Operation Id Addr × UInt64)
  phase : TaskPhase Id Addr
  tick : TickInputs Id Addr
  openCount : ℕ
  safeRemaining : HoprBalance
  deferredToConsolidation : List Id
  dispatched : List (Operation Id Addr)

inductive LifecycleAction where
  | pass (now : ℕ)
  | tick (inputs : TickInputs Id Addr)
  /-- The next step of the tick; the open pass re-reads the channel. -/
  | work (reread : Option (Option (ChannelEntry Id Addr)))
  | balanceDecreased (channel : ChannelEntry Id Addr)
  /-- The safe balance for the event at hand. -/
  | budget (safe : Option SafeBudget)
  | balanceIncreased (id : Id)
  | channelOpened (destination : Addr)
  | closureInitiated (id : Id)
  | channelClosed (id : Id)
  /-- A spawned operation reports back. -/
  | report (index : ℕ)

end

def Operation.amount {Id Addr : Type} : Operation Id Addr → ℕ
  | .open _ amount => amount.wei
  | .fund _ amount => amount.wei
  | .close _ | .finalize _ => 0

variable {Id Addr : Type} [DecidableEq Id] [DecidableEq Addr]

namespace TickInputs

def openChannels (tick : TickInputs Id Addr) : List (ChannelEntry Id Addr) :=
  tick.channels.filter (·.status = .open)

/-- The entry which an index by channel id holds. -/
def channelById (tick : TickInputs Id Addr) (id : Id) :
    Option (ChannelEntry Id Addr) :=
  tick.openChannels.reverse.find? (·.id = id)

omit [DecidableEq Addr] in
theorem channelById_id {tick : TickInputs Id Addr} {id : Id}
    {channel : ChannelEntry Id Addr}
    (hfound : tick.channelById id = some channel) : channel.id = id := by
  simpa using List.find?_some hfound

/-- Zero when the balance is unknown. -/
def spendable (tick : TickInputs Id Addr) : HoprBalance :=
  (tick.safe.map SafeBudget.spendable).getD HoprBalance.zero

/-- Whether a drained channel is still topped up. -/
def refundable (cfg : ChannelLifecycleConfig) (tick : TickInputs Id Addr)
    (channel : ChannelEntry Id Addr) : Bool :=
  if cfg.closeWhenDrainedBelow < channel.balance then true
  else if ! cfg.closeWhenDrainedBelow.isZero then false
  else tick.worthKeeping channel.destination

end TickInputs

/-- The stake which a consolidation can redistribute.  The addition is the
checked one. -/
def consolidationPool (underfunded : List (ChannelEntry Id Addr))
    (safeRemaining reclaiming : HoprBalance) : Option HoprBalance := do
  let free ← safeRemaining.checkedAdd reclaiming
  underfunded.foldlM (fun acc channel => acc.checkedAdd channel.balance) free

/-- `consolidation_closes`: the worst-ranked channels beyond what the pooled
stake can sustain.  It panics where the pool is too large for the type. -/
def consolidationCloses (underfunded : List (ChannelEntry Id Addr))
    (rank : Id → ℚ) (safeRemaining reclaiming faceValue : HoprBalance) :
    Option (List Id) :=
  if faceValue.isZero || underfunded.isEmpty then some []
  else do
    let pool ← consolidationPool underfunded safeRemaining reclaiming
    let achievable := pool.wei / faceValue.wei
    if achievable = 0 ∨ underfunded.length ≤ achievable then some []
    else
      some (((underfunded.insertionSort fun a b => rank a.id ≤ rank b.id).take
        (underfunded.length - achievable)).map (·.id))

namespace LifecycleState

def totalInFlight (state : LifecycleState Id Addr) : ℕ :=
  state.openInFlight.heldCount state.now +
    state.fundInFlight.heldCount state.now +
    state.closeInFlight.heldCount state.now +
    state.finalizeInFlight.heldCount state.now

/-- Takes the slot, charges the action budget and spawns the operation.  `put`
writes the leases back. -/
def spawnLeased {Key : Type} [DecidableEq Key] (cfg : ChannelLifecycleConfig)
    (state : LifecycleState Id Addr) (leases : ActionLeases Key)
    (put : ActionLeases Key → LifecycleState Id Addr) (key : Key)
    (operation : Operation Id Addr) : Bool × LifecycleState Id Addr :=
  match leases.acquire state.now cfg.actionLeaseTimeout key with
  | (none, leases) => (false, put leases)
  | (some holder, leases) =>
      if cfg.maxConcurrentActions < (put leases).totalInFlight then
        (false, put (leases.releaseOwned key holder))
      else
        (true, { put leases with
          running := state.running ++ [(operation, holder)]
          dispatched := state.dispatched ++ [operation] })

def tryFundChannel (cfg : ChannelLifecycleConfig)
    (state : LifecycleState Id Addr) (channel : ChannelEntry Id Addr)
    (topup : HoprBalance) : Bool × LifecycleState Id Addr :=
  state.spawnLeased cfg state.fundInFlight
    (fun leases => { state with fundInFlight := leases }) channel.id
    (.fund channel.id topup)

def tryCloseChannel (cfg : ChannelLifecycleConfig)
    (state : LifecycleState Id Addr) (channel : ChannelEntry Id Addr) :
    Bool × LifecycleState Id Addr :=
  state.spawnLeased cfg state.closeInFlight
    (fun leases => { state with closeInFlight := leases }) channel.id
    (.close channel.id)

def tryFinalizeChannel (cfg : ChannelLifecycleConfig)
    (state : LifecycleState Id Addr) (channel : ChannelEntry Id Addr) :
    Bool × LifecycleState Id Addr :=
  state.spawnLeased cfg state.finalizeInFlight
    (fun leases => { state with finalizeInFlight := leases }) channel.id
    (.finalize channel.id)

def openNewChannel (cfg : ChannelLifecycleConfig)
    (state : LifecycleState Id Addr) (dest : Addr) (amount : HoprBalance) :
    Bool × LifecycleState Id Addr :=
  state.spawnLeased cfg state.openInFlight
    (fun leases => { state with openInFlight := leases }) dest
    (.open dest amount)

/-- What a dispatch has committed is taken off the remainder. -/
def spent (amount : HoprBalance) :
    Bool × LifecycleState Id Addr → LifecycleState Id Addr
  | (true, state) =>
      { state with safeRemaining := state.safeRemaining - amount }
  | (false, state) => state

/-! ## The open pass -/

/-- `try_open_channel` and the remainder after it.  `reread` is `none` when the
channel could not be re-read. -/
def tryOpenChannel (cfg : ChannelLifecycleConfig)
    (state : LifecycleState Id Addr) (dest : Addr)
    (funding : ResolvedFunding)
    (reread : Option (Option (ChannelEntry Id Addr))) :
    LifecycleState Id Addr :=
  let opening := spent funding.initialBalance
    (state.openNewChannel cfg dest funding.initialBalance)
  match reread with
  | some (some existing) =>
      match existing.status with
      | .open =>
          if funding.lowerBalanceThreshold ≤ existing.balance then state
          else if state.safeRemaining < funding.topupBalance then state
          else
            spent funding.topupBalance
              (state.tryFundChannel cfg existing funding.topupBalance)
      | .pendingToClose => state
      | .closed => opening
  | some none => opening
  | none => opening

def startOpening (cfg : ChannelLifecycleConfig)
    (state : LifecycleState Id Addr) : LifecycleState Id Addr :=
  let deficit := cfg.targetOpenChannels - state.openCount
  match state.tick.funding, state.tick.safe with
  | some funding, some _ =>
      if deficit = 0 || ! state.tick.peerMapKnown ||
          funding.initialBalance.isZero then
        { state with phase := .idle }
      else
        { state with phase := .opening (state.tick.opensRanked.take deficit) }
  | _, _ => { state with phase := .idle }

def openStep (cfg : ChannelLifecycleConfig) (state : LifecycleState Id Addr)
    (reread : Option (Option (ChannelEntry Id Addr))) :
    List Addr → LifecycleState Id Addr
  | [] => { state with phase := .idle }
  | dest :: rest =>
      match state.tick.funding with
      | none => { state with phase := .idle }
      | some funding =>
          if state.safeRemaining < funding.initialBalance then
            { state with phase := .idle }
          else
            { state.tryOpenChannel cfg dest funding reread with
              phase := .opening rest }

/-! ## The finalize pass -/

def startFinalizing (cfg : ChannelLifecycleConfig)
    (state : LifecycleState Id Addr) : LifecycleState Id Addr :=
  if cfg.finalizerEnabled then
    { state with
      phase := .finalizing state.tick.channels
        (state.finalizeInFlight.heldCount state.now) }
  else state.startOpening cfg

def finalizeStep (cfg : ChannelLifecycleConfig)
    (state : LifecycleState Id Addr) (finalizeCount : ℕ) :
    List (ChannelEntry Id Addr) → LifecycleState Id Addr
  | [] => state.startOpening cfg
  | channel :: rest =>
      if cfg.finalizeMaxConcurrent ≤ finalizeCount then state.startOpening cfg
      else if state.finalizeInFlight.isHeld state.now channel.id then
        { state with phase := .finalizing rest finalizeCount }
      else if channel.status = .pendingToClose ∧
          state.tick.overdue channel.id then
        let (submitted, after) := state.tryFinalizeChannel cfg channel
        { after with
          phase := .finalizing rest
            (if submitted then finalizeCount + 1 else finalizeCount) }
      else { state with phase := .finalizing rest finalizeCount }

/-! ## The consolidation pass -/

/-- Deferred by the fund pass, and without an action in flight. -/
def isFree (state : LifecycleState Id Addr) (channel : ChannelEntry Id Addr) :
    Bool :=
  channel.id ∈ state.deferredToConsolidation &&
    ! state.fundInFlight.isHeld state.now channel.id &&
    ! state.closeInFlight.isHeld state.now channel.id

/-- The stake of closures which have not reached the Safe yet. -/
def reclaiming (state : LifecycleState Id Addr) : HoprBalance :=
  (state.tick.channels.filter fun channel =>
    channel.status = .pendingToClose ||
      state.closeInFlight.isHeld state.now channel.id).foldl
    (fun total channel => total + channel.balance) HoprBalance.zero

def startConsolidation (cfg : ChannelLifecycleConfig)
    (state : LifecycleState Id Addr) : LifecycleState Id Addr :=
  match state.tick.funding, state.tick.safe with
  | some funding, some safe =>
      let underfunded := state.tick.openChannels.filter state.isFree
      if funding.faceValue.isZero || state.deferredToConsolidation.isEmpty ||
          underfunded.isEmpty then
        state.startFinalizing cfg
      else
        let closes :=
          if state.tick.startupPhase = .expired then
            consolidationCloses underfunded state.tick.rank safe.balance
              state.reclaiming funding.faceValue
          else some []
        match closes with
        | none => { state with phase := .crashed }
        | some closes =>
            { state with
              phase := .consolidating closes closes
                (state.closeInFlight.heldCount state.now) }
  | _, _ => state.startFinalizing cfg

def startToppingUp (state : LifecycleState Id Addr) (closes : List Id) :
    LifecycleState Id Addr :=
  { state with
    phase := .toppingUp
      ((state.tick.openChannels.filter fun channel =>
          state.isFree channel && channel.id ∉ closes).insertionSort
        fun a b => b.balance.wei ≤ a.balance.wei) }

def consolidateStep (cfg : ChannelLifecycleConfig)
    (state : LifecycleState Id Addr) (closes : List Id) (closeCount : ℕ) :
    List Id → LifecycleState Id Addr
  | [] => state.startToppingUp closes
  | id :: rest =>
      if cfg.closeMaxConcurrent ≤ closeCount then state.startToppingUp closes
      else
        match state.tick.channelById id with
        | none => { state with phase := .consolidating closes rest closeCount }
        | some channel =>
            let (submitted, after) := state.tryCloseChannel cfg channel
            { after with
              phase := .consolidating closes rest
                (if submitted then closeCount + 1 else closeCount) }

def topUpStep (cfg : ChannelLifecycleConfig) (state : LifecycleState Id Addr) :
    List (ChannelEntry Id Addr) → LifecycleState Id Addr
  | [] => state.startFinalizing cfg
  | channel :: rest =>
      match state.tick.funding with
      | none => state.startFinalizing cfg
      | some funding =>
          let topup := funding.faceValue - channel.balance
          if topup.isZero then { state with phase := .toppingUp rest }
          else if state.safeRemaining < topup then state.startFinalizing cfg
          else
            { spent topup (state.tryFundChannel cfg channel topup) with
              phase := .toppingUp rest }

/-! ## The close pass -/

def startClosing (cfg : ChannelLifecycleConfig)
    (state : LifecycleState Id Addr) : LifecycleState Id Addr :=
  if state.tick.startupPhase = .observing then state.startConsolidation cfg
  else
    { state with
      phase := .closing (state.tick.closesRanked ++
          state.tick.disconnected.filter (· ∉ state.tick.closesRanked))
        (state.closeInFlight.heldCount state.now) 0 }

def closeStep (cfg : ChannelLifecycleConfig) (state : LifecycleState Id Addr)
    (closeCount dispatchedThisTick : ℕ) : List Id → LifecycleState Id Addr
  | [] => state.startConsolidation cfg
  | id :: rest =>
      if cfg.closeMaxConcurrent ≤ closeCount ||
          state.tick.maxClosesPerTick.any (· ≤ dispatchedThisTick) ||
          state.openCount - closeCount ≤ cfg.minOpenChannels then
        state.startConsolidation cfg
      else
        let skipped :=
          { state with phase := .closing rest closeCount dispatchedThisTick }
        match state.tick.channelById id with
        | none => skipped
        | some channel =>
            if state.closeInFlight.isHeld state.now channel.id ||
                state.fundInFlight.isHeld state.now channel.id then skipped
            else if state.tick.startupPhase = .shieldingConnected ∧
                id ∉ state.tick.disconnected then skipped
            else
              let (submitted, after) := state.tryCloseChannel cfg channel
              { after with
                phase :=
                  if submitted
                    then .closing rest (closeCount + 1) (dispatchedThisTick + 1)
                    else .closing rest closeCount dispatchedThisTick }

/-! ## The fund pass -/

/-- The needy channels without an action in flight, neediest first. -/
def fundCandidates (cfg : ChannelLifecycleConfig)
    (state : LifecycleState Id Addr) (funding : ResolvedFunding) :
    List (ChannelEntry Id Addr) :=
  (state.tick.openChannels.filter fun channel =>
    ! state.fundInFlight.isHeld state.now channel.id &&
      ! state.closeInFlight.isHeld state.now channel.id &&
      state.tick.refundable cfg channel &&
      (channel.balance ≤ funding.lowerBalanceThreshold ||
        state.tick.proactive channel.id)).insertionSort
    fun a b => a.balance.wei ≤ b.balance.wei

/-- A full top-up, or else the whole winning tickets which the remainder can
still supply. -/
def fundAmount (funding : ResolvedFunding) (safeRemaining : HoprBalance) :
    HoprBalance :=
  if funding.topupBalance ≤ safeRemaining then funding.topupBalance
  else
    safeRemaining -
      HoprBalance.saturating (safeRemaining.wei % funding.faceValue.wei)

def startFunding (cfg : ChannelLifecycleConfig)
    (state : LifecycleState Id Addr) : LifecycleState Id Addr :=
  match state.tick.funding, state.tick.safe with
  | some funding, some safe =>
      let candidates := state.fundCandidates cfg funding
      let openDeficit := cfg.minOpenChannels - state.openCount
      let required :=
        funding.requiredSafeBalance candidates.length openDeficit
      if funding.topupBalance.isZero || funding.faceValue.isZero then
        state.startClosing cfg
      else
        { state with
          phase := .funding (safe.balance < required) candidates }
  | _, _ => state.startClosing cfg

def fundStep (cfg : ChannelLifecycleConfig) (state : LifecycleState Id Addr)
    (stranded : Bool) : List (ChannelEntry Id Addr) → LifecycleState Id Addr
  | [] => state.startClosing cfg
  | channel :: rest =>
      match state.tick.funding with
      | none => state.startClosing cfg
      | some funding =>
          if stranded && channel.balance < funding.faceValue then
            { state with
              deferredToConsolidation :=
                channel.id :: state.deferredToConsolidation
              phase := .funding stranded rest }
          else
            let amount := fundAmount funding state.safeRemaining
            if amount.isZero then state.startClosing cfg
            else
              { spent amount (state.tryFundChannel cfg channel amount) with
                phase := .funding stranded rest }

/-! ## The task -/

/-- The start of a tick, up to the fund pass. -/
def startTick (cfg : ChannelLifecycleConfig) (state : LifecycleState Id Addr)
    (inputs : TickInputs Id Addr) : LifecycleState Id Addr :=
  let openInFlight := state.openInFlight.sweep state.now
  startFunding cfg { state with
    openInFlight := openInFlight
    fundInFlight := state.fundInFlight.sweep state.now
    closeInFlight := state.closeInFlight.sweep state.now
    finalizeInFlight := state.finalizeInFlight.sweep state.now
    lastResolvedFunding := inputs.funding.or state.lastResolvedFunding
    tick := inputs
    openCount :=
      inputs.openChannels.length + openInFlight.heldCount state.now
    safeRemaining := inputs.spendable
    deferredToConsolidation := []
    dispatched := [] }

/-- The next step of the tick. -/
def work (cfg : ChannelLifecycleConfig) (state : LifecycleState Id Addr)
    (reread : Option (Option (ChannelEntry Id Addr))) :
    Option (LifecycleState Id Addr) :=
  match state.phase with
  | .idle => none
  | .funding stranded candidates =>
      some (state.fundStep cfg stranded candidates)
  | .closing candidates closeCount dispatchedThisTick =>
      some (state.closeStep cfg closeCount dispatchedThisTick candidates)
  | .consolidating closes remaining closeCount =>
      some (state.consolidateStep cfg closes closeCount remaining)
  | .toppingUp survivors => some (state.topUpStep cfg survivors)
  | .finalizing channels finalizeCount =>
      some (state.finalizeStep cfg finalizeCount channels)
  | .opening candidates => some (state.openStep cfg reread candidates)
  | .decreased _ _ | .crashed => none

/-- `on_balance_decreased`, up to the read of the safe balance. -/
def onBalanceDecreased (state : LifecycleState Id Addr)
    (channel : ChannelEntry Id Addr) : LifecycleState Id Addr :=
  if channel.status ≠ .open then state
  else if state.fundInFlight.isHeld state.now channel.id then state
  else
    match state.lastResolvedFunding with
    | none => state
    | some funding =>
        if channel.balance < funding.lowerBalanceThreshold then
          { state with phase := .decreased channel funding }
        else state

/-- The rest of it. -/
def onBudget (cfg : ChannelLifecycleConfig) (state : LifecycleState Id Addr)
    (channel : ChannelEntry Id Addr) (funding : ResolvedFunding) :
    Option SafeBudget → LifecycleState Id Addr
  | none => { state with phase := .idle }
  | some budget =>
      if ! funding.topupBalance.isZero &&
          funding.topupBalance ≤ budget.spendable then
        -- It is no dispatch of the tick before it.
        { (state.tryFundChannel cfg channel funding.topupBalance).2 with
          phase := .idle
          dispatched := state.dispatched }
      else { state with phase := .idle }

/-- A spawned operation releases the slot which it holds. -/
def reported (state : LifecycleState Id Addr) (operation : Operation Id Addr)
    (holder : UInt64) : LifecycleState Id Addr :=
  match operation with
  | .open dest _ =>
      { state with
        openInFlight := state.openInFlight.releaseOwned dest holder }
  | .fund id _ =>
      { state with fundInFlight := state.fundInFlight.releaseOwned id holder }
  | .close id =>
      { state with
        closeInFlight := state.closeInFlight.releaseOwned id holder }
  | .finalize id =>
      { state with
        finalizeInFlight := state.finalizeInFlight.releaseOwned id holder }

def next (cfg : ChannelLifecycleConfig) (state : LifecycleState Id Addr) :
    LifecycleAction Id Addr → Option (LifecycleState Id Addr)
  | .pass now =>
      if state.now ≤ now then some { state with now := now } else none
  | .tick inputs =>
      match state.phase with
      | .idle => some (state.startTick cfg inputs)
      | _ => none
  | .work reread => state.work cfg reread
  | .balanceDecreased channel =>
      match state.phase with
      | .idle => some (state.onBalanceDecreased channel)
      | _ => none
  | .budget safe =>
      match state.phase with
      | .decreased channel funding =>
          some (state.onBudget cfg channel funding safe)
      | _ => none
  | .balanceIncreased id =>
      match state.phase with
      | .idle =>
          some { state with fundInFlight := state.fundInFlight.release id }
      | _ => none
  | .channelOpened destination =>
      match state.phase with
      | .idle =>
          some { state with
            openInFlight := state.openInFlight.release destination }
      | _ => none
  | .closureInitiated id =>
      match state.phase with
      | .idle =>
          some { state with closeInFlight := state.closeInFlight.release id }
      | _ => none
  | .channelClosed id =>
      match state.phase with
      | .idle =>
          some { state with
            finalizeInFlight := state.finalizeInFlight.release id }
      | _ => none
  | .report index =>
      match state.running[index]? with
      | some (operation, holder) =>
          some { state.reported operation holder with
            running := state.running.eraseIdx index }
      | none => none

end LifecycleState

def lifecycleInputs : TickInputs Id Addr where
  channels := []
  funding := none
  safe := none
  worthKeeping _ := false
  proactive _ := false
  startupPhase := .observing
  closesRanked := []
  disconnected := []
  maxClosesPerTick := none
  rank _ := 0
  overdue _ := false
  peerMapKnown := false
  opensRanked := []

def LifecycleState.initial : LifecycleState Id Addr where
  now := 0
  openInFlight := .empty
  fundInFlight := .empty
  closeInFlight := .empty
  finalizeInFlight := .empty
  lastResolvedFunding := none
  running := []
  phase := .idle
  tick := lifecycleInputs
  openCount := 0
  safeRemaining := HoprBalance.zero
  deferredToConsolidation := []
  dispatched := []

def channelLifecycle (cfg : ChannelLifecycleConfig) :
    TransitionSystem (LifecycleState Id Addr) (LifecycleAction Id Addr) where
  init state := state = LifecycleState.initial
  next := LifecycleState.next cfg

end HoprStrategy.ChannelLifecycle
