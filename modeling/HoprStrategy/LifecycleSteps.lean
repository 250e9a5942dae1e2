import HoprStrategy.ChannelTick

/-!
# What a step of the channel lifecycle does

The strategy's task tries at most one operation at a step.  Everything else it
does leaves the leases and the running operations alone, apart from the sweep
of expired leases at the start of a tick.
-/

namespace HoprStrategy.ChannelLifecycle

open Library

variable {Id Addr : Type} [DecidableEq Id] [DecidableEq Addr]

namespace LifecycleState

/-- The leases of all kinds and the running operations are the same. -/
structure Untouched (before after : LifecycleState Id Addr) : Prop where
  now : after.now = before.now
  openInFlight : after.openInFlight = before.openInFlight
  fundInFlight : after.fundInFlight = before.fundInFlight
  closeInFlight : after.closeInFlight = before.closeInFlight
  finalizeInFlight : after.finalizeInFlight = before.finalizeInFlight
  running : after.running = before.running

/-- The live leases of all kinds are the same. -/
structure SameLive (before after : LifecycleState Id Addr) : Prop where
  opens : after.openInFlight.live after.now =
    before.openInFlight.live before.now
  funds : after.fundInFlight.live after.now =
    before.fundInFlight.live before.now
  closes : after.closeInFlight.live after.now =
    before.closeInFlight.live before.now
  finalizes : after.finalizeInFlight.live after.now =
    before.finalizeInFlight.live before.now

def swept (state : LifecycleState Id Addr) : LifecycleState Id Addr :=
  { state with
    openInFlight := state.openInFlight.sweep state.now
    fundInFlight := state.fundInFlight.sweep state.now
    closeInFlight := state.closeInFlight.sweep state.now
    finalizeInFlight := state.finalizeInFlight.sweep state.now }

/-- The dispatch of an operation of any kind. -/
def tryOperation (cfg : ChannelLifecycleConfig)
    (state : LifecycleState Id Addr) (operation : Operation Id Addr) :
    Bool × LifecycleState Id Addr :=
  match operation with
  | .open dest amount => state.openNewChannel cfg dest amount
  | .fund id amount =>
      state.spawnLeased cfg state.fundInFlight
        (fun leases => { state with fundInFlight := leases }) id
        (.fund id amount)
  | .close id =>
      state.spawnLeased cfg state.closeInFlight
        (fun leases => { state with closeInFlight := leases }) id (.close id)
  | .finalize id =>
      state.spawnLeased cfg state.finalizeInFlight
        (fun leases => { state with finalizeInFlight := leases }) id
        (.finalize id)

/-- A tick which has read the channel list, before its fund pass. -/
def snapshot (state : LifecycleState Id Addr) (inputs : TickInputs Id Addr) :
    LifecycleState Id Addr :=
  { state.swept with
    lastResolvedFunding := inputs.funding.or state.lastResolvedFunding
    tick := inputs
    openCount := inputs.openChannels.length +
      (state.openInFlight.sweep state.now).heldCount state.now
    safeRemaining := inputs.spendable
    deferredToConsolidation := []
    dispatched := [] }

omit [DecidableEq Addr] in
theorem startTick_eq (cfg : ChannelLifecycleConfig)
    (state : LifecycleState Id Addr) (inputs : TickInputs Id Addr) :
    state.startTick cfg inputs = (state.snapshot inputs).startFunding cfg :=
  rfl

variable {cfg : ChannelLifecycleConfig}
  {state before middle after : LifecycleState Id Addr}

section

omit [DecidableEq Id] [DecidableEq Addr]

theorem Untouched.refl (state : LifecycleState Id Addr) :
    Untouched state state :=
  ⟨rfl, rfl, rfl, rfl, rfl, rfl⟩

theorem Untouched.trans (hfirst : Untouched before middle)
    (hsecond : Untouched middle after) : Untouched before after :=
  ⟨hsecond.now.trans hfirst.now,
    hsecond.openInFlight.trans hfirst.openInFlight,
    hsecond.fundInFlight.trans hfirst.fundInFlight,
    hsecond.closeInFlight.trans hfirst.closeInFlight,
    hsecond.finalizeInFlight.trans hfirst.finalizeInFlight,
    hsecond.running.trans hfirst.running⟩

theorem Untouched.phase (hsame : Untouched before after)
    (phase : TaskPhase Id Addr) :
    Untouched before { after with phase := phase } :=
  ⟨hsame.now, hsame.openInFlight, hsame.fundInFlight, hsame.closeInFlight,
    hsame.finalizeInFlight, hsame.running⟩

theorem Untouched.sameLive (hsame : Untouched before after) :
    SameLive before after := by
  constructor
  · rw [hsame.openInFlight, hsame.now]
  · rw [hsame.fundInFlight, hsame.now]
  · rw [hsame.closeInFlight, hsame.now]
  · rw [hsame.finalizeInFlight, hsame.now]

theorem SameLive.trans (hfirst : SameLive before middle)
    (hsecond : SameLive middle after) : SameLive before after :=
  ⟨hsecond.opens.trans hfirst.opens, hsecond.funds.trans hfirst.funds,
    hsecond.closes.trans hfirst.closes,
    hsecond.finalizes.trans hfirst.finalizes⟩

theorem SameLive.totalInFlight (hsame : SameLive before after) :
    after.totalInFlight = before.totalInFlight := by
  simp only [LifecycleState.totalInFlight,
    ActionLeases.heldCount_eq_length_live]
  rw [hsame.opens, hsame.funds, hsame.closes, hsame.finalizes]

theorem swept_sameLive (state : LifecycleState Id Addr) :
    SameLive state state.swept :=
  ⟨ActionLeases.live_sweep, ActionLeases.live_sweep, ActionLeases.live_sweep,
    ActionLeases.live_sweep⟩

theorem spent_untouched (amount : HoprBalance)
    (result : Bool × LifecycleState Id Addr) :
    Untouched result.2 (spent amount result) := by
  rcases result with ⟨submitted, after⟩
  cases submitted with
  | true => exact ⟨rfl, rfl, rfl, rfl, rfl, rfl⟩
  | false => exact .refl after

/-! ## Dispatches -/

/-- A refused dispatch leaves the live leases, and another one finds the slot
free and stays within the budget. -/
theorem spawnLeased_cases {Key : Type} [DecidableEq Key]
    (cfg : ChannelLifecycleConfig) (state : LifecycleState Id Addr)
    (leases : ActionLeases Key)
    (put : ActionLeases Key → LifecycleState Id Addr) (key : Key)
    (operation : Operation Id Addr) :
    (∃ written, state.spawnLeased cfg leases put key operation =
        (false, put written) ∧
        written.live state.now = leases.live state.now ∧
        leases.nextHolder ≤ written.nextHolder) ∨
      (leases.isHeld state.now key = false ∧
        (put (leases.acquire state.now cfg.actionLeaseTimeout key).2
          ).totalInFlight ≤ cfg.maxConcurrentActions ∧
        state.spawnLeased cfg leases put key operation =
          (true, { put (leases.acquire state.now cfg.actionLeaseTimeout
              key).2 with
            running := state.running ++
              [(operation, UInt64.ofNat leases.nextHolder)]
            dispatched := state.dispatched ++ [operation] })) := by
  unfold spawnLeased
  by_cases hheld : leases.isHeld state.now key = true
  · rw [ActionLeases.acquire_of_held hheld]
    exact Or.inl ⟨_, rfl, rfl, Nat.le_succ _⟩
  · have hfree := Bool.eq_false_of_not_eq_true hheld
    have hreleased := @ActionLeases.live_releaseOwned_acquire _ _ leases
      state.now key cfg.actionLeaseTimeout hfree
    have hholder : (leases.acquire state.now cfg.actionLeaseTimeout key).1 =
        some (UInt64.ofNat leases.nextHolder) := by
      rw [ActionLeases.acquire_of_free hfree]
    have hnext : (leases.acquire state.now cfg.actionLeaseTimeout key
        ).2.nextHolder = leases.nextHolder + 1 := by
      rw [ActionLeases.acquire_of_free hfree]
    cases hacquire : leases.acquire state.now cfg.actionLeaseTimeout key with
    | mk holder granted =>
        rw [hacquire] at hholder hreleased hnext
        dsimp only at hholder hreleased hnext
        subst hholder
        dsimp only
        by_cases hover : cfg.maxConcurrentActions < (put granted).totalInFlight
        · rw [if_pos hover]
          exact Or.inl ⟨_, rfl, hreleased,
            (Nat.le_succ _).trans hnext.ge⟩
        · rw [if_neg hover]
          exact Or.inr ⟨hfree, Nat.le_of_not_lt hover, rfl⟩

end

/-- What the dispatch of an operation which was not refused does. -/
inductive Dispatched (cfg : ChannelLifecycleConfig)
    (before : LifecycleState Id Addr) :
    Operation Id Addr → LifecycleState Id Addr → Prop
  | open {dest : Addr} {amount : HoprBalance}
      (hfree : before.openInFlight.isHeld before.now dest = false) :
      Dispatched cfg before (.open dest amount) { before with
        openInFlight := (before.openInFlight.acquire before.now
          cfg.actionLeaseTimeout dest).2
        running := before.running ++
          [(.open dest amount, .ofNat before.openInFlight.nextHolder)]
        dispatched := before.dispatched ++ [.open dest amount] }
  | fund {id : Id} {amount : HoprBalance}
      (hfree : before.fundInFlight.isHeld before.now id = false) :
      Dispatched cfg before (.fund id amount) { before with
        fundInFlight := (before.fundInFlight.acquire before.now
          cfg.actionLeaseTimeout id).2
        running := before.running ++
          [(.fund id amount, .ofNat before.fundInFlight.nextHolder)]
        dispatched := before.dispatched ++ [.fund id amount] }
  | close {id : Id}
      (hfree : before.closeInFlight.isHeld before.now id = false) :
      Dispatched cfg before (.close id) { before with
        closeInFlight := (before.closeInFlight.acquire before.now
          cfg.actionLeaseTimeout id).2
        running := before.running ++
          [(.close id, .ofNat before.closeInFlight.nextHolder)]
        dispatched := before.dispatched ++ [.close id] }
  | finalize {id : Id}
      (hfree : before.finalizeInFlight.isHeld before.now id = false) :
      Dispatched cfg before (.finalize id) { before with
        finalizeInFlight := (before.finalizeInFlight.acquire before.now
          cfg.actionLeaseTimeout id).2
        running := before.running ++
          [(.finalize id, .ofNat before.finalizeInFlight.nextHolder)]
        dispatched := before.dispatched ++ [.finalize id] }

/-- Attempts are numbered from the last one on. -/
structure HoldersGrow (before after : LifecycleState Id Addr) : Prop where
  opens : before.openInFlight.nextHolder ≤ after.openInFlight.nextHolder
  funds : before.fundInFlight.nextHolder ≤ after.fundInFlight.nextHolder
  closes : before.closeInFlight.nextHolder ≤ after.closeInFlight.nextHolder
  finalizes : before.finalizeInFlight.nextHolder ≤
    after.finalizeInFlight.nextHolder

structure Refused (before after : LifecycleState Id Addr) : Prop where
  live : SameLive before after
  holders : HoldersGrow before after
  running : after.running = before.running
  now : after.now = before.now

/-- An operation which is tried is refused, or dispatched within the budget. -/
theorem tryOperation_cases (cfg : ChannelLifecycleConfig)
    (state : LifecycleState Id Addr) (operation : Operation Id Addr) :
    ((state.tryOperation cfg operation).1 = false ∧
        Refused state (state.tryOperation cfg operation).2) ∨
      ((state.tryOperation cfg operation).1 = true ∧
        Dispatched cfg state operation (state.tryOperation cfg operation).2 ∧
        (state.tryOperation cfg operation).2.totalInFlight ≤
          cfg.maxConcurrentActions) := by
  cases operation with
  | «open» dest amount =>
      rcases spawnLeased_cases cfg state state.openInFlight
        (fun leases => { state with openInFlight := leases }) dest
        (.open dest amount) with
        ⟨written, heq, hlive, hholder⟩ | ⟨hfree, hbudget, heq⟩
      · dsimp only [tryOperation, openNewChannel]
        rw [heq]
        exact Or.inl ⟨rfl, ⟨hlive, rfl, rfl, rfl⟩,
          ⟨hholder, le_rfl, le_rfl, le_rfl⟩, rfl, rfl⟩
      · dsimp only [tryOperation, openNewChannel]
        rw [heq]
        exact Or.inr ⟨rfl, .open hfree, hbudget⟩
  | fund id amount =>
      rcases spawnLeased_cases cfg state state.fundInFlight
        (fun leases => { state with fundInFlight := leases }) id
        (.fund id amount) with
        ⟨written, heq, hlive, hholder⟩ | ⟨hfree, hbudget, heq⟩
      · dsimp only [tryOperation]
        rw [heq]
        exact Or.inl ⟨rfl, ⟨rfl, hlive, rfl, rfl⟩,
          ⟨le_rfl, hholder, le_rfl, le_rfl⟩, rfl, rfl⟩
      · dsimp only [tryOperation]
        rw [heq]
        exact Or.inr ⟨rfl, .fund hfree, hbudget⟩
  | close id =>
      rcases spawnLeased_cases cfg state state.closeInFlight
        (fun leases => { state with closeInFlight := leases }) id
        (.close id) with
        ⟨written, heq, hlive, hholder⟩ | ⟨hfree, hbudget, heq⟩
      · dsimp only [tryOperation]
        rw [heq]
        exact Or.inl ⟨rfl, ⟨rfl, rfl, hlive, rfl⟩,
          ⟨le_rfl, le_rfl, hholder, le_rfl⟩, rfl, rfl⟩
      · dsimp only [tryOperation]
        rw [heq]
        exact Or.inr ⟨rfl, .close hfree, hbudget⟩
  | finalize id =>
      rcases spawnLeased_cases cfg state state.finalizeInFlight
        (fun leases => { state with finalizeInFlight := leases }) id
        (.finalize id) with
        ⟨written, heq, hlive, hholder⟩ | ⟨hfree, hbudget, heq⟩
      · dsimp only [tryOperation]
        rw [heq]
        exact Or.inl ⟨rfl, ⟨rfl, rfl, rfl, hlive⟩,
          ⟨le_rfl, le_rfl, le_rfl, hholder⟩, rfl, rfl⟩
      · dsimp only [tryOperation]
        rw [heq]
        exact Or.inr ⟨rfl, .finalize hfree, hbudget⟩

/-! ## The starts of the passes -/

end LifecycleState

/-- The phases which a later pass starts in. -/
def TaskPhase.AfterFunding : TaskPhase Id Addr → Prop
  | .funding _ _ | .toppingUp _ | .decreased _ _ => False
  | _ => True

namespace LifecycleState

variable {cfg : ChannelLifecycleConfig}
  {state before middle after : LifecycleState Id Addr}

section

omit [DecidableEq Addr]

omit [DecidableEq Id] in
theorem startOpening_phase : ∃ phase : TaskPhase Id Addr,
    state.startOpening cfg = { state with phase := phase } ∧
      phase.AfterFunding := by
  unfold startOpening
  dsimp only
  split
  · split
    · exact ⟨_, rfl, trivial⟩
    · exact ⟨_, rfl, trivial⟩
  · exact ⟨_, rfl, trivial⟩

omit [DecidableEq Id] in
theorem startFinalizing_phase : ∃ phase : TaskPhase Id Addr,
    state.startFinalizing cfg = { state with phase := phase } ∧
      phase.AfterFunding := by
  unfold startFinalizing
  split
  · exact ⟨_, rfl, trivial⟩
  · exact startOpening_phase

theorem startConsolidation_phase : ∃ phase : TaskPhase Id Addr,
    state.startConsolidation cfg = { state with phase := phase } ∧
      phase.AfterFunding := by
  unfold startConsolidation
  dsimp only
  split
  · split
    · exact startFinalizing_phase
    · split
      · exact ⟨_, rfl, trivial⟩
      · exact ⟨_, rfl, trivial⟩
  · exact startFinalizing_phase

theorem startClosing_phase : ∃ phase : TaskPhase Id Addr,
    state.startClosing cfg = { state with phase := phase } ∧
      phase.AfterFunding := by
  unfold startClosing
  split
  · exact startConsolidation_phase
  · exact ⟨_, rfl, trivial⟩

theorem startFunding_phase : ∃ phase : TaskPhase Id Addr,
    state.startFunding cfg = { state with phase := phase } := by
  unfold startFunding
  dsimp only
  split
  · split
    · obtain ⟨phase, heq, _⟩ := @startClosing_phase _ _ _ cfg state
      exact ⟨phase, heq⟩
    · exact ⟨_, rfl⟩
  · obtain ⟨phase, heq, _⟩ := @startClosing_phase _ _ _ cfg state
    exact ⟨phase, heq⟩

omit [DecidableEq Id] in
theorem untouched_of_phase
    (hphase : ∃ phase, after = { before with phase := phase }) :
    Untouched before after := by
  obtain ⟨phase, heq⟩ := hphase
  rw [heq]
  exact (Untouched.refl before).phase phase

omit [DecidableEq Id] in
theorem startOpening_untouched : Untouched state (state.startOpening cfg) :=
  untouched_of_phase (startOpening_phase.imp fun _ => And.left)

omit [DecidableEq Id] in
theorem startFinalizing_untouched :
    Untouched state (state.startFinalizing cfg) :=
  untouched_of_phase (startFinalizing_phase.imp fun _ => And.left)

theorem startConsolidation_untouched :
    Untouched state (state.startConsolidation cfg) :=
  untouched_of_phase (startConsolidation_phase.imp fun _ => And.left)

theorem startClosing_untouched : Untouched state (state.startClosing cfg) :=
  untouched_of_phase (startClosing_phase.imp fun _ => And.left)

theorem startFunding_untouched : Untouched state (state.startFunding cfg) :=
  untouched_of_phase startFunding_phase

end

/-! ## The steps of the task -/

/-- The task touches nothing, sweeps the leases, or tries one operation. -/
inductive Acted (cfg : ChannelLifecycleConfig)
    (before after : LifecycleState Id Addr) : Prop where
  | untouched (hsame : Untouched before after)
  | swept (hsame : Untouched before.swept after)
  | tried (operation : Operation Id Addr)
      (hsame : Untouched (before.tryOperation cfg operation).2 after)

/-- What a step of the tick does: it moves on and may defer a channel, or it
tries one operation and may take its amount off the remainder. -/
inductive WorkStep (cfg : ChannelLifecycleConfig)
    (before : LifecycleState Id Addr) : LifecycleState Id Addr → Prop where
  | moved (phase : TaskPhase Id Addr) (deferred : List Id) :
      WorkStep cfg before { before with
        phase := phase
        deferredToConsolidation := deferred }
  | tried (operation : Operation Id Addr) (phase : TaskPhase Id Addr) :
      WorkStep cfg before
        { (before.tryOperation cfg operation).2 with phase := phase }
  | paid (operation : Operation Id Addr) (amount : HoprBalance)
      (phase : TaskPhase Id Addr) :
      WorkStep cfg before
        { spent amount (before.tryOperation cfg operation) with
          phase := phase }

theorem workStep_of_phase
    (hphase : ∃ phase, after = { before with phase := phase }) :
    WorkStep cfg before after := by
  obtain ⟨phase, heq⟩ := hphase
  rw [heq]
  exact .moved phase before.deferredToConsolidation

theorem workStep_phase (phase : TaskPhase Id Addr) :
    WorkStep cfg before { before with phase := phase } :=
  workStep_of_phase ⟨phase, rfl⟩

theorem startOpening_workStep : WorkStep cfg state (state.startOpening cfg) :=
  workStep_of_phase (startOpening_phase.imp fun _ => And.left)

theorem startFinalizing_workStep :
    WorkStep cfg state (state.startFinalizing cfg) :=
  workStep_of_phase (startFinalizing_phase.imp fun _ => And.left)

theorem startConsolidation_workStep :
    WorkStep cfg state (state.startConsolidation cfg) :=
  workStep_of_phase (startConsolidation_phase.imp fun _ => And.left)

theorem startClosing_workStep : WorkStep cfg state (state.startClosing cfg) :=
  workStep_of_phase (startClosing_phase.imp fun _ => And.left)

theorem fundStep_workStep (stranded : Bool)
    (candidates : List (ChannelEntry Id Addr)) :
    WorkStep cfg state (state.fundStep cfg stranded candidates) := by
  cases candidates with
  | nil => exact startClosing_workStep
  | cons channel rest =>
      simp only [fundStep]
      split
      · exact startClosing_workStep
      · split
        · exact .moved _ _
        · split
          · exact startClosing_workStep
          · exact .paid (.fund channel.id _) _ _

theorem closeStep_workStep (closeCount dispatchedThisTick : ℕ)
    (candidates : List Id) :
    WorkStep cfg state
      (state.closeStep cfg closeCount dispatchedThisTick candidates) := by
  cases candidates with
  | nil => exact startConsolidation_workStep
  | cons id rest =>
      simp only [closeStep]
      split
      · exact startConsolidation_workStep
      · split
        · exact workStep_phase _
        · rename_i channel _
          split
          · exact workStep_phase _
          · split
            · exact workStep_phase _
            · exact .tried (.close channel.id) _

theorem consolidateStep_workStep (closes remaining : List Id)
    (closeCount : ℕ) :
    WorkStep cfg state
      (state.consolidateStep cfg closes closeCount remaining) := by
  cases remaining with
  | nil => exact workStep_phase _
  | cons id rest =>
      simp only [consolidateStep]
      split
      · exact workStep_phase _
      · split
        · exact workStep_phase _
        · rename_i channel _
          exact .tried (.close channel.id) _

theorem topUpStep_workStep (survivors : List (ChannelEntry Id Addr)) :
    WorkStep cfg state (state.topUpStep cfg survivors) := by
  cases survivors with
  | nil => exact startFinalizing_workStep
  | cons channel rest =>
      simp only [topUpStep]
      split
      · exact startFinalizing_workStep
      · split
        · exact workStep_phase _
        · split
          · exact startFinalizing_workStep
          · exact .paid (.fund channel.id _) _ _

theorem finalizeStep_workStep (finalizeCount : ℕ)
    (channels : List (ChannelEntry Id Addr)) :
    WorkStep cfg state (state.finalizeStep cfg finalizeCount channels) := by
  cases channels with
  | nil => exact startOpening_workStep
  | cons channel rest =>
      simp only [finalizeStep]
      split
      · exact startOpening_workStep
      · split
        · exact workStep_phase _
        · split
          · exact .tried (.finalize channel.id) _
          · exact workStep_phase _

theorem tryOpenChannel_workStep (dest : Addr) (funding : ResolvedFunding)
    (reread : Option (Option (ChannelEntry Id Addr)))
    (phase : TaskPhase Id Addr) :
    WorkStep cfg state
      { state.tryOpenChannel cfg dest funding reread with
        phase := phase } := by
  have hopening : WorkStep cfg state
      { spent funding.initialBalance
          (state.openNewChannel cfg dest funding.initialBalance) with
        phase := phase } :=
    .paid (.open dest funding.initialBalance) _ _
  unfold tryOpenChannel
  split
  · rename_i existing
    split
    · split
      · exact workStep_phase _
      · split
        · exact workStep_phase _
        · exact .paid (.fund existing.id _) _ _
    · exact workStep_phase _
    · exact hopening
  · exact hopening
  · exact hopening

theorem openStep_workStep (reread : Option (Option (ChannelEntry Id Addr)))
    (candidates : List Addr) :
    WorkStep cfg state (state.openStep cfg reread candidates) := by
  cases candidates with
  | nil => exact workStep_phase _
  | cons dest rest =>
      simp only [openStep]
      split
      · exact workStep_phase _
      · split
        · exact workStep_phase _
        · exact tryOpenChannel_workStep dest _ reread _

theorem work_workStep (reread : Option (Option (ChannelEntry Id Addr)))
    (hwork : state.work cfg reread = some after) :
    WorkStep cfg state after := by
  unfold work at hwork
  split at hwork
  · cases hwork
  · cases hwork
    exact fundStep_workStep _ _
  · cases hwork
    exact closeStep_workStep _ _ _
  · cases hwork
    exact consolidateStep_workStep _ _ _
  · cases hwork
    exact topUpStep_workStep _
  · cases hwork
    exact finalizeStep_workStep _ _
  · cases hwork
    exact openStep_workStep _ _
  · cases hwork
  · cases hwork

theorem WorkStep.acted (hstep : WorkStep cfg before after) :
    Acted cfg before after := by
  cases hstep with
  | moved => exact .untouched ⟨rfl, rfl, rfl, rfl, rfl, rfl⟩
  | tried operation phase =>
      exact .tried operation ((Untouched.refl _).phase phase)
  | paid operation amount phase =>
      exact .tried operation ((spent_untouched amount _).phase phase)

theorem startTick_acted (inputs : TickInputs Id Addr) :
    Acted cfg state (state.startTick cfg inputs) := by
  refine .swept (Untouched.trans ?_ startFunding_untouched)
  exact ⟨rfl, rfl, rfl, rfl, rfl, rfl⟩

theorem onBalanceDecreased_acted (channel : ChannelEntry Id Addr) :
    Acted cfg state (state.onBalanceDecreased channel) := by
  unfold onBalanceDecreased
  split
  · exact .untouched (.refl state)
  · split
    · exact .untouched (.refl state)
    · split
      · exact .untouched (.refl state)
      · split
        · exact .untouched ((Untouched.refl state).phase _)
        · exact .untouched (.refl state)

theorem onBudget_acted (channel : ChannelEntry Id Addr)
    (funding : ResolvedFunding) (safe : Option SafeBudget) :
    Acted cfg state (state.onBudget cfg channel funding safe) := by
  unfold onBudget
  split
  · exact .untouched ((Untouched.refl state).phase _)
  · split
    · exact .tried (.fund channel.id funding.topupBalance)
        ⟨rfl, rfl, rfl, rfl, rfl, rfl⟩
    · exact .untouched ((Untouched.refl state).phase _)

end LifecycleState

/-- The steps which the strategy's task takes by itself. -/
def LifecycleAction.IsTask : LifecycleAction Id Addr → Prop
  | .tick _ | .work _ | .balanceDecreased _ | .budget _ => True
  | _ => False

theorem LifecycleState.next_acted {cfg : ChannelLifecycleConfig}
    {before after : LifecycleState Id Addr} {action : LifecycleAction Id Addr}
    (htask : action.IsTask) (hnext : next cfg before action = some after) :
    Acted cfg before after := by
  cases action with
  | tick inputs =>
      simp only [next] at hnext
      split at hnext
      · cases hnext
        exact startTick_acted inputs
      · cases hnext
  | work reread => exact (work_workStep reread hnext).acted
  | balanceDecreased channel =>
      simp only [next] at hnext
      split at hnext
      · cases hnext
        exact onBalanceDecreased_acted channel
      · cases hnext
  | budget safe =>
      simp only [next] at hnext
      split at hnext
      · cases hnext
        exact onBudget_acted _ _ safe
      · cases hnext
  | pass => exact htask.elim
  | balanceIncreased => exact htask.elim
  | channelOpened => exact htask.elim
  | closureInitiated => exact htask.elim
  | channelClosed => exact htask.elim
  | report => exact htask.elim

/-! ## What a tick has read -/

namespace LifecycleState

variable {cfg : ChannelLifecycleConfig}
  {state before middle after : LifecycleState Id Addr}

/-- The inputs of the tick and the count which it took at its start. -/
structure SameTick (before after : LifecycleState Id Addr) : Prop where
  tick : after.tick = before.tick
  openCount : after.openCount = before.openCount

omit [DecidableEq Id] [DecidableEq Addr] in
theorem SameTick.phase (hsame : SameTick before after)
    (phase : TaskPhase Id Addr) :
    SameTick before { after with phase := phase } :=
  ⟨hsame.tick, hsame.openCount⟩

omit [DecidableEq Id] [DecidableEq Addr] in
theorem spawnLeased_sameTick {Key : Type} [DecidableEq Key]
    {leases : ActionLeases Key}
    {put : ActionLeases Key → LifecycleState Id Addr} {key : Key}
    {operation : Operation Id Addr}
    (hput : ∀ leases, SameTick state (put leases)) :
    SameTick state (state.spawnLeased cfg leases put key operation).2 := by
  unfold spawnLeased
  split
  · exact hput _
  · split
    · exact hput _
    · rename_i granted _ _
      exact ⟨(hput granted).tick, (hput granted).openCount⟩

theorem tryOperation_sameTick (operation : Operation Id Addr) :
    SameTick state (state.tryOperation cfg operation).2 := by
  cases operation with
  | «open» => exact spawnLeased_sameTick fun _ => ⟨rfl, rfl⟩
  | fund => exact spawnLeased_sameTick fun _ => ⟨rfl, rfl⟩
  | close => exact spawnLeased_sameTick fun _ => ⟨rfl, rfl⟩
  | finalize => exact spawnLeased_sameTick fun _ => ⟨rfl, rfl⟩

omit [DecidableEq Id] [DecidableEq Addr] in
theorem spent_sameTick (amount : HoprBalance)
    {result : Bool × LifecycleState Id Addr} (hsame : SameTick state result.2) :
    SameTick state (spent amount result) := by
  rcases result with ⟨submitted, after⟩
  cases submitted with
  | true => exact ⟨hsame.tick, hsame.openCount⟩
  | false => exact hsame

omit [DecidableEq Addr] in
theorem startFunding_sameTick : SameTick state (state.startFunding cfg) := by
  obtain ⟨phase, heq⟩ := @startFunding_phase _ _ _ cfg state
  rw [heq]
  exact ⟨rfl, rfl⟩

theorem WorkStep.sameTick (hstep : WorkStep cfg before after) :
    SameTick before after := by
  cases hstep with
  | moved => exact ⟨rfl, rfl⟩
  | tried operation phase =>
      exact (tryOperation_sameTick operation).phase phase
  | paid operation amount phase =>
      exact (spent_sameTick amount (tryOperation_sameTick operation)).phase
        phase

/-! ## What a step sends -/

structure Sends (before after : LifecycleState Id Addr)
    (operations : List (Operation Id Addr)) : Prop where
  tick : after.tick = before.tick
  deferred : after.deferredToConsolidation = before.deferredToConsolidation
  dispatched : after.dispatched = before.dispatched ++ operations

omit [DecidableEq Id] [DecidableEq Addr] in
theorem Sends.refl (state : LifecycleState Id Addr) : Sends state state [] :=
  ⟨rfl, rfl, (List.append_nil _).symm⟩

omit [DecidableEq Id] [DecidableEq Addr] in
theorem Sends.phase {operations : List (Operation Id Addr)}
    (hsends : Sends before after operations) (phase : TaskPhase Id Addr) :
    Sends before { after with phase := phase } operations :=
  ⟨hsends.tick, hsends.deferred, hsends.dispatched⟩

omit [DecidableEq Id] [DecidableEq Addr] in
theorem sends_of_phase
    (hphase : ∃ phase, after = { before with phase := phase }) :
    Sends before after [] := by
  obtain ⟨phase, heq⟩ := hphase
  rw [heq]
  exact (Sends.refl before).phase phase

omit [DecidableEq Id] [DecidableEq Addr] in
theorem spawnLeased_sends {Key : Type} [DecidableEq Key]
    {leases : ActionLeases Key}
    {put : ActionLeases Key → LifecycleState Id Addr} {key : Key}
    {operation : Operation Id Addr} (hput : ∀ leases, Sends state (put leases) []) :
    Sends state (state.spawnLeased cfg leases put key operation).2
      (if (state.spawnLeased cfg leases put key operation).1
        then [operation] else []) := by
  rcases spawnLeased_cases cfg state leases put key operation with
    ⟨written, heq, _⟩ | ⟨_, _, heq⟩
  · rw [heq]
    exact hput written
  · rw [heq]
    exact ⟨(hput _).tick, (hput _).deferred, rfl⟩

theorem tryOperation_sends (operation : Operation Id Addr) :
    Sends state (state.tryOperation cfg operation).2
      (if (state.tryOperation cfg operation).1 then [operation] else []) := by
  have hnone := (List.append_nil state.dispatched).symm
  cases operation with
  | «open» => exact spawnLeased_sends fun _ => ⟨rfl, rfl, hnone⟩
  | fund => exact spawnLeased_sends fun _ => ⟨rfl, rfl, hnone⟩
  | close => exact spawnLeased_sends fun _ => ⟨rfl, rfl, hnone⟩
  | finalize => exact spawnLeased_sends fun _ => ⟨rfl, rfl, hnone⟩

omit [DecidableEq Id] [DecidableEq Addr] in
theorem Sends.spent {operations : List (Operation Id Addr)}
    {result : Bool × LifecycleState Id Addr} (amount : HoprBalance)
    (hsends : Sends before result.2 operations) :
    Sends before (spent amount result) operations := by
  rcases result with ⟨submitted, after⟩
  cases submitted with
  | true => exact ⟨hsends.tick, hsends.deferred, hsends.dispatched⟩
  | false => exact hsends

end LifecycleState

/-- What can happen while a tick is at work. -/
def LifecycleAction.IsDuringTick : LifecycleAction Id Addr → Prop
  | .pass _ | .work _ | .report _ => True
  | _ => False

theorem LifecycleState.next_sameTick {cfg : ChannelLifecycleConfig}
    {before after : LifecycleState Id Addr} {action : LifecycleAction Id Addr}
    (hduring : action.IsDuringTick)
    (hnext : next cfg before action = some after) : SameTick before after := by
  cases action with
  | pass now =>
      simp only [next] at hnext
      split at hnext
      · cases hnext
        exact ⟨rfl, rfl⟩
      · cases hnext
  | work reread => exact (work_workStep reread hnext).sameTick
  | report index =>
      simp only [next] at hnext
      split at hnext
      · rename_i operation holder _
        cases hnext
        cases operation with
        | «open» => exact ⟨rfl, rfl⟩
        | fund => exact ⟨rfl, rfl⟩
        | close => exact ⟨rfl, rfl⟩
        | finalize => exact ⟨rfl, rfl⟩
      · cases hnext
  | tick => exact hduring.elim
  | balanceDecreased => exact hduring.elim
  | budget => exact hduring.elim
  | balanceIncreased => exact hduring.elim
  | channelOpened => exact hduring.elim
  | closureInitiated => exact hduring.elim
  | channelClosed => exact hduring.elim

end HoprStrategy.ChannelLifecycle
