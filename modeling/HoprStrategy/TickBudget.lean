import HoprStrategy.ChannelTick

/-!
# The budget of a tick

The fund pass, the consolidation and the open pass spend from one remainder,
which starts at what a transaction can move of the Safe.  What they commit and
what is left always add up to it.
-/

namespace HoprStrategy.ChannelLifecycle

open Library

variable {Id Addr : Type}

/-- What the operations commit together. -/
def committed (operations : List (Operation Id Addr)) : ℕ :=
  (operations.map Operation.amount).sum

theorem committed_append (operations : List (Operation Id Addr))
    (operation : Operation Id Addr) :
    committed (operations ++ [operation]) =
      committed operations + operation.amount := by
  unfold committed
  rw [List.map_append, List.sum_append]
  simp

namespace LifecycleState

/-- The rounded amount and what it leaves behind are the remainder. -/
theorem fundAmount_add (funding : ResolvedFunding) (remaining : HoprBalance)
    (hexceeds : ¬ funding.topupBalance ≤ remaining) :
    (fundAmount funding remaining).wei +
      remaining.wei % funding.faceValue.wei = remaining.wei := by
  have hmod : remaining.wei % funding.faceValue.wei ≤ remaining.wei :=
    Nat.mod_le _ _
  have hbound := remaining.bound
  unfold fundAmount
  rw [if_neg hexceeds]
  simp only [HoprBalance.sub_wei, HoprBalance.saturating]
  omega

theorem fundAmount_le (funding : ResolvedFunding) (remaining : HoprBalance) :
    (fundAmount funding remaining).wei ≤ remaining.wei := by
  by_cases hfull : funding.topupBalance ≤ remaining
  · unfold fundAmount
    rw [if_pos hfull]
    exact hfull
  · have hadd := fundAmount_add funding remaining hfull
    omega

/-- Nothing was spent which the remainder did not hold. -/
def Balanced (state : LifecycleState Id Addr) : Prop :=
  committed state.dispatched + state.safeRemaining.wei =
    state.tick.spendable.wei

/-- The budget of `after` is the one of `before`. -/
structure SameBudget (before after : LifecycleState Id Addr) : Prop where
  tick : after.tick = before.tick
  safeRemaining : after.safeRemaining = before.safeRemaining
  dispatched : after.dispatched = before.dispatched

/-- An operation which commits `amount` is counted exactly when it was
spawned. -/
structure Counted (before : LifecycleState Id Addr) (amount : ℕ)
    (result : Bool × LifecycleState Id Addr) : Prop where
  tick : result.2.tick = before.tick
  safeRemaining : result.2.safeRemaining = before.safeRemaining
  committed : committed result.2.dispatched =
    committed before.dispatched + (if result.1 then amount else 0)

variable {cfg : ChannelLifecycleConfig}
  {state before after : LifecycleState Id Addr}

theorem SameBudget.balanced (hsame : SameBudget before after)
    (hbalanced : before.Balanced) : after.Balanced := by
  unfold Balanced
  rw [hsame.tick, hsame.safeRemaining, hsame.dispatched]
  exact hbalanced

/-! ## Dispatches -/

theorem spawnLeased_counted {Key : Type} [DecidableEq Key]
    {leases : ActionLeases Key}
    {put : ActionLeases Key → LifecycleState Id Addr} {key : Key}
    {operation : Operation Id Addr}
    (hput : ∀ leases, SameBudget state (put leases)) :
    Counted state operation.amount
      (state.spawnLeased cfg leases put key operation) := by
  unfold spawnLeased
  split
  · rename_i refused _
    exact ⟨(hput refused).tick, (hput refused).safeRemaining,
      congrArg ChannelLifecycle.committed (hput refused).dispatched⟩
  · rename_i holder granted _
    split
    · have hreleased := hput (granted.releaseOwned key holder)
      exact ⟨hreleased.tick, hreleased.safeRemaining,
        congrArg ChannelLifecycle.committed hreleased.dispatched⟩
    · exact ⟨(hput granted).tick, (hput granted).safeRemaining,
        committed_append state.dispatched operation⟩

/-- A dispatch which the remainder holds is taken off it. -/
theorem Counted.spent_balanced {result : Bool × LifecycleState Id Addr}
    {amount : HoprBalance} (hcounted : Counted state amount.wei result)
    (hle : amount.wei ≤ state.safeRemaining.wei)
    (hbalanced : state.Balanced) : (spent amount result).Balanced := by
  rcases result with ⟨submitted, after⟩
  obtain ⟨htick, hremaining, hcommitted⟩ := hcounted
  unfold Balanced at hbalanced ⊢
  cases submitted with
  | false =>
      simp only [spent]
      rw [htick, hremaining, hcommitted]
      simpa using hbalanced
  | true =>
      simp only [spent, HoprBalance.sub_wei]
      rw [htick, hremaining, hcommitted]
      simp only [if_true]
      omega

/-- A dispatch which commits nothing needs no remainder. -/
theorem Counted.balanced {result : Bool × LifecycleState Id Addr}
    (hcounted : Counted state 0 result) (hbalanced : state.Balanced) :
    result.2.Balanced := by
  unfold Balanced at hbalanced ⊢
  rw [hcounted.tick, hcounted.safeRemaining, hcounted.committed]
  simpa using hbalanced

/-- The phase of the task is no part of the budget. -/
theorem Balanced.phase (hbalanced : state.Balanced)
    (phase : TaskPhase Id Addr) :
    Balanced { state with phase := phase } := hbalanced

variable [DecidableEq Id] [DecidableEq Addr]

omit [DecidableEq Addr] in
theorem tryFundChannel_balanced (channel : ChannelEntry Id Addr)
    {topup : HoprBalance} (hle : topup.wei ≤ state.safeRemaining.wei)
    (hbalanced : state.Balanced) :
    (spent topup (state.tryFundChannel cfg channel topup)).Balanced := by
  have hcounted : Counted state (Operation.amount
      (.fund channel.id topup : Operation Id Addr))
      (state.tryFundChannel cfg channel topup) := by
    unfold tryFundChannel
    apply spawnLeased_counted
    intro leases
    exact ⟨rfl, rfl, rfl⟩
  exact hcounted.spent_balanced hle hbalanced

omit [DecidableEq Id] in
theorem openNewChannel_balanced (dest : Addr) {amount : HoprBalance}
    (hle : amount.wei ≤ state.safeRemaining.wei) (hbalanced : state.Balanced) :
    (spent amount (state.openNewChannel cfg dest amount)).Balanced := by
  have hcounted : Counted state (Operation.amount
      (.open dest amount : Operation Id Addr))
      (state.openNewChannel cfg dest amount) := by
    unfold openNewChannel
    apply spawnLeased_counted
    intro leases
    exact ⟨rfl, rfl, rfl⟩
  exact hcounted.spent_balanced hle hbalanced

omit [DecidableEq Addr] in
theorem tryCloseChannel_balanced (channel : ChannelEntry Id Addr)
    (hbalanced : state.Balanced) :
    (state.tryCloseChannel cfg channel).2.Balanced := by
  have hcounted : Counted state (Operation.amount
      (.close channel.id : Operation Id Addr))
      (state.tryCloseChannel cfg channel) := by
    unfold tryCloseChannel
    apply spawnLeased_counted
    intro leases
    exact ⟨rfl, rfl, rfl⟩
  exact hcounted.balanced hbalanced

omit [DecidableEq Addr] in
theorem tryFinalizeChannel_balanced (channel : ChannelEntry Id Addr)
    (hbalanced : state.Balanced) :
    (state.tryFinalizeChannel cfg channel).2.Balanced := by
  have hcounted : Counted state (Operation.amount
      (.finalize channel.id : Operation Id Addr))
      (state.tryFinalizeChannel cfg channel) := by
    unfold tryFinalizeChannel
    apply spawnLeased_counted
    intro leases
    exact ⟨rfl, rfl, rfl⟩
  exact hcounted.balanced hbalanced

/-! ## The passes, from the last to the first -/

omit [DecidableEq Id] [DecidableEq Addr] in
theorem startOpening_balanced (hbalanced : state.Balanced) :
    (state.startOpening cfg).Balanced := by
  unfold startOpening
  dsimp only
  split
  · split
    · exact hbalanced
    · exact hbalanced
  · exact hbalanced

/-- A redirected open checks the top-up itself. -/
theorem tryOpenChannel_balanced (dest : Addr) (funding : ResolvedFunding)
    (reread : Option (Option (ChannelEntry Id Addr)))
    (hle : funding.initialBalance.wei ≤ state.safeRemaining.wei)
    (hbalanced : state.Balanced) :
    (state.tryOpenChannel cfg dest funding reread).Balanced := by
  have hopening := @openNewChannel_balanced _ _ cfg _ _ dest _ hle hbalanced
  unfold tryOpenChannel
  dsimp only
  split
  · split
    · split
      · exact hbalanced
      · split
        · exact hbalanced
        · rename_i hafford
          exact tryFundChannel_balanced _ (Nat.le_of_not_lt hafford) hbalanced
    · exact hbalanced
    · exact hopening
  · exact hopening
  · exact hopening

theorem openStep_balanced (reread : Option (Option (ChannelEntry Id Addr)))
    (candidates : List Addr) (hbalanced : state.Balanced) :
    (state.openStep cfg reread candidates).Balanced := by
  cases candidates with
  | nil => exact hbalanced
  | cons dest rest =>
      simp only [openStep]
      split
      · exact hbalanced
      · split
        · exact hbalanced
        · rename_i hafford
          exact (tryOpenChannel_balanced dest _ reread
            (Nat.le_of_not_lt hafford) hbalanced).phase _

omit [DecidableEq Id] [DecidableEq Addr] in
theorem startFinalizing_balanced (hbalanced : state.Balanced) :
    (state.startFinalizing cfg).Balanced := by
  unfold startFinalizing
  split
  · exact hbalanced
  · exact startOpening_balanced hbalanced

omit [DecidableEq Addr] in
theorem finalizeStep_balanced (finalizeCount : ℕ)
    (channels : List (ChannelEntry Id Addr)) (hbalanced : state.Balanced) :
    (state.finalizeStep cfg finalizeCount channels).Balanced := by
  cases channels with
  | nil => exact startOpening_balanced hbalanced
  | cons channel rest =>
      simp only [finalizeStep]
      split
      · exact startOpening_balanced hbalanced
      · split
        · exact hbalanced
        · split
          · exact (tryFinalizeChannel_balanced channel hbalanced).phase _
          · exact hbalanced

omit [DecidableEq Addr] in
theorem startConsolidation_balanced (hbalanced : state.Balanced) :
    (state.startConsolidation cfg).Balanced := by
  unfold startConsolidation
  dsimp only
  split
  · split
    · exact startFinalizing_balanced hbalanced
    · split
      · exact hbalanced
      · exact hbalanced
  · exact startFinalizing_balanced hbalanced

omit [DecidableEq Addr] in
theorem consolidateStep_balanced (closes : List Id) (closeCount : ℕ)
    (remaining : List Id) (hbalanced : state.Balanced) :
    (state.consolidateStep cfg closes closeCount remaining).Balanced := by
  cases remaining with
  | nil => exact hbalanced
  | cons id rest =>
      simp only [consolidateStep]
      split
      · exact hbalanced
      · split
        · exact hbalanced
        · exact (tryCloseChannel_balanced _ hbalanced).phase _

omit [DecidableEq Addr] in
theorem topUpStep_balanced (survivors : List (ChannelEntry Id Addr))
    (hbalanced : state.Balanced) :
    (state.topUpStep cfg survivors).Balanced := by
  cases survivors with
  | nil => exact startFinalizing_balanced hbalanced
  | cons channel rest =>
      simp only [topUpStep]
      split
      · exact startFinalizing_balanced hbalanced
      · split
        · exact hbalanced
        · split
          · exact startFinalizing_balanced hbalanced
          · rename_i hafford
            exact (tryFundChannel_balanced channel
              (Nat.le_of_not_lt hafford) hbalanced).phase _

omit [DecidableEq Addr] in
theorem startClosing_balanced (hbalanced : state.Balanced) :
    (state.startClosing cfg).Balanced := by
  unfold startClosing
  split
  · exact startConsolidation_balanced hbalanced
  · exact hbalanced

omit [DecidableEq Addr] in
theorem closeStep_balanced (closeCount dispatchedThisTick : ℕ)
    (candidates : List Id) (hbalanced : state.Balanced) :
    (state.closeStep cfg closeCount dispatchedThisTick candidates).Balanced := by
  cases candidates with
  | nil => exact startConsolidation_balanced hbalanced
  | cons id rest =>
      simp only [closeStep]
      split
      · exact startConsolidation_balanced hbalanced
      · split
        · exact hbalanced
        · split
          · exact hbalanced
          · split
            · exact hbalanced
            · exact (tryCloseChannel_balanced _ hbalanced).phase _

omit [DecidableEq Addr] in
theorem startFunding_balanced (hbalanced : state.Balanced) :
    (state.startFunding cfg).Balanced := by
  unfold startFunding
  dsimp only
  split
  · split
    · exact startClosing_balanced hbalanced
    · exact hbalanced
  · exact startClosing_balanced hbalanced

omit [DecidableEq Addr] in
theorem fundStep_balanced (stranded : Bool)
    (candidates : List (ChannelEntry Id Addr)) (hbalanced : state.Balanced) :
    (state.fundStep cfg stranded candidates).Balanced := by
  cases candidates with
  | nil => exact startClosing_balanced hbalanced
  | cons channel rest =>
      simp only [fundStep]
      split
      · exact startClosing_balanced hbalanced
      · split
        · exact hbalanced
        · split
          · exact startClosing_balanced hbalanced
          · exact (tryFundChannel_balanced channel
              (fundAmount_le _ _) hbalanced).phase _

/-! ## The task -/

omit [DecidableEq Addr] in
/-- A tick starts with nothing committed, whatever the state before it. -/
theorem startTick_balanced (inputs : TickInputs Id Addr) :
    (state.startTick cfg inputs).Balanced := by
  unfold startTick
  apply startFunding_balanced
  simp [Balanced, committed]

theorem work_balanced (reread : Option (Option (ChannelEntry Id Addr)))
    (hbalanced : state.Balanced)
    (hwork : state.work cfg reread = some after) : after.Balanced := by
  unfold work at hwork
  split at hwork
  · cases hwork
  · cases hwork
    exact fundStep_balanced _ _ hbalanced
  · cases hwork
    exact closeStep_balanced _ _ _ hbalanced
  · cases hwork
    exact consolidateStep_balanced _ _ _ hbalanced
  · cases hwork
    exact topUpStep_balanced _ hbalanced
  · cases hwork
    exact finalizeStep_balanced _ _ hbalanced
  · cases hwork
    exact openStep_balanced _ _ hbalanced
  · cases hwork
  · cases hwork

theorem next_balanced {action : LifecycleAction Id Addr}
    (hbalanced : state.Balanced)
    (hnext : next cfg state action = some after) : after.Balanced := by
  cases action with
  | work reread => exact work_balanced reread hbalanced hnext
  | tick inputs =>
      simp only [next] at hnext
      split at hnext
      · cases hnext
        exact startTick_balanced inputs
      · cases hnext
  | budget safe =>
      simp only [next] at hnext
      split at hnext
      · rename_i channel funding _
        cases hnext
        have hcounted : Counted state (Operation.amount
            (.fund channel.id funding.topupBalance : Operation Id Addr))
            (state.tryFundChannel cfg channel funding.topupBalance) := by
          unfold tryFundChannel
          apply spawnLeased_counted
          intro leases
          exact ⟨rfl, rfl, rfl⟩
        unfold onBudget
        split
        · exact hbalanced
        · split
          · have hsame : SameBudget state
                { (state.tryFundChannel cfg channel funding.topupBalance).2 with
                  phase := .idle
                  dispatched := state.dispatched } :=
              ⟨hcounted.tick, hcounted.safeRemaining, rfl⟩
            exact hsame.balanced hbalanced
          · exact hbalanced
      · cases hnext
  | balanceDecreased channel =>
      simp only [next] at hnext
      split at hnext
      · cases hnext
        unfold onBalanceDecreased
        split
        · exact hbalanced
        · split
          · exact hbalanced
          · split
            · exact hbalanced
            · split
              · exact hbalanced
              · exact hbalanced
      · cases hnext
  | report index =>
      simp only [next] at hnext
      split at hnext
      · rename_i operation holder _
        cases hnext
        cases operation with
        | «open» dest amount => exact hbalanced
        | fund id amount => exact hbalanced
        | close id => exact hbalanced
        | finalize id => exact hbalanced
      · cases hnext
  | pass now =>
      simp only [next] at hnext
      split at hnext
      · cases hnext
        exact hbalanced
      · cases hnext
  | balanceIncreased id | channelOpened destination | closureInitiated id
    | channelClosed id =>
      simp only [next] at hnext
      split at hnext
      · cases hnext
        exact hbalanced
      · cases hnext

/-- However a tick goes on, and from whatever leases it starts, its dispatches
stay within what was spendable when it began, and the remainder never loses
more than it held. -/
theorem tickBudget (cfg : ChannelLifecycleConfig)
    (before after : LifecycleState Id Addr) (inputs : TickInputs Id Addr)
    (actions : List (LifecycleAction Id Addr))
    (hrun : (channelLifecycle cfg).run before (.tick inputs :: actions) =
      some after) :
    committed after.dispatched ≤ after.tick.spendable.wei ∧
      committed after.dispatched + after.safeRemaining.wei =
        after.tick.spendable.wei ∧
      ∀ funding : ResolvedFunding,
        ¬ funding.topupBalance ≤ after.safeRemaining →
          (fundAmount funding after.safeRemaining).wei +
            after.safeRemaining.wei % funding.faceValue.wei =
              after.safeRemaining.wei := by
  simp only [TransitionSystem.run] at hrun
  cases hstart : (channelLifecycle cfg).next before (.tick inputs) with
  | none => simp [hstart] at hrun
  | some started =>
      rw [hstart] at hrun
      have hstarted : started.Balanced := by
        simp only [channelLifecycle, next] at hstart
        split at hstart
        · cases hstart
          exact startTick_balanced inputs
        · cases hstart
      have hbalanced : after.Balanced := by
        refine TransitionSystem.run_invariant ?_ actions hstarted hrun
        intro state action later hstate hnext
        exact next_balanced hstate hnext
      have hsum : committed after.dispatched + after.safeRemaining.wei =
          after.tick.spendable.wei := hbalanced
      refine ⟨by omega, hsum, ?_⟩
      intro funding hexceeds
      exact fundAmount_add funding after.safeRemaining hexceeds

def sampleConfig : ChannelLifecycleConfig where
  minOpenChannels := 1
  targetOpenChannels := 1
  closeWhenDrainedBelow := HoprBalance.zero
  closeMaxConcurrent := 2
  finalizerEnabled := false
  finalizeMaxConcurrent := 1
  maxConcurrentActions := 4
  actionLeaseTimeout := 100

/-- A drained channel, whose top-up the Safe cannot pay in full. -/
def drainedInputs : TickInputs ℕ ℕ :=
  { lifecycleInputs with
    channels := [⟨1, 7, HoprBalance.zero, .open⟩]
    funding := some ⟨.saturating 9, .saturating 9, .saturating 6,
      .saturating 3⟩
    safe := some ⟨.saturating 20, .saturating 8⟩
    worthKeeping := fun _ => true }

/-- A top-up of two tickets. -/
theorem tickBudget_drained :
    ∃ after, (channelLifecycle sampleConfig).run LifecycleState.initial
        [.tick drainedInputs, .work none] = some after ∧
      committed after.dispatched = 6 ∧
      committed after.dispatched + after.safeRemaining.wei =
        after.tick.spendable.wei :=
  ⟨_, rfl, rfl,
    (tickBudget sampleConfig LifecycleState.initial _ drainedInputs
      [.work none] rfl).2.1⟩

end LifecycleState

end HoprStrategy.ChannelLifecycle
