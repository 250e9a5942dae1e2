import HoprStrategy.LifecycleSteps
import HoprStrategy.TickBudget

/-!
# The caps on concurrent actions

All live leases together stay within the action budget, which every dispatch
charges.  The close and finalize passes count on their own: a counter starts
at the live leases of its kind and covers them as long as the pass runs.
-/

namespace HoprStrategy.ChannelLifecycle

open Library

namespace ActionLeases

variable {Key : Type} {leases after : ActionLeases Key} {now later : ℕ}

theorem heldCount_le_of_sublist
    (hsublist : after.leases.Sublist leases.leases) :
    after.heldCount now ≤ leases.heldCount now :=
  hsublist.countP_le

theorem heldCount_mono (hle : now ≤ later) :
    leases.heldCount later ≤ leases.heldCount now := by
  apply List.countP_mono_left
  intro entry _ hlive
  simp only [decide_eq_true_eq] at hlive ⊢
  omega

variable [DecidableEq Key]

theorem heldCount_acquire_le {timeout : ℕ} {key : Key}
    (hfree : leases.isHeld now key = false) :
    (leases.acquire now timeout key).2.heldCount now ≤
      leases.heldCount now + 1 := by
  rw [heldCount_eq_length_live, heldCount_eq_length_live, live_acquire hfree]
  split
  · exact le_rfl
  · exact Nat.le_succ _

end ActionLeases

variable {Id Addr : Type} [DecidableEq Id] [DecidableEq Addr]

def Operation.closeSlots : Operation Id Addr → ℕ
  | .close _ => 1
  | _ => 0

def Operation.finalizeSlots : Operation Id Addr → ℕ
  | .finalize _ => 1
  | _ => 0

namespace LifecycleState

def closesHeld (state : LifecycleState Id Addr) : ℕ :=
  state.closeInFlight.heldCount state.now

def finalizesHeld (state : LifecycleState Id Addr) : ℕ :=
  state.finalizeInFlight.heldCount state.now

/-- The counter of a running pass covers the live leases of its kind. -/
def Covered (state : LifecycleState Id Addr) : Prop :=
  match state.phase with
  | .closing _ closeCount _ => state.closesHeld ≤ closeCount
  | .consolidating _ _ closeCount => state.closesHeld ≤ closeCount
  | .finalizing _ finalizeCount => state.finalizesHeld ≤ finalizeCount
  | _ => True

structure WithinCaps (cfg : ChannelLifecycleConfig)
    (state : LifecycleState Id Addr) : Prop where
  closes : state.closesHeld ≤ cfg.closeMaxConcurrent
  finalizes : state.finalizesHeld ≤ cfg.finalizeMaxConcurrent
  covered : state.Covered

variable {cfg : ChannelLifecycleConfig}
  {state before after : LifecycleState Id Addr}

omit [DecidableEq Id] [DecidableEq Addr] in
theorem Untouched.closesHeld (hsame : Untouched before after) :
    after.closesHeld = before.closesHeld := by
  unfold LifecycleState.closesHeld
  rw [hsame.closeInFlight, hsame.now]

omit [DecidableEq Id] [DecidableEq Addr] in
theorem Untouched.finalizesHeld (hsame : Untouched before after) :
    after.finalizesHeld = before.finalizesHeld := by
  unfold LifecycleState.finalizesHeld
  rw [hsame.finalizeInFlight, hsame.now]

omit [DecidableEq Id] [DecidableEq Addr] in
theorem SameLive.closesHeld (hsame : SameLive before after) :
    after.closesHeld = before.closesHeld := by
  simp only [LifecycleState.closesHeld, ActionLeases.heldCount_eq_length_live]
  rw [hsame.closes]

omit [DecidableEq Id] [DecidableEq Addr] in
theorem SameLive.finalizesHeld (hsame : SameLive before after) :
    after.finalizesHeld = before.finalizesHeld := by
  simp only [LifecycleState.finalizesHeld,
    ActionLeases.heldCount_eq_length_live]
  rw [hsame.finalizes]

/-- A dispatch takes one slot of its own kind, if it is not refused. -/
theorem tryOperation_closesHeld (operation : Operation Id Addr) :
    (state.tryOperation cfg operation).2.closesHeld ≤ state.closesHeld +
      if (state.tryOperation cfg operation).1 then operation.closeSlots
      else 0 := by
  rcases tryOperation_cases cfg state operation with
    ⟨hrefused, hrefuse⟩ | ⟨hsubmitted, hdispatched, _⟩
  · rw [hrefused, hrefuse.live.closesHeld]
    exact Nat.le_add_right _ _
  · rw [hsubmitted, if_pos rfl]
    generalize (state.tryOperation cfg operation).2 = result at hdispatched
    cases hdispatched with
    | «open» hfree => exact Nat.le_add_right _ _
    | fund hfree => exact Nat.le_add_right _ _
    | close hfree => exact ActionLeases.heldCount_acquire_le hfree
    | finalize hfree => exact Nat.le_add_right _ _

theorem tryOperation_finalizesHeld (operation : Operation Id Addr) :
    (state.tryOperation cfg operation).2.finalizesHeld ≤
      state.finalizesHeld +
        if (state.tryOperation cfg operation).1 then operation.finalizeSlots
        else 0 := by
  rcases tryOperation_cases cfg state operation with
    ⟨hrefused, hrefuse⟩ | ⟨hsubmitted, hdispatched, _⟩
  · rw [hrefused, hrefuse.live.finalizesHeld]
    exact Nat.le_add_right _ _
  · rw [hsubmitted, if_pos rfl]
    generalize (state.tryOperation cfg operation).2 = result at hdispatched
    cases hdispatched with
    | «open» hfree => exact Nat.le_add_right _ _
    | fund hfree => exact Nat.le_add_right _ _
    | close hfree => exact Nat.le_add_right _ _
    | finalize hfree => exact ActionLeases.heldCount_acquire_le hfree

/-! ## The counters, pass by pass -/

/-- The counts of closes and finalizations have not grown. -/
structure NoMore (before after : LifecycleState Id Addr) : Prop where
  closes : after.closesHeld ≤ before.closesHeld
  finalizes : after.finalizesHeld ≤ before.finalizesHeld

omit [DecidableEq Id] [DecidableEq Addr] in
theorem Untouched.noMore (hsame : Untouched before after) :
    NoMore before after :=
  ⟨hsame.closesHeld.le, hsame.finalizesHeld.le⟩

omit [DecidableEq Id] [DecidableEq Addr] in
theorem NoMore.trans {middle : LifecycleState Id Addr}
    (hfirst : NoMore before middle) (hsecond : NoMore middle after) :
    NoMore before after :=
  ⟨hsecond.closes.trans hfirst.closes,
    hsecond.finalizes.trans hfirst.finalizes⟩

omit [DecidableEq Id] [DecidableEq Addr] in
theorem NoMore.within (hless : NoMore before after)
    (hcovered : after.Covered) (hbefore : before.WithinCaps cfg) :
    after.WithinCaps cfg :=
  ⟨hless.closes.trans hbefore.closes,
    hless.finalizes.trans hbefore.finalizes, hcovered⟩

/-- A dispatch of another kind. -/
theorem tryOperation_noMore {operation : Operation Id Addr}
    (hclose : operation.closeSlots = 0)
    (hfinalize : operation.finalizeSlots = 0) :
    NoMore state (state.tryOperation cfg operation).2 := by
  have hcloses := @tryOperation_closesHeld _ _ _ _ cfg state operation
  have hfinalizes := @tryOperation_finalizesHeld _ _ _ _ cfg state operation
  rw [hclose, ite_self] at hcloses
  rw [hfinalize, ite_self] at hfinalizes
  exact ⟨hcloses, hfinalizes⟩

omit [DecidableEq Id] [DecidableEq Addr] in
theorem startOpening_covered : (state.startOpening cfg).Covered := by
  unfold startOpening
  dsimp only
  split
  · split
    · trivial
    · trivial
  · trivial

omit [DecidableEq Id] [DecidableEq Addr] in
theorem startFinalizing_covered : (state.startFinalizing cfg).Covered := by
  unfold startFinalizing
  split
  · exact le_rfl
  · exact startOpening_covered

omit [DecidableEq Addr] in
theorem startConsolidation_covered :
    (state.startConsolidation cfg).Covered := by
  unfold startConsolidation
  dsimp only
  split
  · split
    · exact startFinalizing_covered
    · split
      · trivial
      · exact le_rfl
  · exact startFinalizing_covered

omit [DecidableEq Addr] in
theorem startClosing_covered : (state.startClosing cfg).Covered := by
  unfold startClosing
  split
  · exact startConsolidation_covered
  · exact le_rfl

omit [DecidableEq Addr] in
theorem startFunding_covered : (state.startFunding cfg).Covered := by
  unfold startFunding
  dsimp only
  split
  · split
    · exact startClosing_covered
    · trivial
  · exact startClosing_covered

theorem fundStep_within (stranded : Bool)
    (candidates : List (ChannelEntry Id Addr))
    (hstate : state.WithinCaps cfg) :
    (state.fundStep cfg stranded candidates).WithinCaps cfg := by
  have hclosing : (state.startClosing cfg).WithinCaps cfg :=
    startClosing_untouched.noMore.within startClosing_covered hstate
  cases candidates with
  | nil => exact hclosing
  | cons channel rest =>
      simp only [fundStep]
      split
      · exact hclosing
      · split
        · exact ⟨hstate.closes, hstate.finalizes, trivial⟩
        · split
          · exact hclosing
          · rename_i funding _ _ _
            have htried : NoMore state (state.tryOperation cfg
                (.fund channel.id (fundAmount funding state.safeRemaining))).2 :=
              tryOperation_noMore rfl rfl
            exact (htried.trans ((spent_untouched _ _).phase _).noMore).within
              trivial hstate

theorem topUpStep_within (survivors : List (ChannelEntry Id Addr))
    (hstate : state.WithinCaps cfg) :
    (state.topUpStep cfg survivors).WithinCaps cfg := by
  have hfinalizing : (state.startFinalizing cfg).WithinCaps cfg :=
    startFinalizing_untouched.noMore.within startFinalizing_covered hstate
  cases survivors with
  | nil => exact hfinalizing
  | cons channel rest =>
      simp only [topUpStep]
      split
      · exact hfinalizing
      · split
        · exact ⟨hstate.closes, hstate.finalizes, trivial⟩
        · split
          · exact hfinalizing
          · rename_i funding _ _ _
            have htried : NoMore state (state.tryOperation cfg
                (.fund channel.id (funding.faceValue - channel.balance))).2 :=
              tryOperation_noMore rfl rfl
            exact (htried.trans ((spent_untouched _ _).phase _).noMore).within
              trivial hstate

/-- A close which is tried while its counter is below the cap. -/
theorem tryClose_within {closeCount : ℕ} (id : Id)
    (hcount : state.closesHeld ≤ closeCount)
    (hcap : closeCount < cfg.closeMaxConcurrent)
    (hstate : state.WithinCaps cfg) :
    let result := state.tryOperation cfg (.close id)
    result.2.closesHeld ≤ (if result.1 then closeCount + 1 else closeCount) ∧
      result.2.closesHeld ≤ cfg.closeMaxConcurrent ∧
      result.2.finalizesHeld ≤ cfg.finalizeMaxConcurrent := by
  have hcloses := @tryOperation_closesHeld _ _ _ _ cfg state (.close id)
  have hfinalizes := @tryOperation_finalizesHeld _ _ _ _ cfg state (.close id)
  have hfinalized := hstate.finalizes
  simp only [Operation.closeSlots, Operation.finalizeSlots, ite_self]
    at hcloses hfinalizes
  dsimp only
  split
  · rename_i hsubmitted
    rw [if_pos hsubmitted] at hcloses
    omega
  · rename_i hrefused
    rw [if_neg hrefused] at hcloses
    omega

theorem closeStep_within {closeCount dispatchedThisTick : ℕ}
    {candidates : List Id} (hcount : state.closesHeld ≤ closeCount)
    (hstate : state.WithinCaps cfg) :
    (state.closeStep cfg closeCount dispatchedThisTick candidates).WithinCaps
      cfg := by
  have hconsolidation : (state.startConsolidation cfg).WithinCaps cfg :=
    startConsolidation_untouched.noMore.within startConsolidation_covered
      hstate
  cases candidates with
  | nil => exact hconsolidation
  | cons id rest =>
      have hskipped : WithinCaps cfg { state with
          phase := .closing rest closeCount dispatchedThisTick } :=
        ⟨hstate.closes, hstate.finalizes, hcount⟩
      simp only [closeStep]
      split
      · exact hconsolidation
      · rename_i hgo
        split
        · exact hskipped
        · rename_i channel _
          split
          · exact hskipped
          · split
            · exact hskipped
            · simp only [Bool.or_eq_true, decide_eq_true_eq, not_or,
                Nat.not_le] at hgo
              have htried := tryClose_within channel.id hcount hgo.1.1 hstate
              have hresult : state.tryOperation cfg (.close channel.id) =
                state.tryCloseChannel cfg channel := rfl
              rw [hresult] at htried
              obtain ⟨hcounted, hcloses, hfinalizes⟩ := htried
              refine ⟨hcloses, hfinalizes, ?_⟩
              cases hsubmitted : (state.tryCloseChannel cfg channel).1 with
              | true =>
                  rw [hsubmitted] at hcounted
                  exact hcounted
              | false =>
                  rw [hsubmitted] at hcounted
                  exact hcounted

theorem consolidateStep_within {closes remaining : List Id} {closeCount : ℕ}
    (hcount : state.closesHeld ≤ closeCount)
    (hstate : state.WithinCaps cfg) :
    (state.consolidateStep cfg closes closeCount remaining).WithinCaps cfg := by
  have htopping : (state.startToppingUp closes).WithinCaps cfg :=
    ⟨hstate.closes, hstate.finalizes, trivial⟩
  cases remaining with
  | nil => exact htopping
  | cons id rest =>
      simp only [consolidateStep]
      split
      · exact htopping
      · rename_i hcap
        split
        · exact ⟨hstate.closes, hstate.finalizes, hcount⟩
        · rename_i channel _
          have htried := tryClose_within channel.id hcount
            (Nat.lt_of_not_le hcap) hstate
          have hresult : state.tryOperation cfg (.close channel.id) =
            state.tryCloseChannel cfg channel := rfl
          rw [hresult] at htried
          obtain ⟨hcounted, hcloses, hfinalizes⟩ := htried
          exact ⟨hcloses, hfinalizes, hcounted⟩

theorem finalizeStep_within {finalizeCount : ℕ}
    (channels : List (ChannelEntry Id Addr))
    (hcount : state.finalizesHeld ≤ finalizeCount)
    (hstate : state.WithinCaps cfg) :
    (state.finalizeStep cfg finalizeCount channels).WithinCaps cfg := by
  have hopening : (state.startOpening cfg).WithinCaps cfg :=
    startOpening_untouched.noMore.within startOpening_covered hstate
  cases channels with
  | nil => exact hopening
  | cons channel rest =>
      simp only [finalizeStep]
      split
      · exact hopening
      · rename_i hcap
        split
        · exact ⟨hstate.closes, hstate.finalizes, hcount⟩
        · split
          · have hcloses := @tryOperation_closesHeld _ _ _ _ cfg state
              (.finalize channel.id)
            have hfinalizes := @tryOperation_finalizesHeld _ _ _ _ cfg state
              (.finalize channel.id)
            have hresult : state.tryOperation cfg (.finalize channel.id) =
              state.tryFinalizeChannel cfg channel := rfl
            simp only [Operation.closeSlots, Operation.finalizeSlots, ite_self,
              hresult] at hcloses hfinalizes
            have hclosed := hstate.closes
            refine ⟨hcloses.trans hclosed, ?_, ?_⟩
            · change (state.tryFinalizeChannel cfg channel).2.finalizesHeld ≤ _
              split at hfinalizes
              · omega
              · omega
            · change (state.tryFinalizeChannel cfg channel).2.finalizesHeld ≤
                if (state.tryFinalizeChannel cfg channel).1
                then finalizeCount + 1 else finalizeCount
              split at hfinalizes
              · rename_i hsubmitted
                rw [if_pos hsubmitted]
                omega
              · rename_i hrefused
                rw [if_neg hrefused]
                omega
          · exact ⟨hstate.closes, hstate.finalizes, hcount⟩

theorem tryOpenChannel_noMore (dest : Addr) (funding : ResolvedFunding)
    (reread : Option (Option (ChannelEntry Id Addr))) :
    NoMore state (state.tryOpenChannel cfg dest funding reread) := by
  have hsame : NoMore state state := (Untouched.refl state).noMore
  have hopening : NoMore state (spent funding.initialBalance
      (state.openNewChannel cfg dest funding.initialBalance)) := by
    have htried : NoMore state (state.tryOperation cfg
        (.open dest funding.initialBalance)).2 := tryOperation_noMore rfl rfl
    exact htried.trans (spent_untouched _ _).noMore
  unfold tryOpenChannel
  split
  · rename_i existing
    split
    · split
      · exact hsame
      · split
        · exact hsame
        · have htried : NoMore state (state.tryOperation cfg
              (.fund existing.id funding.topupBalance)).2 :=
            tryOperation_noMore rfl rfl
          exact htried.trans (spent_untouched _ _).noMore
    · exact hsame
    · exact hopening
  · exact hopening
  · exact hopening

theorem openStep_within (reread : Option (Option (ChannelEntry Id Addr)))
    (candidates : List Addr) (hstate : state.WithinCaps cfg) :
    (state.openStep cfg reread candidates).WithinCaps cfg := by
  cases candidates with
  | nil => exact ⟨hstate.closes, hstate.finalizes, trivial⟩
  | cons dest rest =>
      simp only [openStep]
      split
      · exact ⟨hstate.closes, hstate.finalizes, trivial⟩
      · split
        · exact ⟨hstate.closes, hstate.finalizes, trivial⟩
        · rename_i funding _ _
          have htried := @tryOpenChannel_noMore _ _ _ _ cfg state dest
            funding reread
          have hphase := (Untouched.refl (state.tryOpenChannel cfg dest
            funding reread)).phase (.opening rest)
          exact (htried.trans hphase.noMore).within trivial hstate

theorem work_within (reread : Option (Option (ChannelEntry Id Addr)))
    (hwork : state.work cfg reread = some after)
    (hstate : state.WithinCaps cfg) : after.WithinCaps cfg := by
  have hcovered := hstate.covered
  unfold Covered at hcovered
  unfold work at hwork
  cases hphase : state.phase with
  | idle =>
      rw [hphase] at hwork
      cases hwork
  | decreased channel funding =>
      rw [hphase] at hwork
      cases hwork
  | crashed =>
      rw [hphase] at hwork
      cases hwork
  | funding stranded candidates =>
      rw [hphase] at hwork
      cases hwork
      exact fundStep_within stranded candidates hstate
  | closing candidates closeCount dispatchedThisTick =>
      rw [hphase] at hwork hcovered
      cases hwork
      exact closeStep_within hcovered hstate
  | consolidating closes remaining closeCount =>
      rw [hphase] at hwork hcovered
      cases hwork
      exact consolidateStep_within hcovered hstate
  | toppingUp survivors =>
      rw [hphase] at hwork
      cases hwork
      exact topUpStep_within survivors hstate
  | finalizing channels finalizeCount =>
      rw [hphase] at hwork hcovered
      cases hwork
      exact finalizeStep_within channels hcovered hstate
  | opening candidates =>
      rw [hphase] at hwork
      cases hwork
      exact openStep_within reread candidates hstate

/-! ## Around the task -/

/-- Leases are released or expire. -/
structure Released (before after : LifecycleState Id Addr) : Prop where
  opens : after.openInFlight.heldCount after.now ≤
    before.openInFlight.heldCount before.now
  funds : after.fundInFlight.heldCount after.now ≤
    before.fundInFlight.heldCount before.now
  closes : after.closesHeld ≤ before.closesHeld
  finalizes : after.finalizesHeld ≤ before.finalizesHeld
  phase : after.phase = before.phase

omit [DecidableEq Id] [DecidableEq Addr] in
theorem Released.within (hreleased : Released before after)
    (hbefore : before.WithinCaps cfg) : after.WithinCaps cfg := by
  refine NoMore.within ⟨hreleased.closes, hreleased.finalizes⟩ ?_ hbefore
  have hcovered := hbefore.covered
  unfold Covered at hcovered ⊢
  rw [hreleased.phase]
  split at hcovered
  · exact hreleased.closes.trans hcovered
  · exact hreleased.closes.trans hcovered
  · exact hreleased.finalizes.trans hcovered
  · trivial

omit [DecidableEq Id] [DecidableEq Addr] in
theorem Released.totalInFlight (hreleased : Released before after) :
    after.totalInFlight ≤ before.totalInFlight := by
  have hopens := hreleased.opens
  have hfunds := hreleased.funds
  have hcloses := hreleased.closes
  have hfinalizes := hreleased.finalizes
  unfold closesHeld at hcloses
  unfold finalizesHeld at hfinalizes
  unfold LifecycleState.totalInFlight
  omega

theorem reported_released (operation : Operation Id Addr)
    (holder : UInt64) (index : ℕ) :
    Released state { state.reported operation holder with
      running := state.running.eraseIdx index } := by
  have hfewer {Key : Type} {leases : ActionLeases Key}
      (keep : Key × Lease → Bool) :=
    @ActionLeases.heldCount_le_of_sublist Key leases
      { leases with leases := leases.leases.filter keep } state.now
      List.filter_sublist
  cases operation with
  | «open» => exact ⟨hfewer _, le_rfl, le_rfl, le_rfl, rfl⟩
  | fund => exact ⟨le_rfl, hfewer _, le_rfl, le_rfl, rfl⟩
  | close => exact ⟨le_rfl, le_rfl, hfewer _, le_rfl, rfl⟩
  | finalize => exact ⟨le_rfl, le_rfl, le_rfl, hfewer _, rfl⟩

theorem next_released {action : LifecycleAction Id Addr}
    (hother : ¬ action.IsTask) (hnext : next cfg state action = some after) :
    Released state after := by
  have hfewer {Key : Type} {leases : ActionLeases Key}
      (keep : Key × Lease → Bool) :=
    @ActionLeases.heldCount_le_of_sublist Key leases
      { leases with leases := leases.leases.filter keep } state.now
      List.filter_sublist
  cases action with
  | tick => exact absurd trivial hother
  | work => exact absurd trivial hother
  | balanceDecreased => exact absurd trivial hother
  | budget => exact absurd trivial hother
  | report index =>
      simp only [next] at hnext
      split at hnext
      · rename_i operation holder _
        cases hnext
        exact reported_released operation holder index
      · cases hnext
  | pass now =>
      simp only [next] at hnext
      split at hnext
      · rename_i hle
        cases hnext
        exact ⟨ActionLeases.heldCount_mono hle,
          ActionLeases.heldCount_mono hle, ActionLeases.heldCount_mono hle,
          ActionLeases.heldCount_mono hle, rfl⟩
      · cases hnext
  | balanceIncreased id =>
      simp only [next] at hnext
      split at hnext
      · cases hnext
        exact ⟨le_rfl, hfewer _, le_rfl, le_rfl, rfl⟩
      · cases hnext
  | channelOpened destination =>
      simp only [next] at hnext
      split at hnext
      · cases hnext
        exact ⟨hfewer _, le_rfl, le_rfl, le_rfl, rfl⟩
      · cases hnext
  | closureInitiated id =>
      simp only [next] at hnext
      split at hnext
      · cases hnext
        exact ⟨le_rfl, le_rfl, hfewer _, le_rfl, rfl⟩
      · cases hnext
  | channelClosed id =>
      simp only [next] at hnext
      split at hnext
      · cases hnext
        exact ⟨le_rfl, le_rfl, le_rfl, hfewer _, rfl⟩
      · cases hnext

theorem next_within {action : LifecycleAction Id Addr}
    (hstate : state.WithinCaps cfg)
    (hnext : next cfg state action = some after) : after.WithinCaps cfg := by
  by_cases htask : action.IsTask
  · cases action with
    | work reread => exact work_within reread hnext hstate
    | tick inputs =>
        simp only [next] at hnext
        split at hnext
        · cases hnext
          refine NoMore.within (NoMore.trans ?_ startFunding_untouched.noMore)
            startFunding_covered hstate
          exact ⟨ActionLeases.heldCount_le_of_sublist List.filter_sublist,
            ActionLeases.heldCount_le_of_sublist List.filter_sublist⟩
        · cases hnext
    | budget safe =>
        simp only [next] at hnext
        split at hnext
        · rename_i channel funding _
          cases hnext
          unfold onBudget
          split
          · exact ⟨hstate.closes, hstate.finalizes, trivial⟩
          · split
            · have htried : NoMore state (state.tryOperation cfg
                  (.fund channel.id funding.topupBalance)).2 :=
                tryOperation_noMore rfl rfl
              exact NoMore.within ⟨htried.closes, htried.finalizes⟩ trivial
                hstate
            · exact ⟨hstate.closes, hstate.finalizes, trivial⟩
        · cases hnext
    | balanceDecreased channel =>
        simp only [next] at hnext
        split at hnext
        · cases hnext
          unfold onBalanceDecreased
          split
          · exact hstate
          · split
            · exact hstate
            · split
              · exact hstate
              · split
                · exact ⟨hstate.closes, hstate.finalizes, trivial⟩
                · exact hstate
        · cases hnext
    | report => exact htask.elim
    | pass => exact htask.elim
    | balanceIncreased => exact htask.elim
    | channelOpened => exact htask.elim
    | closureInitiated => exact htask.elim
    | channelClosed => exact htask.elim
  · exact (next_released htask hnext).within hstate

/-- A step of the task stays within the budget, and leaves the live leases of
every kind unless it dispatches an operation. -/
theorem Acted.cases (hacted : Acted cfg before after)
    (hbudget : before.totalInFlight ≤ cfg.maxConcurrentActions) :
    after.totalInFlight ≤ cfg.maxConcurrentActions ∧
      (after.running = before.running → SameLive before after) := by
  cases hacted with
  | untouched hsame =>
      have hlive := hsame.sameLive
      exact ⟨hlive.totalInFlight.le.trans hbudget, fun _ => hlive⟩
  | swept hsame =>
      have hlive := (swept_sameLive before).trans hsame.sameLive
      exact ⟨hlive.totalInFlight.le.trans hbudget, fun _ => hlive⟩
  | tried operation hsame =>
      have hafter := hsame.sameLive
      rcases tryOperation_cases cfg before operation with
        ⟨_, hrefused⟩ | ⟨_, hdispatched, hwithin⟩
      · have hall := hrefused.live.trans hafter
        exact ⟨hall.totalInFlight.le.trans hbudget, fun _ => hall⟩
      · refine ⟨hafter.totalInFlight.le.trans hwithin, ?_⟩
        intro hrunning
        rw [hsame.running] at hrunning
        generalize (before.tryOperation cfg operation).2 = result
          at hdispatched hrunning
        have hlength := congrArg List.length hrunning
        cases hdispatched with
        | «open» => simp at hlength
        | fund => simp at hlength
        | close => simp at hlength
        | finalize => simp at hlength

def WithinBudget (cfg : ChannelLifecycleConfig)
    (state : LifecycleState Id Addr) : Prop :=
  state.totalInFlight ≤ cfg.maxConcurrentActions ∧ state.WithinCaps cfg

/-- In every state of every run the live leases of all kinds stay within the
action budget, and those of the closes and of the finalizations within their
caps.  What the task does without dispatching anything, a refused dispatch
among others, leaves the live leases of every kind as they were. -/
theorem concurrencyCaps (cfg : ChannelLifecycleConfig)
    {state : LifecycleState Id Addr}
    (hreach : (channelLifecycle cfg).Reachable state) :
    state.totalInFlight ≤ cfg.maxConcurrentActions ∧
      state.closesHeld ≤ cfg.closeMaxConcurrent ∧
      state.finalizesHeld ≤ cfg.finalizeMaxConcurrent ∧
      (∀ operation, (state.tryOperation cfg operation).1 = false →
        SameLive state (state.tryOperation cfg operation).2) ∧
      ∀ action after, action.IsTask → next cfg state action = some after →
        after.running = state.running → SameLive state after := by
  have hcaps : state.WithinBudget cfg := by
    refine hreach.invariant ?_ ?_
    · intro start hinit
      cases hinit
      exact ⟨Nat.zero_le _, Nat.zero_le _, Nat.zero_le _, trivial⟩
    · intro before action after hbefore hnext
      refine ⟨?_, next_within hbefore.2 hnext⟩
      by_cases htask : action.IsTask
      · exact ((next_acted htask hnext).cases hbefore.1).1
      · exact (next_released htask hnext).totalInFlight.trans hbefore.1
  refine ⟨hcaps.1, hcaps.2.closes, hcaps.2.finalizes, ?_, ?_⟩
  · intro operation hrefused
    rcases tryOperation_cases cfg state operation with
      ⟨_, hrefuse⟩ | ⟨hsubmitted, _⟩
    · exact hrefuse.live
    · rw [hrefused] at hsubmitted
      cases hsubmitted
  · intro action after htask hnext
    exact ((next_acted htask hnext).cases hcaps.1).2

/-- Two actions at a time, one of them a closure. -/
def tightConfig : ChannelLifecycleConfig :=
  { sampleConfig with
    targetOpenChannels := 4
    closeMaxConcurrent := 1
    maxConcurrentActions := 2 }

/-- A drained channel, two which the selector wants closed, and an open. -/
def busyInputs : TickInputs ℕ ℕ :=
  { drainedInputs with
    channels := [⟨1, 7, HoprBalance.zero, .open⟩,
      ⟨2, 8, .saturating 100, .open⟩, ⟨3, 9, .saturating 100, .open⟩]
    safe := some ⟨.saturating 50, .saturating 50⟩
    startupPhase := .expired
    closesRanked := [2, 3]
    peerMapKnown := true
    opensRanked := [11] }

/-- A top-up and the first closure reach both caps.  The second closure is not
tried, and the open is refused. -/
theorem concurrencyCaps_busy :
    ∃ state after : LifecycleState ℕ ℕ,
      state.totalInFlight = 2 ∧ state.closesHeld = 1 ∧
      next tightConfig state (.work none) = some after ∧
      (state.totalInFlight ≤ 2 ∧ state.closesHeld ≤ 1) ∧
      SameLive state
        (state.tryOperation tightConfig (.open 11 (.saturating 9))).2 ∧
      SameLive state after := by
  have hinit : (channelLifecycle tightConfig).Reachable
      (LifecycleState.initial : LifecycleState ℕ ℕ) := .init rfl
  have hreach := hinit.run
    (.tick busyInputs :: List.replicate 4 (.work none)) rfl
  have hcaps := concurrencyCaps tightConfig hreach
  exact ⟨_, _, rfl, rfl, rfl, ⟨hcaps.1, hcaps.2.1⟩,
    hcaps.2.2.2.1 _ rfl, hcaps.2.2.2.2 (.work none) _ trivial rfl rfl⟩

end LifecycleState

end HoprStrategy.ChannelLifecycle
