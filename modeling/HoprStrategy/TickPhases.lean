import HoprStrategy.LifecycleSteps

/-!
# The order of a tick's passes

A tick funds first, then comes to its close pass or passes it by, and never
goes back.
-/

namespace HoprStrategy.ChannelLifecycle

variable {Id Addr : Type} [DecidableEq Id] [DecidableEq Addr]

/-- The tick is not at work before or in its close pass. -/
def TaskPhase.IsPastClosing : TaskPhase Id Addr → Prop
  | .funding _ _ | .closing _ _ _ => False
  | _ => True

omit [DecidableEq Id] [DecidableEq Addr] in
theorem TaskPhase.trichotomy (phase : TaskPhase Id Addr) :
    (∃ stranded candidates, phase = .funding stranded candidates) ∨
      (∃ candidates closeCount dispatchedThisTick,
        phase = .closing candidates closeCount dispatchedThisTick) ∨
      phase.IsPastClosing := by
  cases phase with
  | funding => exact Or.inl ⟨_, _, rfl⟩
  | closing => exact Or.inr (Or.inl ⟨_, _, _, rfl⟩)
  | idle => exact Or.inr (Or.inr trivial)
  | consolidating => exact Or.inr (Or.inr trivial)
  | toppingUp => exact Or.inr (Or.inr trivial)
  | finalizing => exact Or.inr (Or.inr trivial)
  | opening => exact Or.inr (Or.inr trivial)
  | decreased => exact Or.inr (Or.inr trivial)
  | crashed => exact Or.inr (Or.inr trivial)

namespace LifecycleState

variable {cfg : ChannelLifecycleConfig}
  {state after : LifecycleState Id Addr}

/-- What the close pass starts with. -/
def closeCandidates (state : LifecycleState Id Addr) : List Id :=
  state.tick.closesRanked ++
    state.tick.disconnected.filter (· ∉ state.tick.closesRanked)

/-- The close pass starts, or the tick is past it. -/
def ComesToClosing (state : LifecycleState Id Addr)
    (phase : TaskPhase Id Addr) : Prop :=
  (∃ closeCount, phase = .closing state.closeCandidates closeCount 0) ∨
    phase.IsPastClosing

omit [DecidableEq Id] [DecidableEq Addr] in
theorem startOpening_past : (state.startOpening cfg).phase.IsPastClosing := by
  unfold startOpening
  dsimp only
  split
  · split
    · trivial
    · trivial
  · trivial

omit [DecidableEq Id] [DecidableEq Addr] in
theorem startFinalizing_past :
    (state.startFinalizing cfg).phase.IsPastClosing := by
  unfold startFinalizing
  split
  · trivial
  · exact startOpening_past

omit [DecidableEq Addr] in
theorem startConsolidation_past :
    (state.startConsolidation cfg).phase.IsPastClosing := by
  unfold startConsolidation
  dsimp only
  split
  · split
    · exact startFinalizing_past
    · split
      · trivial
      · trivial
  · exact startFinalizing_past

omit [DecidableEq Addr] in
theorem startClosing_comes :
    state.ComesToClosing (state.startClosing cfg).phase := by
  unfold startClosing
  split
  · exact Or.inr startConsolidation_past
  · exact Or.inl ⟨_, rfl⟩

omit [DecidableEq Addr] in
theorem startFunding_comes :
    (∃ stranded candidates,
        (state.startFunding cfg).phase = .funding stranded candidates) ∨
      state.ComesToClosing (state.startFunding cfg).phase := by
  unfold startFunding
  dsimp only
  split
  · split
    · exact Or.inr startClosing_comes
    · exact Or.inl ⟨_, _, rfl⟩
  · exact Or.inr startClosing_comes

omit [DecidableEq Addr] in
theorem fundStep_comes (stranded : Bool)
    (candidates : List (ChannelEntry Id Addr)) :
    (∃ rest, (state.fundStep cfg stranded candidates).phase =
        .funding stranded rest) ∨
      state.ComesToClosing (state.fundStep cfg stranded candidates).phase := by
  cases candidates with
  | nil => exact Or.inr startClosing_comes
  | cons channel rest =>
      simp only [fundStep]
      split
      · exact Or.inr startClosing_comes
      · split
        · exact Or.inl ⟨_, rfl⟩
        · split
          · exact Or.inr startClosing_comes
          · exact Or.inl ⟨_, rfl⟩

/-- Once past the close pass, a tick does not come back to it. -/
theorem work_past (reread : Option (Option (ChannelEntry Id Addr)))
    (hpast : state.phase.IsPastClosing)
    (hwork : state.work cfg reread = some after) :
    after.phase.IsPastClosing := by
  unfold work at hwork
  split at hwork
  · cases hwork
  · rename_i hphase
    rw [hphase] at hpast
    exact hpast.elim
  · rename_i hphase
    rw [hphase] at hpast
    exact hpast.elim
  · rename_i closes remaining closeCount _
    cases hwork
    cases remaining with
    | nil => trivial
    | cons id rest =>
        simp only [consolidateStep]
        split
        · trivial
        · split
          · trivial
          · trivial
  · rename_i survivors _
    cases hwork
    cases survivors with
    | nil => exact startFinalizing_past
    | cons channel rest =>
        simp only [topUpStep]
        split
        · exact startFinalizing_past
        · split
          · trivial
          · split
            · exact startFinalizing_past
            · trivial
  · rename_i channels finalizeCount _
    cases hwork
    cases channels with
    | nil => exact startOpening_past
    | cons channel rest =>
        simp only [finalizeStep]
        split
        · exact startOpening_past
        · split
          · trivial
          · split
            · trivial
            · trivial
  · rename_i candidates _
    cases hwork
    cases candidates with
    | nil => trivial
    | cons dest rest =>
        simp only [openStep]
        split
        · trivial
        · split
          · trivial
          · trivial
  · cases hwork
  · cases hwork

/-- The close pass ends, or goes on behind its first candidate.  That one is
closed only if it is an open channel, and under the shield of connected peers
only if it was found disconnected. -/
inductive CloseStep (before after : LifecycleState Id Addr) :
    List Id → Prop where
  | ended {candidates : List Id} (hpast : after.phase.IsPastClosing)
      (hsends : Sends before after []) : CloseStep before after candidates
  | skipped {id : Id} {rest : List Id} (closeCount dispatched : ℕ)
      (hphase : after.phase = .closing rest closeCount dispatched)
      (hsends : Sends before after []) : CloseStep before after (id :: rest)
  | closed {id : Id} {rest : List Id} (closeCount dispatched : ℕ)
      (hphase : after.phase = .closing rest closeCount dispatched)
      (hsends : Sends before after [.close id])
      (hshield : before.tick.startupPhase = .shieldingConnected →
        id ∈ before.tick.disconnected) : CloseStep before after (id :: rest)

theorem closeStep_closeStep (closeCount dispatchedThisTick : ℕ)
    (candidates : List Id) :
    CloseStep state
      (state.closeStep cfg closeCount dispatchedThisTick candidates)
      candidates := by
  have hends : ∀ {others}, CloseStep state (state.startConsolidation cfg)
      others := fun {_} => .ended startConsolidation_past
    (sends_of_phase (startConsolidation_phase.imp fun _ => And.left))
  cases candidates with
  | nil => exact hends
  | cons id rest =>
      have hskips : CloseStep state { state with
          phase := .closing rest closeCount dispatchedThisTick }
          (id :: rest) :=
        .skipped closeCount dispatchedThisTick rfl
          ((Sends.refl state).phase _)
      simp only [closeStep]
      split
      · exact hends
      · split
        · exact hskips
        · rename_i channel hfound
          split
          · exact hskips
          · split
            · exact hskips
            · rename_i hshielded
              have hsends := @tryOperation_sends _ _ _ _ cfg state
                (.close channel.id)
              have htried : state.tryOperation cfg (.close channel.id) =
                state.tryCloseChannel cfg channel := rfl
              rw [htried, TickInputs.channelById_id hfound] at hsends
              split
              · rename_i hsubmitted
                rw [if_pos hsubmitted] at hsends
                refine .closed _ _ rfl (hsends.phase _) ?_
                intro hshield
                by_contra hconnected
                exact hshielded ⟨hshield, hconnected⟩
              · rename_i hrefused
                rw [if_neg hrefused] at hsends
                exact .skipped _ _ rfl (hsends.phase _)

theorem work_closeStep {candidates : List Id}
    {closeCount dispatchedThisTick : ℕ}
    {reread : Option (Option (ChannelEntry Id Addr))}
    (hphase : state.phase = .closing candidates closeCount dispatchedThisTick)
    (hwork : state.work cfg reread = some after) :
    CloseStep state after candidates := by
  have hmoved : state.closeStep cfg closeCount dispatchedThisTick candidates =
      after := by
    simpa [work, hphase] using hwork
  exact hmoved ▸ closeStep_closeStep _ _ _

/-- What happens once a tick has started: the tick works on, or its phase stays,
or there is no tick at work. -/
inductive AfterStart (cfg : ChannelLifecycleConfig)
    (before after : LifecycleState Id Addr) : Prop where
  | worked (reread : Option (Option (ChannelEntry Id Addr)))
      (hwork : before.work cfg reread = some after)
  | stayed (hphase : after.phase = before.phase)
      (htick : after.tick = before.tick)
      (hdispatched : after.dispatched = before.dispatched)
  | outside (hbefore : before.phase.IsPastClosing)
      (hafter : after.phase.IsPastClosing) (htick : after.tick = before.tick)
      (hdispatched : after.dispatched = before.dispatched)

theorem onBalanceDecreased_afterStart (channel : ChannelEntry Id Addr)
    (hidle : state.phase = .idle) :
    AfterStart cfg state (state.onBalanceDecreased channel) := by
  unfold onBalanceDecreased
  split
  · exact .stayed rfl rfl rfl
  · split
    · exact .stayed rfl rfl rfl
    · split
      · exact .stayed rfl rfl rfl
      · split
        · exact .outside (by rw [hidle]; trivial) trivial rfl rfl
        · exact .stayed rfl rfl rfl

theorem onBudget_afterStart {channel : ChannelEntry Id Addr}
    {funding : ResolvedFunding} (safe : Option SafeBudget)
    (hphase : state.phase = .decreased channel funding) :
    AfterStart cfg state (state.onBudget cfg channel funding safe) := by
  have hbefore : state.phase.IsPastClosing := by
    rw [hphase]
    trivial
  unfold onBudget
  split
  · exact .outside hbefore trivial rfl rfl
  · split
    · exact .outside hbefore trivial
        (tryOperation_sameTick (.fund channel.id funding.topupBalance)).tick rfl
    · exact .outside hbefore trivial rfl rfl

/-- An action which does not start a tick. -/
theorem next_afterStart {action : LifecycleAction Id Addr}
    (hstarted : ∀ inputs, action ≠ .tick inputs)
    (hnext : next cfg state action = some after) :
    AfterStart cfg state after := by
  cases action with
  | tick inputs => exact absurd rfl (hstarted inputs)
  | work reread => exact .worked reread hnext
  | pass now =>
      simp only [next] at hnext
      split at hnext
      · cases hnext
        exact .stayed rfl rfl rfl
      · cases hnext
  | report index =>
      simp only [next] at hnext
      split at hnext
      · rename_i operation holder _
        cases hnext
        cases operation with
        | «open» => exact .stayed rfl rfl rfl
        | fund => exact .stayed rfl rfl rfl
        | close => exact .stayed rfl rfl rfl
        | finalize => exact .stayed rfl rfl rfl
      · cases hnext
  | balanceDecreased channel =>
      simp only [next] at hnext
      split at hnext
      · rename_i hidle
        cases hnext
        exact onBalanceDecreased_afterStart channel hidle
      · cases hnext
  | budget safe =>
      simp only [next] at hnext
      split at hnext
      · rename_i hphase
        cases hnext
        exact onBudget_afterStart safe hphase
      · cases hnext
  | balanceIncreased id =>
      simp only [next] at hnext
      split at hnext
      · cases hnext
        exact .stayed rfl rfl rfl
      · cases hnext
  | channelOpened destination =>
      simp only [next] at hnext
      split at hnext
      · cases hnext
        exact .stayed rfl rfl rfl
      · cases hnext
  | closureInitiated id =>
      simp only [next] at hnext
      split at hnext
      · cases hnext
        exact .stayed rfl rfl rfl
      · cases hnext
  | channelClosed id =>
      simp only [next] at hnext
      split at hnext
      · cases hnext
        exact .stayed rfl rfl rfl
      · cases hnext

end LifecycleState

end HoprStrategy.ChannelLifecycle
