import HoprStrategy.LeaseExclusion
import HoprStrategy.LifecycleSteps
import HoprStrategy.TickBudget

/-!
# A Safe which cannot pay every top-up

In such a tick the fund pass defers the channels below face value to the
consolidation pass, but goes on to pay the others.  The consolidation pass
completes what the fund pass has left it the money for, and what is still free
and finds a slot.
-/

namespace HoprStrategy.ChannelLifecycle

open Library

variable {Id Addr : Type} [DecidableEq Id]

namespace LifecycleState

/-! ## Payments and deferred channels -/

/-- What was paid to which channel. -/
def payments (state : LifecycleState Id Addr) : List (Id × HoprBalance) :=
  state.dispatched.filterMap fun operation =>
    match operation with
    | .fund id amount => some (id, amount)
    | _ => none

/-- The channel was read as Open, and with at least face value. -/
def HoldsFaceValue (state : LifecycleState Id Addr) (id : Id) : Prop :=
  (∃ channel ∈ state.tick.openChannels, channel.id = id) ∧
    ∀ channel ∈ state.tick.openChannels, channel.id = id →
      ∀ funding ∈ state.tick.funding, funding.faceValue ≤ channel.balance

/-- The deferred channel holds less than face value, and `amount` would bring
it there. -/
def Completable (state : LifecycleState Id Addr) (amount : HoprBalance)
    (channel : ChannelEntry Id Addr) : Prop :=
  channel ∈ state.tick.openChannels ∧
    channel.id ∈ state.deferredToConsolidation ∧
    ∃ funding ∈ state.tick.funding, channel.balance < funding.faceValue ∧
      funding.faceValue.wei ≤ channel.balance.wei + amount.wei

/-- A channel with face value was paid what would complete the deferred one. -/
def Owed (state : LifecycleState Id Addr) (channel : ChannelEntry Id Addr) :
    Prop :=
  ∃ payment ∈ state.payments, state.HoldsFaceValue payment.1 ∧
    state.Completable payment.2 channel

/-- The channel was brought to face value. -/
def Completed (state : LifecycleState Id Addr)
    (channel : ChannelEntry Id Addr) : Prop :=
  ∃ payment ∈ state.payments, payment.1 = channel.id ∧
    ∀ funding ∈ state.tick.funding,
      funding.faceValue.wei ≤ channel.balance.wei + payment.2.wei

/-- No channel with face value was paid what would have completed a deferred
channel which the tick has left incomplete. -/
def CompletesMost (state : LifecycleState Id Addr) : Prop :=
  ∀ channel ∈ state.tick.openChannels,
    state.Owed channel → state.Completed channel

/-- What the channel lacks of face value. -/
def lacks (state : LifecycleState Id Addr) (channel : ChannelEntry Id Addr) :
    ℕ :=
  (state.tick.funding.map fun funding =>
    funding.faceValue.wei - channel.balance.wei).getD 0

variable [DecidableEq Addr]

instance (state : LifecycleState Id Addr) (id : Id) :
    Decidable (state.HoldsFaceValue id) :=
  inferInstanceAs (Decidable (_ ∧ _))

instance (state : LifecycleState Id Addr) (amount : HoprBalance)
    (channel : ChannelEntry Id Addr) :
    Decidable (state.Completable amount channel) :=
  inferInstanceAs (Decidable (_ ∧ _))

instance (state : LifecycleState Id Addr) (channel : ChannelEntry Id Addr) :
    Decidable (state.Owed channel) :=
  inferInstanceAs (Decidable (∃ payment ∈ state.payments, _))

instance (state : LifecycleState Id Addr) (channel : ChannelEntry Id Addr) :
    Decidable (state.Completed channel) :=
  inferInstanceAs (Decidable (∃ payment ∈ state.payments, _))

instance (state : LifecycleState Id Addr) : Decidable state.CompletesMost :=
  inferInstanceAs (Decidable (∀ channel ∈ state.tick.openChannels, _ → _))

/-- What the deferred channels lack which were to be completed instead of the
payments so far, or of one of `amount`. -/
def owedWith (state : LifecycleState Id Addr) (amount : HoprBalance) : ℕ :=
  ((state.tick.openChannels.filter fun channel =>
    state.Owed channel ∨ state.Completable amount channel).map state.lacks).sum

/-- The condition on a step.  A stranded fund pass pays a channel with face
value only out of what such deferred channels leave; these are free up to the
top-up pass, none of them is among the consolidation's closes, and each finds
a slot for its top-up. -/
def KeepsEnoughIn (cfg : ChannelLifecycleConfig)
    (state : LifecycleState Id Addr) : TaskPhase Id Addr → Prop
  | .funding stranded candidates =>
      (∀ channel ∈ state.tick.openChannels,
        state.Owed channel → state.isFree channel = true) ∧
      (stranded = true → ∀ channel ∈ candidates.head?,
        ∀ funding ∈ state.tick.funding, funding.faceValue ≤ channel.balance →
          state.fundable cfg channel.id = true →
          state.owedWith (fundAmount funding state.safeRemaining) +
            (fundAmount funding state.safeRemaining).wei ≤
              state.safeRemaining.wei)
  | .closing _ _ _ =>
      ∀ channel ∈ state.tick.openChannels,
        state.Owed channel → state.isFree channel = true
  | .consolidating closes _ _ =>
      ∀ channel ∈ state.tick.openChannels, state.Owed channel →
        state.isFree channel = true ∧ channel.id ∉ closes
  | .toppingUp survivors =>
      ∀ channel ∈ survivors.head?, state.Owed channel →
        state.fundable cfg channel.id = true
  | .idle | .finalizing _ _ | .opening _ | .decreased _ _ | .crashed => True

instance (cfg : ChannelLifecycleConfig) (state : LifecycleState Id Addr) :
    (phase : TaskPhase Id Addr) → Decidable (state.KeepsEnoughIn cfg phase)
  | .funding _ _ => inferInstanceAs (Decidable (_ ∧ _))
  | .closing _ _ _ => inferInstanceAs (Decidable (∀ channel ∈ _, _ → _))
  | .consolidating _ _ _ => inferInstanceAs (Decidable (∀ channel ∈ _, _ → _))
  | .toppingUp _ => inferInstanceAs (Decidable (∀ channel ∈ _, _ → _))
  | .idle | .finalizing _ _ | .opening _ | .decreased _ _ | .crashed =>
      inferInstanceAs (Decidable True)

/-- The step of the tick's own work meets the condition. -/
def KeepsEnough (cfg : ChannelLifecycleConfig)
    (state : LifecycleState Id Addr) : LifecycleAction Id Addr → Prop
  | .work _ => state.KeepsEnoughIn cfg state.phase
  | _ => True

instance (cfg : ChannelLifecycleConfig) (state : LifecycleState Id Addr) :
    (action : LifecycleAction Id Addr) →
      Decidable (state.KeepsEnough cfg action)
  | .work _ => inferInstanceAs (Decidable (state.KeepsEnoughIn cfg _))
  | .pass _ | .tick _ | .balanceDecreased _ | .budget _ | .balanceIncreased _
  | .channelOpened _ | .closureInitiated _ | .channelClosed _ | .report _ =>
      inferInstanceAs (Decidable True)

variable {cfg : ChannelLifecycleConfig}
  {state before after : LifecycleState Id Addr}

/-! ## What is owed -/

omit [DecidableEq Id] [DecidableEq Addr] in
theorem mem_payments {id : Id} {amount : HoprBalance} :
    (id, amount) ∈ state.payments ↔
      Operation.fund id amount ∈ state.dispatched := by
  unfold payments
  rw [List.mem_filterMap]
  constructor
  · rintro ⟨operation, hmem, heq⟩
    cases operation with
    | fund other paid =>
        cases heq
        exact hmem
    | «open» | close | finalize => cases heq
  · exact fun hmem => ⟨_, hmem, rfl⟩

omit [DecidableEq Id] [DecidableEq Addr] in
theorem not_completable_zero (channel : ChannelEntry Id Addr) :
    ¬ state.Completable HoprBalance.zero channel := by
  rintro ⟨_, _, funding, _, hbelow, hreach⟩
  rw [HoprBalance.lt_iff] at hbelow
  change funding.faceValue.wei ≤ channel.balance.wei + 0 at hreach
  omega

omit [DecidableEq Id] [DecidableEq Addr] in
theorem Owed.mem {channel : ChannelEntry Id Addr} (howed : state.Owed channel) :
    channel ∈ state.tick.openChannels :=
  howed.choose_spec.2.2.1

omit [DecidableEq Id] [DecidableEq Addr] in
theorem Owed.deferred {channel : ChannelEntry Id Addr}
    (howed : state.Owed channel) :
    channel.id ∈ state.deferredToConsolidation :=
  howed.choose_spec.2.2.2.1

omit [DecidableEq Id] [DecidableEq Addr] in
theorem Owed.below {channel : ChannelEntry Id Addr} {funding : ResolvedFunding}
    (howed : state.Owed channel) (hfunding : state.tick.funding = some funding) :
    channel.balance < funding.faceValue := by
  obtain ⟨_, _, _, _, _, found, hfound, hbelow, _⟩ := howed
  rw [hfunding, Option.mem_some_iff] at hfound
  exact hfound ▸ hbelow

omit [DecidableEq Id] [DecidableEq Addr] in
theorem lacks_of_tick (htick : after.tick = before.tick) :
    after.lacks = before.lacks := by
  unfold lacks
  rw [htick]

omit [DecidableEq Id] [DecidableEq Addr] in
theorem lacks_of_funding {funding : ResolvedFunding}
    (hfunding : state.tick.funding = some funding)
    (channel : ChannelEntry Id Addr) :
    state.lacks channel = (funding.faceValue - channel.balance).wei := by
  unfold lacks
  rw [hfunding, HoprBalance.sub_wei]
  rfl

omit [DecidableEq Id] [DecidableEq Addr] in
/-- What is owed to an emptier channel is owed to a fuller one as well. -/
theorem Owed.of_le {channel other : ChannelEntry Id Addr}
    (howed : state.Owed channel) (hmem : other ∈ state.tick.openChannels)
    (hdeferred : other.id ∈ state.deferredToConsolidation)
    (hshort : ∀ funding ∈ state.tick.funding,
      other.balance < funding.faceValue)
    (hle : channel.balance.wei ≤ other.balance.wei) : state.Owed other := by
  obtain ⟨payment, hpaid, hholds, _, _, funding, hfunding, _, hreach⟩ := howed
  exact ⟨payment, hpaid, hholds, hmem, hdeferred, funding, hfunding,
    hshort funding hfunding, by omega⟩

theorem owedWith_zero :
    state.owedWith HoprBalance.zero =
      ((state.tick.openChannels.filter fun channel =>
        state.Owed channel).map state.lacks).sum := by
  simp only [owedWith, not_completable_zero, or_false]

theorem owedWith_zero_of_none (hnone : ∀ channel, ¬ state.Owed channel) :
    state.owedWith HoprBalance.zero = 0 := by
  rw [owedWith_zero]
  simp [hnone]

/-! ## What a step pays -/

/-- No operation pays a channel with face value. -/
def Spares (state : LifecycleState Id Addr)
    (operations : List (Operation Id Addr)) : Prop :=
  ∀ id amount, Operation.fund id amount ∈ operations →
    ¬ state.HoldsFaceValue id

omit [DecidableEq Id] [DecidableEq Addr] in
theorem spares_of_ne {operation : Operation Id Addr}
    (hne : ∀ id amount, operation ≠ .fund id amount) (submitted : Bool) :
    state.Spares (if submitted then [operation] else []) := by
  intro id amount hmem
  split at hmem
  · exact absurd (List.mem_singleton.mp hmem).symm (hne id amount)
  · cases hmem

section

variable {operations : List (Operation Id Addr)}

omit [DecidableEq Id] [DecidableEq Addr] in
theorem Sends.mem_payments (hsends : Sends before after operations)
    {payment : Id × HoprBalance} : payment ∈ after.payments ↔
      payment ∈ before.payments ∨
        Operation.fund payment.1 payment.2 ∈ operations := by
  obtain ⟨id, amount⟩ := payment
  rw [LifecycleState.mem_payments, LifecycleState.mem_payments,
    hsends.dispatched, List.mem_append]

omit [DecidableEq Id] [DecidableEq Addr] in
theorem Sends.holdsFaceValue (hsends : Sends before after operations)
    (id : Id) : after.HoldsFaceValue id ↔ before.HoldsFaceValue id := by
  unfold HoldsFaceValue
  rw [hsends.tick]

omit [DecidableEq Id] [DecidableEq Addr] in
theorem Sends.completable (hsends : Sends before after operations)
    (amount : HoprBalance) (channel : ChannelEntry Id Addr) :
    after.Completable amount channel ↔ before.Completable amount channel := by
  unfold Completable
  rw [hsends.tick, hsends.deferred]

omit [DecidableEq Id] [DecidableEq Addr] in
theorem Sends.owed (hsends : Sends before after operations)
    (hspares : before.Spares operations) (channel : ChannelEntry Id Addr) :
    after.Owed channel ↔ before.Owed channel := by
  unfold Owed
  simp only [hsends.mem_payments, hsends.holdsFaceValue, hsends.completable]
  constructor
  · rintro ⟨payment, hpaid | hsent, hholds, hcompletable⟩
    · exact ⟨payment, hpaid, hholds, hcompletable⟩
    · exact absurd hholds (hspares _ _ hsent)
  · rintro ⟨payment, hpaid, hrest⟩
    exact ⟨payment, Or.inl hpaid, hrest⟩

omit [DecidableEq Id] [DecidableEq Addr] in
theorem Sends.completed (hsends : Sends before after operations)
    {channel : ChannelEntry Id Addr} (hcompleted : before.Completed channel) :
    after.Completed channel := by
  obtain ⟨payment, hpaid, hid, hreach⟩ := hcompleted
  refine ⟨payment, hsends.mem_payments.mpr (Or.inl hpaid), hid, ?_⟩
  rw [hsends.tick]
  exact hreach

omit [DecidableEq Id] [DecidableEq Addr] in
theorem Sends.completesMost (hsends : Sends before after operations)
    (hspares : before.Spares operations) (hmost : before.CompletesMost) :
    after.CompletesMost := by
  intro channel hmem howed
  rw [hsends.tick] at hmem
  rw [hsends.owed hspares] at howed
  exact hsends.completed (hmost channel hmem howed)

omit [DecidableEq Id] [DecidableEq Addr] in
/-- What is sent is paid out of the remainder. -/
theorem Sends.remaining (hsends : Sends before after operations)
    (hbefore : before.Balanced) (hafter : after.Balanced) :
    after.safeRemaining.wei + committed operations =
      before.safeRemaining.wei := by
  have htotal : committed after.dispatched =
      committed before.dispatched + committed operations := by
    rw [hsends.dispatched]
    unfold committed
    rw [List.map_append, List.sum_append]
  unfold Balanced at hbefore hafter
  rw [hsends.tick] at hafter
  omega

/-- The remainder has what the deferred channels lack which are owed to. -/
structure Solvent (state : LifecycleState Id Addr) : Prop where
  safe : ∀ channel, state.Owed channel → state.tick.safe.isSome = true
  enough : state.owedWith HoprBalance.zero ≤ state.safeRemaining.wei

theorem Solvent.of_none (hnone : ∀ channel, ¬ state.Owed channel) :
    state.Solvent := by
  refine ⟨fun channel howed => absurd howed (hnone channel), ?_⟩
  rw [owedWith_zero_of_none hnone]
  exact Nat.zero_le _

theorem Solvent.sent (hsolvent : before.Solvent)
    (hsends : Sends before after operations)
    (hspares : before.Spares operations) (hnothing : committed operations = 0)
    (hbefore : before.Balanced) (hafter : after.Balanced) : after.Solvent := by
  have hremaining := hsends.remaining hbefore hafter
  constructor
  · intro channel howed
    rw [hsends.tick]
    exact hsolvent.safe channel ((hsends.owed hspares channel).mp howed)
  · have hsame : after.owedWith HoprBalance.zero =
        before.owedWith HoprBalance.zero := by
      rw [owedWith_zero, owedWith_zero, lacks_of_tick hsends.tick,
        hsends.tick]
      simp only [hsends.owed hspares]
    have henough := hsolvent.enough
    omega

end

theorem Solvent.phase (hsolvent : state.Solvent) (phase : TaskPhase Id Addr) :
    Solvent { state with phase := phase } :=
  ⟨hsolvent.safe, hsolvent.enough⟩

theorem Solvent.closes (hsolvent : state.Solvent)
    (cfg : ChannelLifecycleConfig) (hbalanced : state.Balanced)
    (channel : ChannelEntry Id Addr) :
    (state.tryCloseChannel cfg channel).2.Solvent := by
  refine hsolvent.sent (tryOperation_sends (.close channel.id))
    (spares_of_ne (fun _ _ heq => by cases heq) _) ?_ hbalanced
    (tryCloseChannel_balanced channel hbalanced)
  split
  · rfl
  · rfl

/-! ## The passes from the last to the top-ups -/

/-- The survivors come in the order of what they lack, and the remainder has
what those of them lack which are owed to. -/
structure TopUpReady (state : LifecycleState Id Addr)
    (survivors : List (ChannelEntry Id Addr)) : Prop where
  read : ∀ channel ∈ survivors, channel ∈ state.tick.openChannels
  deferred : ∀ channel ∈ survivors,
    channel.id ∈ state.deferredToConsolidation
  sorted : survivors.Pairwise fun first second =>
    second.balance.wei ≤ first.balance.wei
  kept : ∀ channel ∈ state.tick.openChannels, state.Owed channel →
    state.Completed channel ∨ channel ∈ survivors
  enough : ((survivors.filter fun channel =>
    state.Owed channel).map state.lacks).sum ≤ state.safeRemaining.wei

/-- The candidates come in the order of their balances.  Once something was
paid in a stranded tick, no channel below face value is left. -/
structure FundingReady (state : LifecycleState Id Addr) (stranded : Bool)
    (candidates : List (ChannelEntry Id Addr)) : Prop where
  read : ∀ channel ∈ candidates, channel ∈ state.tick.openChannels
  sorted : candidates.Pairwise fun first second =>
    first.balance.wei ≤ second.balance.wei
  unstranded : stranded = false → state.deferredToConsolidation = []
  paid : stranded = true → state.dispatched ≠ [] →
    ∀ funding ∈ state.tick.funding,
      ∀ channel ∈ candidates, funding.faceValue ≤ channel.balance
  safe : state.tick.safe.isSome = true
  solvent : state.Solvent

theorem FundingReady.phase {stranded : Bool}
    {candidates : List (ChannelEntry Id Addr)}
    (hready : state.FundingReady stranded candidates)
    (phase : TaskPhase Id Addr) :
    FundingReady { state with phase := phase } stranded candidates :=
  ⟨hready.read, hready.sorted, hready.unstranded, hready.paid, hready.safe,
    hready.solvent.phase phase⟩

/-- What the passes keep up, by the pass at hand. -/
def PassReady (state : LifecycleState Id Addr) : Prop :=
  match state.phase with
  | .funding stranded candidates => state.FundingReady stranded candidates
  | .closing _ _ _ | .consolidating _ _ _ => state.Solvent
  | .toppingUp survivors => state.TopUpReady survivors
  | .idle | .finalizing _ _ | .opening _ => state.CompletesMost
  | .decreased _ _ | .crashed => True

theorem startOpening_ready (hmost : state.CompletesMost) :
    (state.startOpening cfg).PassReady := by
  unfold startOpening
  dsimp only
  split
  · split
    · exact hmost
    · exact hmost
  · exact hmost

theorem startFinalizing_ready (hmost : state.CompletesMost) :
    (state.startFinalizing cfg).PassReady := by
  unfold startFinalizing
  split
  · exact hmost
  · exact startOpening_ready hmost

theorem finalizeStep_ready (hmost : state.CompletesMost) (finalizeCount : ℕ)
    (channels : List (ChannelEntry Id Addr)) :
    (state.finalizeStep cfg finalizeCount channels).PassReady := by
  cases channels with
  | nil => exact startOpening_ready hmost
  | cons channel rest =>
      simp only [finalizeStep]
      split
      · exact startOpening_ready hmost
      · split
        · exact hmost
        · split
          · exact (@tryOperation_sends _ _ _ _ cfg state
              (.finalize channel.id)).completesMost
              (spares_of_ne (fun _ _ heq => by cases heq) _) hmost
          · exact hmost

/-- The channel which the open pass re-reads was not read as Open. -/
def RereadsOther (inputs : TickInputs Id Addr)
    (reread : Option (Option (ChannelEntry Id Addr))) : Prop :=
  ∀ existing ∈ reread.join,
    ∀ channel ∈ inputs.openChannels, channel.id ≠ existing.id

theorem tryOpenChannel_sends {dest : Addr} {funding : ResolvedFunding}
    {reread : Option (Option (ChannelEntry Id Addr))}
    (hother : RereadsOther state.tick reread) :
    ∃ operations, Sends state (state.tryOpenChannel cfg dest funding reread)
      operations ∧ state.Spares operations := by
  have hnothing : ∃ operations, Sends state state operations ∧
      state.Spares operations := by
    refine ⟨[], Sends.refl state, ?_⟩
    intro id amount hmem
    cases hmem
  have hopening : ∃ operations, Sends state (spent funding.initialBalance
      (state.openNewChannel cfg dest funding.initialBalance)) operations ∧
      state.Spares operations :=
    ⟨_, (tryOperation_sends (.open dest funding.initialBalance)).spent _,
      spares_of_ne (fun _ _ heq => by cases heq) _⟩
  unfold tryOpenChannel
  split
  · rename_i existing
    split
    · split
      · exact hnothing
      · split
        · exact hnothing
        · refine ⟨_, (tryOperation_sends
            (.fund existing.id funding.topupBalance)).spent _, ?_⟩
          intro id amount hmem hholds
          split at hmem
          · cases List.mem_singleton.mp hmem
            obtain ⟨channel, hopen, hid⟩ := hholds.1
            exact hother existing rfl channel hopen hid
          · cases hmem
    · exact hnothing
    · exact hopening
  · exact hopening
  · exact hopening

theorem openStep_ready {reread : Option (Option (ChannelEntry Id Addr))}
    (hother : RereadsOther state.tick reread) (hmost : state.CompletesMost)
    (candidates : List Addr) :
    (state.openStep cfg reread candidates).PassReady := by
  cases candidates with
  | nil => exact hmost
  | cons dest rest =>
      simp only [openStep]
      split
      · exact hmost
      · rename_i funding _
        split
        · exact hmost
        · obtain ⟨operations, hsends, hspares⟩ :=
            @tryOpenChannel_sends _ _ _ _ cfg state dest funding reread hother
          exact hsends.completesMost hspares hmost

omit [DecidableEq Addr] in
/-- A top-up is dispatched exactly if its slot is free and the action budget
has room. -/
theorem tryFundChannel_submitted (hlease : 0 < cfg.actionLeaseTimeout)
    (channel : ChannelEntry Id Addr) (amount : HoprBalance) :
    (state.tryFundChannel cfg channel amount).1 =
      state.fundable cfg channel.id := by
  unfold tryFundChannel spawnLeased fundable beingFunded
  cases hheld : state.fundInFlight.isHeld state.now channel.id with
  | true =>
      rw [ActionLeases.acquire_of_held hheld]
      simp
  | false =>
      have hcount := ActionLeases.heldCount_acquire hlease hheld
      have htotal : totalInFlight { state with
          fundInFlight := (state.fundInFlight.acquire state.now
            cfg.actionLeaseTimeout channel.id).2 } =
          state.totalInFlight + 1 := by
        unfold totalInFlight
        dsimp only
        omega
      rw [ActionLeases.acquire_of_free hheld] at htotal ⊢
      dsimp only
      rw [htotal]
      by_cases hfull : cfg.maxConcurrentActions < state.totalInFlight + 1
      · rw [if_pos hfull]
        simp only [Bool.not_false, Bool.true_and, Bool.false_eq,
          decide_eq_false_iff_not]
        omega
      · rw [if_neg hfull]
        simp only [Bool.not_false, Bool.true_and, Bool.true_eq,
          decide_eq_true_eq]
        omega

theorem tryFundChannel_sends (hlease : 0 < cfg.actionLeaseTimeout)
    (channel : ChannelEntry Id Addr) (amount : HoprBalance) :
    Sends state (spent amount (state.tryFundChannel cfg channel amount))
      (if state.fundable cfg channel.id then [.fund channel.id amount]
        else []) := by
  have hsends := (@tryOperation_sends _ _ _ _ cfg state
    (.fund channel.id amount)).spent amount
  have htried : state.tryOperation cfg (.fund channel.id amount) =
    state.tryFundChannel cfg channel amount := rfl
  rwa [htried, tryFundChannel_submitted hlease] at hsends

/-! ## The top-up pass -/

/-- The fuller channels come first, so those which are owed to do. -/
theorem TopUpReady.head_owed {channel other : ChannelEntry Id Addr}
    {rest : List (ChannelEntry Id Addr)}
    (hready : state.TopUpReady (channel :: rest))
    (hmem : other ∈ channel :: rest) (howed : state.Owed other)
    {funding : ResolvedFunding}
    (hfunding : state.tick.funding = some funding)
    (hbelow : channel.balance < funding.faceValue) : state.Owed channel := by
  refine howed.of_le (hready.read _ List.mem_cons_self)
    (hready.deferred _ List.mem_cons_self) ?_ ?_
  · intro found hfound
    rw [hfunding, Option.mem_some_iff] at hfound
    exact hfound ▸ hbelow
  · rcases List.mem_cons.mp hmem with heq | hlater
    · rw [heq]
    · exact List.rel_of_pairwise_cons hready.sorted hlater

/-- The remainder has what the first channel lacks, next to the others. -/
theorem TopUpReady.head_enough {channel : ChannelEntry Id Addr}
    {rest : List (ChannelEntry Id Addr)}
    (hready : state.TopUpReady (channel :: rest))
    (howed : state.Owed channel) :
    state.lacks channel + ((rest.filter fun other =>
      state.Owed other).map state.lacks).sum ≤ state.safeRemaining.wei := by
  have henough := hready.enough
  rw [List.filter_cons_of_pos (by simpa using howed), List.map_cons,
    List.sum_cons] at henough
  exact henough

/-- A first channel to which nothing is owed may be passed over. -/
theorem TopUpReady.skip {channel : ChannelEntry Id Addr}
    {rest : List (ChannelEntry Id Addr)}
    (hready : state.TopUpReady (channel :: rest))
    (hnot : ¬ state.Owed channel) : state.TopUpReady rest := by
  constructor
  · exact fun other hmem => hready.read other (List.mem_cons_of_mem _ hmem)
  · exact fun other hmem =>
      hready.deferred other (List.mem_cons_of_mem _ hmem)
  · exact hready.sorted.of_cons
  · intro other hmem howed
    rcases hready.kept other hmem howed with hdone | hleft
    · exact Or.inl hdone
    · rcases List.mem_cons.mp hleft with heq | hlater
      · exact absurd (heq ▸ howed) hnot
      · exact Or.inr hlater
  · have henough := hready.enough
    rw [List.filter_cons_of_neg (by simpa using hnot)] at henough
    exact henough

theorem TopUpReady.phase {survivors : List (ChannelEntry Id Addr)}
    (hready : state.TopUpReady survivors) (phase : TaskPhase Id Addr) :
    TopUpReady { state with phase := phase } survivors :=
  ⟨hready.read, hready.deferred, hready.sorted, hready.kept, hready.enough⟩

theorem TopUpReady.completesMost {survivors : List (ChannelEntry Id Addr)}
    (hready : state.TopUpReady survivors)
    (hnone : ∀ channel ∈ survivors, ¬ state.Owed channel) :
    state.CompletesMost := by
  intro channel hmem howed
  rcases hready.kept channel hmem howed with hdone | hleft
  · exact hdone
  · exact absurd howed (hnone channel hleft)

theorem topUpStep_pays {channel : ChannelEntry Id Addr}
    {rest : List (ChannelEntry Id Addr)} {funding : ResolvedFunding}
    (hlease : 0 < cfg.actionLeaseTimeout) (hbalanced : state.Balanced)
    (hready : state.TopUpReady (channel :: rest))
    (hslot : state.Owed channel → state.fundable cfg channel.id = true)
    (hfunding : state.tick.funding = some funding)
    (hbelow : channel.balance < funding.faceValue)
    (hle : funding.faceValue - channel.balance ≤ state.safeRemaining) :
    TopUpReady (spent (funding.faceValue - channel.balance)
      (state.tryFundChannel cfg channel
        (funding.faceValue - channel.balance))) rest := by
  have hafter : Balanced (spent (funding.faceValue - channel.balance)
      (state.tryFundChannel cfg channel
        (funding.faceValue - channel.balance))) :=
    tryFundChannel_balanced channel hle hbalanced
  have hsends := @tryFundChannel_sends _ _ _ _ cfg state hlease channel
    (funding.faceValue - channel.balance)
  have hspares : state.Spares (if state.fundable cfg channel.id
      then [.fund channel.id (funding.faceValue - channel.balance)]
      else []) := by
    intro id amount hmem
    split at hmem
    · cases List.mem_singleton.mp hmem
      intro hholds
      have hface := hholds.2 channel (hready.read _ List.mem_cons_self) rfl
        funding hfunding
      rw [HoprBalance.le_iff] at hface
      rw [HoprBalance.lt_iff] at hbelow
      omega
    · cases hmem
  have hremaining := hsends.remaining hbalanced hafter
  constructor
  · intro other hmem
    rw [hsends.tick]
    exact hready.read other (List.mem_cons_of_mem _ hmem)
  · intro other hmem
    rw [hsends.deferred]
    exact hready.deferred other (List.mem_cons_of_mem _ hmem)
  · exact hready.sorted.of_cons
  · intro other hmem howed
    rw [hsends.tick] at hmem
    rw [hsends.owed hspares] at howed
    rcases hready.kept other hmem howed with hdone | hleft
    · exact Or.inl (hsends.completed hdone)
    · rcases List.mem_cons.mp hleft with heq | hlater
      · subst heq
        refine Or.inl ⟨(other.id, funding.faceValue - other.balance),
          hsends.mem_payments.mpr (Or.inr ?_), rfl, ?_⟩
        · rw [if_pos (hslot howed)]
          exact List.mem_singleton.mpr rfl
        · intro found hfound
          rw [hsends.tick, hfunding, Option.mem_some_iff] at hfound
          rw [← hfound, HoprBalance.sub_wei]
          omega
      · exact Or.inr hlater
  · simp only [hsends.owed hspares, lacks_of_tick hsends.tick]
    by_cases howed : state.Owed channel
    · have henough := hready.head_enough howed
      rw [lacks_of_funding hfunding] at henough
      rw [if_pos (hslot howed)] at hremaining
      simp only [committed, List.map_singleton, List.sum_singleton,
        Operation.amount] at hremaining
      omega
    · have hnone : rest.filter (fun other => state.Owed other) = [] := by
        rw [List.filter_eq_nil_iff]
        intro other hmem hother
        exact howed (hready.head_owed (List.mem_cons_of_mem _ hmem)
          (by simpa using hother) hfunding hbelow)
      rw [hnone]
      exact Nat.zero_le _

theorem topUpStep_ready {survivors : List (ChannelEntry Id Addr)}
    (hlease : 0 < cfg.actionLeaseTimeout) (hbalanced : state.Balanced)
    (hready : state.TopUpReady survivors)
    (hslot : ∀ channel ∈ survivors.head?, state.Owed channel →
      state.fundable cfg channel.id = true) :
    (state.topUpStep cfg survivors).PassReady := by
  cases survivors with
  | nil =>
      refine startFinalizing_ready (hready.completesMost ?_)
      intro channel hmem
      cases hmem
  | cons channel rest =>
      simp only [topUpStep]
      split
      · rename_i hnone
        refine startFinalizing_ready (hready.completesMost ?_)
        rintro other _ ⟨_, _, _, _, _, funding, hfunding, _⟩
        rw [hnone] at hfunding
        cases hfunding
      · rename_i funding hfunding
        have htopup : (funding.faceValue - channel.balance).wei =
            funding.faceValue.wei - channel.balance.wei :=
          HoprBalance.sub_wei _ _
        split
        · rename_i hzero
          -- Such a channel has face value.
          have hwei : (funding.faceValue - channel.balance).wei = 0 := by
            simpa [HoprBalance.isZero] using hzero
          have hnot : ¬ state.Owed channel := by
            intro howed
            have hbelow := howed.below hfunding
            rw [HoprBalance.lt_iff] at hbelow
            omega
          exact (hready.skip hnot).phase (.toppingUp rest)
        · rename_i hpositive
          have hbelow : channel.balance < funding.faceValue := by
            rw [HoprBalance.lt_iff]
            have hwei : (funding.faceValue - channel.balance).wei ≠ 0 := by
              simpa [HoprBalance.isZero] using hpositive
            omega
          split
          · rename_i hpoor
            refine startFinalizing_ready (hready.completesMost ?_)
            intro other hmem howed
            have hfirst := hready.head_owed hmem howed hfunding hbelow
            have henough := hready.head_enough hfirst
            rw [lacks_of_funding hfunding] at henough
            rw [HoprBalance.lt_iff] at hpoor
            omega
          · rename_i hafford
            exact (topUpStep_pays hlease hbalanced hready
              (hslot channel rfl) hfunding hbelow
              (Nat.le_of_not_lt hafford)).phase (.toppingUp rest)

theorem startToppingUp_ready {closes : List Id} (hsolvent : state.Solvent)
    (hclear : ∀ channel ∈ state.tick.openChannels, state.Owed channel →
      state.isFree channel = true ∧ channel.id ∉ closes) :
    (state.startToppingUp closes).PassReady := by
  have hperm := List.perm_insertionSort
    (fun a b : ChannelEntry Id Addr => b.balance.wei ≤ a.balance.wei)
    (state.tick.openChannels.filter fun channel =>
      state.isFree channel && channel.id ∉ closes)
  refine TopUpReady.phase ⟨?_, ?_, ?_, ?_, ?_⟩ _
  · intro channel hmem
    exact (List.mem_filter.mp (hperm.mem_iff.mp hmem)).1
  · intro channel hmem
    have hfree := (List.mem_filter.mp (hperm.mem_iff.mp hmem)).2
    rw [Bool.and_eq_true] at hfree
    exact (isFree_iff.mp hfree.1).1
  · exact List.pairwise_insertionSort _ _
  · intro channel hmem howed
    have hkept := hclear channel hmem howed
    refine Or.inr (hperm.mem_iff.mpr (List.mem_filter.mpr ⟨hmem, ?_⟩))
    simpa using hkept
  · have hsum := ((hperm.filter fun channel =>
      state.Owed channel).map state.lacks).sum_eq
    have hsublist := ((List.filter_sublist (l := state.tick.openChannels)
      (p := fun channel =>
        state.isFree channel && channel.id ∉ closes)).filter fun channel =>
          state.Owed channel).map state.lacks
    have hle := hsublist.sum_le_sum fun _ _ => Nat.zero_le _
    have henough := hsolvent.enough
    rw [owedWith_zero] at henough
    omega

theorem consolidateStep_ready {closes : List Id} (hsolvent : state.Solvent)
    (hbalanced : state.Balanced)
    (hclear : ∀ channel ∈ state.tick.openChannels, state.Owed channel →
      state.isFree channel = true ∧ channel.id ∉ closes)
    (remaining : List Id) (closeCount : ℕ) :
    (state.consolidateStep cfg closes closeCount remaining).PassReady := by
  cases remaining with
  | nil => exact startToppingUp_ready hsolvent hclear
  | cons id rest =>
      simp only [consolidateStep]
      split
      · exact startToppingUp_ready hsolvent hclear
      · split
        · exact hsolvent.phase _
        · rename_i channel _
          exact (hsolvent.closes cfg hbalanced channel).phase _

/-! ## The close pass -/

theorem startConsolidation_ready (hsolvent : state.Solvent)
    (hfree : ∀ channel ∈ state.tick.openChannels, state.Owed channel →
      state.isFree channel = true) :
    (state.startConsolidation cfg).PassReady := by
  unfold startConsolidation
  dsimp only
  split
  · rename_i funding safe hfunding hsafe
    split
    · rename_i hnothing
      refine startFinalizing_ready ?_
      intro channel hmem howed
      exfalso
      have hmine := hfree channel hmem howed
      have hdeferred := howed.deferred
      have hbelow := howed.below hfunding
      rw [HoprBalance.lt_iff] at hbelow
      rw [Bool.or_eq_true, Bool.or_eq_true] at hnothing
      rcases hnothing with (hzero | hempty) | hempty
      · have hwei : funding.faceValue.wei = 0 := by
          simpa [HoprBalance.isZero] using hzero
        omega
      · rw [List.isEmpty_iff.mp hempty] at hdeferred
        cases hdeferred
      · have hnone := List.isEmpty_iff.mp hempty
        rw [List.filter_eq_nil_iff] at hnone
        exact hnone channel hmem hmine
    · split
      · trivial
      · exact hsolvent.phase _
  · rename_i hmissing
    refine startFinalizing_ready ?_
    intro channel hmem howed
    exfalso
    have hsafe := hsolvent.safe channel howed
    obtain ⟨_, _, _, _, _, funding, hfunding, _⟩ := howed
    obtain ⟨safe, hsafe⟩ := Option.isSome_iff_exists.mp hsafe
    exact hmissing funding safe hfunding hsafe

theorem startClosing_ready (hsolvent : state.Solvent)
    (hfree : ∀ channel ∈ state.tick.openChannels, state.Owed channel →
      state.isFree channel = true) :
    (state.startClosing cfg).PassReady := by
  unfold startClosing
  split
  · exact startConsolidation_ready hsolvent hfree
  · exact hsolvent.phase _

theorem closeStep_ready (hsolvent : state.Solvent) (hbalanced : state.Balanced)
    (hfree : ∀ channel ∈ state.tick.openChannels, state.Owed channel →
      state.isFree channel = true)
    (closeCount dispatchedThisTick : ℕ) (candidates : List Id) :
    (state.closeStep cfg closeCount dispatchedThisTick
      candidates).PassReady := by
  cases candidates with
  | nil => exact startConsolidation_ready hsolvent hfree
  | cons id rest =>
      have hskipped : PassReady { state with
          phase := .closing rest closeCount dispatchedThisTick } :=
        hsolvent.phase _
      simp only [closeStep]
      split
      · exact startConsolidation_ready hsolvent hfree
      · split
        · exact hskipped
        · rename_i channel _
          split
          · exact hskipped
          · split
            · exact hskipped
            · have hclosed := hsolvent.closes cfg hbalanced channel
              unfold PassReady
              cases (state.tryCloseChannel cfg channel).1 with
              | true => exact hclosed.phase _
              | false => exact hclosed.phase _

/-! ## The fund pass -/

omit [DecidableEq Id] [DecidableEq Addr] in
theorem not_owed_of_unsent (hnothing : state.dispatched = [])
    (channel : ChannelEntry Id Addr) : ¬ state.Owed channel := by
  rintro ⟨⟨id, amount⟩, hpaid, _⟩
  rw [mem_payments, hnothing] at hpaid
  cases hpaid

omit [DecidableEq Id] [DecidableEq Addr] in
theorem not_owed_of_undeferred (hnone : state.deferredToConsolidation = [])
    (channel : ChannelEntry Id Addr) : ¬ state.Owed channel := by
  intro howed
  have hmem := howed.deferred
  rw [hnone] at hmem
  cases hmem

theorem fundStep_defers {channel : ChannelEntry Id Addr}
    {rest : List (ChannelEntry Id Addr)} {funding : ResolvedFunding}
    (hready : state.FundingReady true (channel :: rest))
    (hfunding : state.tick.funding = some funding)
    (hbelow : channel.balance < funding.faceValue) :
    FundingReady { state with
      deferredToConsolidation := channel.id :: state.deferredToConsolidation
      phase := .funding true rest } true rest := by
  have hnothing : state.dispatched = [] := by
    by_contra hpaid
    have hface := hready.paid rfl hpaid funding hfunding channel
      List.mem_cons_self
    rw [HoprBalance.le_iff] at hface
    rw [HoprBalance.lt_iff] at hbelow
    omega
  refine ⟨?_, hready.sorted.of_cons, ?_, ?_, hready.safe,
    .of_none (not_owed_of_unsent hnothing)⟩
  · exact fun other hmem => hready.read other (List.mem_cons_of_mem _ hmem)
  · intro hfalse
    cases hfalse
  · intro _ hpaid
    exact absurd hnothing hpaid

/-- What a payment leaves covers what is owed after it. -/
theorem Solvent.pays {channel : ChannelEntry Id Addr} {amount : HoprBalance}
    (hlease : 0 < cfg.actionLeaseTimeout) (hbalanced : state.Balanced)
    (hsolvent : state.Solvent) (hsafe : state.tick.safe.isSome = true)
    (hle : amount ≤ state.safeRemaining)
    (henough : state.fundable cfg channel.id = true →
      state.owedWith amount + amount.wei ≤ state.safeRemaining.wei) :
    Solvent (spent amount (state.tryFundChannel cfg channel amount)) := by
  have hafter := @tryFundChannel_balanced _ _ cfg _ _ channel _ hle hbalanced
  have hsends := @tryFundChannel_sends _ _ _ _ cfg state hlease channel amount
  refine ⟨fun _ _ => by rwa [hsends.tick], ?_⟩
  cases hslot : state.fundable cfg channel.id with
  | false =>
      rw [hslot] at hsends
      refine (hsolvent.sent hsends ?_ rfl hbalanced hafter).enough
      intro _ _ hmem
      cases hmem
  | true =>
      rw [hslot, if_pos rfl] at hsends
      have hremaining := hsends.remaining hbalanced hafter
      simp only [committed, List.map_singleton, List.sum_singleton,
        Operation.amount] at hremaining
      have howed : ∀ other, Owed (spent amount
          (state.tryFundChannel cfg channel amount)) other →
          state.Owed other ∨ state.Completable amount other := by
        rintro other ⟨⟨id, paid⟩, hpaid, hholds, hcompletable⟩
        rw [hsends.mem_payments] at hpaid
        rw [hsends.holdsFaceValue] at hholds
        rw [hsends.completable] at hcompletable
        rcases hpaid with hbefore | hsent
        · exact Or.inl ⟨(id, paid), hbefore, hholds, hcompletable⟩
        · cases List.mem_singleton.mp hsent
          exact Or.inr hcompletable
      have hlacks := lacks_of_tick hsends.tick
      have hmono : owedWith (spent amount
          (state.tryFundChannel cfg channel amount)) HoprBalance.zero ≤
          state.owedWith amount := by
        rw [owedWith_zero, hsends.tick, hlacks]
        unfold owedWith
        refine ((List.monotone_filter_right _ ?_).map _).sum_le_sum
          fun _ _ => Nat.zero_le _
        intro other hother
        simpa using howed other (by simpa using hother)
      have hleft := henough hslot
      omega

theorem fundStep_pays {stranded : Bool} {channel : ChannelEntry Id Addr}
    {rest : List (ChannelEntry Id Addr)} {funding : ResolvedFunding}
    (hlease : 0 < cfg.actionLeaseTimeout) (hbalanced : state.Balanced)
    (hready : state.FundingReady stranded (channel :: rest))
    (hfunding : state.tick.funding = some funding)
    (hface : stranded = true → funding.faceValue ≤ channel.balance)
    (henough : stranded = true → state.fundable cfg channel.id = true →
      state.owedWith (fundAmount funding state.safeRemaining) +
        (fundAmount funding state.safeRemaining).wei ≤
          state.safeRemaining.wei) :
    FundingReady (spent (fundAmount funding state.safeRemaining)
      (state.tryFundChannel cfg channel
        (fundAmount funding state.safeRemaining))) stranded rest := by
  have hsends := @tryFundChannel_sends _ _ _ _ cfg state hlease channel
    (fundAmount funding state.safeRemaining)
  constructor
  · intro other hmem
    rw [hsends.tick]
    exact hready.read other (List.mem_cons_of_mem _ hmem)
  · exact hready.sorted.of_cons
  · intro hstranded
    rw [hsends.deferred]
    exact hready.unstranded hstranded
  · intro hstranded _ other hother later hmem
    rw [hsends.tick, hfunding, Option.mem_some_iff] at hother
    have horder := List.rel_of_pairwise_cons hready.sorted hmem
    have hholds := hface hstranded
    rw [HoprBalance.le_iff] at hholds ⊢
    rw [← hother]
    exact hholds.trans horder
  · rw [hsends.tick]
    exact hready.safe
  · cases stranded with
    | false =>
        -- Nothing is deferred in this case.
        apply Solvent.of_none
        apply not_owed_of_undeferred
        rw [hsends.deferred]
        exact hready.unstranded rfl
    | true =>
        exact hready.solvent.pays hlease hbalanced hready.safe
          (fundAmount_le _ _) (henough rfl)

theorem fundStep_ready {stranded : Bool}
    {candidates : List (ChannelEntry Id Addr)}
    (hlease : 0 < cfg.actionLeaseTimeout) (hbalanced : state.Balanced)
    (hready : state.FundingReady stranded candidates)
    (hkeeps : state.KeepsEnoughIn cfg (.funding stranded candidates)) :
    (state.fundStep cfg stranded candidates).PassReady := by
  obtain ⟨hfree, henough⟩ := hkeeps
  cases candidates with
  | nil => exact startClosing_ready hready.solvent hfree
  | cons channel rest =>
      simp only [fundStep]
      split
      · exact startClosing_ready hready.solvent hfree
      · rename_i funding hfunding
        split
        · rename_i hdefer
          rw [Bool.and_eq_true, decide_eq_true_eq] at hdefer
          obtain ⟨hstranded, hbelow⟩ := hdefer
          subst hstranded
          exact fundStep_defers hready hfunding hbelow
        · rename_i hpay
          split
          · exact startClosing_ready hready.solvent hfree
          · have hface : stranded = true →
                funding.faceValue ≤ channel.balance := by
              intro hstranded
              rw [hstranded, Bool.true_and, decide_eq_true_eq,
                HoprBalance.lt_iff, Nat.not_lt] at hpay
              exact hpay
            have hpaid := fundStep_pays hlease hbalanced hready hfunding hface
              fun hstranded =>
                henough hstranded channel rfl funding hfunding (hface hstranded)
            exact hpaid.phase (.funding stranded rest)

theorem startTick_ready (inputs : TickInputs Id Addr) :
    (state.startTick cfg inputs).PassReady := by
  have hnone : ∀ channel, ¬ Owed (state.snapshot inputs) channel :=
    not_owed_of_unsent rfl
  have hclosing : ((state.snapshot inputs).startClosing cfg).PassReady :=
    startClosing_ready (.of_none hnone)
      fun channel _ howed => absurd howed (hnone channel)
  rw [startTick_eq]
  unfold startFunding
  dsimp only
  split
  · rename_i funding safe _ hsafe
    split
    · exact hclosing
    · refine FundingReady.phase ⟨?_, List.pairwise_insertionSort _ _,
        fun _ => rfl, ?_, ?_, .of_none hnone⟩ _
      · intro channel hmem
        have hread := (List.perm_insertionSort _ _).mem_iff.mp hmem
        exact (List.mem_filter.mp hread).1
      · intro _ hpaid
        exact absurd rfl hpaid
      · rw [hsafe]
        rfl
  · exact hclosing

end LifecycleState

/-- What happens while the tick is at work.  The open pass considers peers to
which no channel was read, and re-reads the channel to them. -/
def LifecycleAction.OfTick (inputs : TickInputs Id Addr) :
    LifecycleAction Id Addr → Prop
  | .pass _ | .report _ => True
  | .work reread => LifecycleState.RereadsOther inputs reread
  | _ => False

instance (inputs : TickInputs Id Addr) :
    (action : LifecycleAction Id Addr) → Decidable (action.OfTick inputs)
  | .work _ => inferInstanceAs (Decidable (∀ existing ∈ Option.join _, _))
  | .pass _ | .report _ => inferInstanceAs (Decidable True)
  | .tick _ | .balanceDecreased _ | .budget _ | .balanceIncreased _
  | .channelOpened _ | .closureInitiated _ | .channelClosed _ =>
      inferInstanceAs (Decidable False)

namespace LifecycleState

variable [DecidableEq Addr] {cfg : ChannelLifecycleConfig}
  {before after : LifecycleState Id Addr}

structure TickAtWork (inputs : TickInputs Id Addr)
    (state : LifecycleState Id Addr) : Prop where
  tick : state.tick = inputs
  balanced : state.Balanced
  ready : state.PassReady

/-- Time which passes and operations which report back. -/
theorem next_waits {action : LifecycleAction Id Addr}
    {inputs : TickInputs Id Addr} (hoften : action.OfTick inputs)
    (hwait : ∀ reread, action ≠ .work reread)
    (hnext : next cfg before action = some after) :
    Sends before after [] ∧ after.phase = before.phase := by
  have hnone := (List.append_nil before.dispatched).symm
  cases action with
  | pass now =>
      simp only [next] at hnext
      split at hnext
      · cases hnext
        exact ⟨⟨rfl, rfl, hnone⟩, rfl⟩
      · cases hnext
  | report index =>
      simp only [next] at hnext
      split at hnext
      · rename_i operation holder _
        cases hnext
        cases operation with
        | «open» => exact ⟨⟨rfl, rfl, hnone⟩, rfl⟩
        | fund => exact ⟨⟨rfl, rfl, hnone⟩, rfl⟩
        | close => exact ⟨⟨rfl, rfl, hnone⟩, rfl⟩
        | finalize => exact ⟨⟨rfl, rfl, hnone⟩, rfl⟩
      · cases hnext
  | work reread => exact absurd rfl (hwait reread)
  | tick => exact hoften.elim
  | balanceDecreased => exact hoften.elim
  | budget => exact hoften.elim
  | balanceIncreased => exact hoften.elim
  | channelOpened => exact hoften.elim
  | closureInitiated => exact hoften.elim
  | channelClosed => exact hoften.elim

theorem work_ready {reread : Option (Option (ChannelEntry Id Addr))}
    (hlease : 0 < cfg.actionLeaseTimeout)
    (hother : RereadsOther before.tick reread) (hbalanced : before.Balanced)
    (hready : before.PassReady)
    (hkeeps : before.KeepsEnoughIn cfg before.phase)
    (hwork : before.work cfg reread = some after) : after.PassReady := by
  unfold work at hwork
  unfold PassReady at hready
  cases hphase : before.phase with
  | idle =>
      rw [hphase] at hwork
      cases hwork
  | decreased channel funding =>
      rw [hphase] at hwork
      cases hwork
  | crashed =>
      rw [hphase] at hwork
      cases hwork
  | funding stranded candidates =>
      rw [hphase] at hwork hready hkeeps
      cases hwork
      exact fundStep_ready hlease hbalanced hready hkeeps
  | closing candidates closeCount dispatchedThisTick =>
      rw [hphase] at hwork hready hkeeps
      cases hwork
      exact closeStep_ready hready hbalanced hkeeps _ _ _
  | consolidating closes remaining closeCount =>
      rw [hphase] at hwork hready hkeeps
      cases hwork
      exact consolidateStep_ready hready hbalanced hkeeps _ _
  | toppingUp survivors =>
      rw [hphase] at hwork hready hkeeps
      cases hwork
      exact topUpStep_ready hlease hbalanced hready hkeeps
  | finalizing channels finalizeCount =>
      rw [hphase] at hwork hready
      cases hwork
      exact finalizeStep_ready hready _ _
  | opening candidates =>
      rw [hphase] at hwork hready
      cases hwork
      exact openStep_ready hother hready _

theorem Sends.passReady (hsends : Sends before after [])
    (hphase : after.phase = before.phase) (hbefore : before.Balanced)
    (hafter : after.Balanced) (hready : before.PassReady) :
    after.PassReady := by
  have hspares : before.Spares [] := fun _ _ hmem => by cases hmem
  have hremaining := hsends.remaining hbefore hafter
  have hsolvent (h : before.Solvent) : after.Solvent :=
    h.sent hsends hspares rfl hbefore hafter
  unfold PassReady at hready ⊢
  rw [hphase]
  split at hready
  · constructor
    · rw [hsends.tick]
      exact hready.read
    · exact hready.sorted
    · rw [hsends.deferred]
      exact hready.unstranded
    · rw [hsends.tick, hsends.dispatched, List.append_nil]
      exact hready.paid
    · rw [hsends.tick]
      exact hready.safe
    · exact hsolvent hready.solvent
  · exact hsolvent hready
  · exact hsolvent hready
  · constructor
    · rw [hsends.tick]
      exact hready.read
    · rw [hsends.deferred]
      exact hready.deferred
    · exact hready.sorted
    · intro channel hmem howed
      rw [hsends.tick] at hmem
      rw [hsends.owed hspares] at howed
      exact (hready.kept channel hmem howed).imp_left hsends.completed
    · have henough := hready.enough
      simp only [hsends.owed hspares, lacks_of_tick hsends.tick]
      simp only [committed, List.map_nil, List.sum_nil] at hremaining
      omega
  · exact hsends.completesMost hspares hready
  · exact hsends.completesMost hspares hready
  · exact hsends.completesMost hspares hready
  · trivial
  · trivial

theorem next_atWork {inputs : TickInputs Id Addr}
    {action : LifecycleAction Id Addr} (hlease : 0 < cfg.actionLeaseTimeout)
    (hbefore : before.TickAtWork inputs)
    (haction : action.OfTick inputs ∧ before.KeepsEnough cfg action)
    (hnext : next cfg before action = some after) :
    after.TickAtWork inputs := by
  obtain ⟨hoften, hkeeps⟩ := haction
  have hbalanced := next_balanced hbefore.balanced hnext
  by_cases hwork : ∃ reread, action = .work reread
  · obtain ⟨reread, heq⟩ := hwork
    subst heq
    have hother : RereadsOther before.tick reread := by
      rw [hbefore.tick]
      exact hoften
    have htick := (work_workStep reread hnext).sameTick.tick
    exact ⟨htick.trans hbefore.tick, hbalanced,
      work_ready hlease hother hbefore.balanced hbefore.ready hkeeps hnext⟩
  · have hwait : ∀ reread, action ≠ .work reread :=
      fun reread heq => hwork ⟨reread, heq⟩
    obtain ⟨hsends, hphase⟩ := next_waits hoften hwait hnext
    exact ⟨hsends.tick.trans hbefore.tick, hbalanced,
      hsends.passReady hphase hbefore.balanced hbalanced hbefore.ready⟩

/-- A tick whose fund pass leaves the deferred channels what they lack, and
whose other passes leave them free, ends with all of them completed which the
money for a channel with face value would have completed. -/
theorem scarceSafe (cfg : ChannelLifecycleConfig)
    (hlease : 0 < cfg.actionLeaseTimeout)
    {start after : LifecycleState Id Addr} {inputs : TickInputs Id Addr}
    {actions : List (LifecycleAction Id Addr)}
    (hkeeps : (channelLifecycle cfg).Throughout
      (fun before action _ =>
        action.OfTick inputs ∧ before.KeepsEnough cfg action)
      (start.startTick cfg inputs) actions)
    (hrun : (channelLifecycle cfg).run (start.startTick cfg inputs) actions =
      some after)
    (hended : after.phase = .idle) : after.CompletesMost := by
  have hfresh : Sends _ (start.startTick cfg inputs) [] :=
    sends_of_phase startFunding_phase
  have hstart : (start.startTick cfg inputs).TickAtWork inputs :=
    ⟨hfresh.tick, startTick_balanced inputs, startTick_ready inputs⟩
  have hafter : after.TickAtWork inputs := by
    refine hkeeps.invariant ?_ hstart hrun
    intro before action middle hbefore haction hnext
    exact next_atWork hlease hbefore haction hnext
  have hready := hafter.ready
  unfold PassReady at hready
  rw [hended] at hready
  exact hready

/-- Two channels, of which a tick can top up only one in full. -/
def strandedInputs (safe : ℕ) : TickInputs ℕ ℕ :=
  { drainedInputs with
    channels := [⟨1, 7, .saturating 1, .open⟩, ⟨2, 8, .saturating 4, .open⟩]
    startupPhase := .expired
    safe := some ⟨.saturating safe, .saturating safe⟩ }

def strandedWork (steps : ℕ) : List (LifecycleAction ℕ ℕ) :=
  List.replicate steps (.work none)

/-- The channel with face value is topped up, and the other one completed. -/
theorem scarceSafe_bothPaid :
    ∃ after : LifecycleState ℕ ℕ,
      (channelLifecycle sampleConfig).run (LifecycleState.initial.startTick
        sampleConfig (strandedInputs 17)) (strandedWork 7) = some after ∧
      after.payments = [(2, .saturating 9), (1, .saturating 2)] ∧
      after.CompletesMost := by
  have hrun : (channelLifecycle sampleConfig).run
      (LifecycleState.initial.startTick sampleConfig (strandedInputs 17))
      (strandedWork 7) = some _ := rfl
  have hkeeps : (channelLifecycle sampleConfig).Throughout
      (fun before action _ => action.OfTick (strandedInputs 17) ∧
        before.KeepsEnough sampleConfig action)
      (LifecycleState.initial.startTick sampleConfig (strandedInputs 17))
      (strandedWork 7) := by decide
  exact ⟨_, hrun, rfl,
    scarceSafe sampleConfig (by decide) hkeeps hrun rfl⟩

/-- The channel with face value is paid two tickets, and the other one lacks
a wei for its first. -/
theorem scarceSafe_fundedFirst :
    ¬ ∀ (cfg : ChannelLifecycleConfig) (start after : LifecycleState ℕ ℕ)
        (inputs : TickInputs ℕ ℕ) (actions : List (LifecycleAction ℕ ℕ)),
        0 < cfg.actionLeaseTimeout →
        (∀ action ∈ actions, action.OfTick inputs) →
        (channelLifecycle cfg).run (start.startTick cfg inputs) actions =
          some after →
        after.phase = .idle → after.CompletesMost := by
  intro hclaim
  have hcompletes := hclaim sampleConfig .initial _ (strandedInputs 7)
    (strandedWork 6) (by decide) (by decide) rfl rfl
  exact absurd hcompletes (by decide)

end LifecycleState

end HoprStrategy.ChannelLifecycle
