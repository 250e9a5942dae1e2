import HoprStrategy.TickPhases
import Mathlib.Tactic

/-!
# Amounts in whole tickets

A channel pays out in winning tickets of one face value, so the stakes are
whole multiples of it.  The face value comes of an exact division.  Of the
number of tickets, which the source estimates in floating point, only the
range is kept.
-/

namespace HoprStrategy.ChannelLifecycle

open Library

inductive F64 where
  | nan
  | negInf
  | finite (value : ℚ)
  | posInf
  deriving DecidableEq

namespace F64

/-- `f64::EPSILON`. -/
def epsilon : ℚ := 1 / 2 ^ 52

end F64

inductive CapacitySizingMode where
  | deterministic
  | probabilistic (successProbability : F64)
  deriving DecidableEq

structure FundingConfig where
  initialCapacity : UInt64
  topupCapacity : UInt64
  lowerCapacityThreshold : UInt64
  sizingMode : CapacitySizingMode

/-- The protocol's maximum path length. -/
def assumedHops : UInt32 := 3

/-- The number of tickets which the floating-point part of `capacity_to_balance`
arrives at. -/
structure TicketEstimate where
  tickets : UInt64 → HoprBalance → F64 → UInt32 → CapacitySizingMode → ℕ
  pos : ∀ capacity price winProb hops mode,
    1 ≤ tickets capacity price winProb hops mode
  bound : ∀ capacity price winProb hops mode,
    tickets capacity price winProb hops mode ≤ 2 ^ 65

def clampedWinProb : F64 → ℚ
  | .nan => F64.epsilon
  | .negInf => F64.epsilon
  | .finite value => max F64.epsilon (min value 1)
  | .posInf => 1

/-- `div_f64`, which refuses a divisor outside of `(0, 1]` and a quotient which
does not fit. -/
def divF64 (price : HoprBalance) (divisor : ℚ) : Option HoprBalance :=
  if 0 < divisor ∧ divisor ≤ 1 then
    let quotient := price.wei * divisor.den / divisor.num.toNat
    if hfits : quotient < 2 ^ 256 then some ⟨quotient, hfits⟩ else none
  else none

def winningTicketFaceValue (price : HoprBalance) (winProb : F64)
    (hops : UInt32) : HoprBalance :=
  ((divF64 price (clampedWinProb winProb)).getD price).scale hops.toNat

def capacityToBalance (estimate : TicketEstimate) (capacity : UInt64)
    (price : HoprBalance) (winProb : F64) (hops : UInt32)
    (mode : CapacitySizingMode) : HoprBalance :=
  if capacity = 0 then HoprBalance.zero
  else
    let faceValue := winningTicketFaceValue price winProb hops
    if faceValue.isZero then HoprBalance.zero
    else
      faceValue.scale (estimate.tickets capacity price winProb hops mode)

namespace FundingConfig

/-- `resolve` for any number of hops. -/
def resolveFor (config : FundingConfig) (estimate : TicketEstimate)
    (hops : UInt32) (price : HoprBalance) (winProb : F64) :
    ResolvedFunding where
  initialBalance := capacityToBalance estimate config.initialCapacity price
    winProb hops config.sizingMode
  topupBalance := capacityToBalance estimate config.topupCapacity price winProb
    hops config.sizingMode
  lowerBalanceThreshold := capacityToBalance estimate
    config.lowerCapacityThreshold price winProb hops config.sizingMode
  faceValue := winningTicketFaceValue price winProb hops

def resolve (config : FundingConfig) (estimate : TicketEstimate)
    (price : HoprBalance) (winProb : F64) : ResolvedFunding :=
  config.resolveFor estimate assumedHops price winProb

end FundingConfig

/-! ## The face value -/

theorem epsilon_le_clampedWinProb (winProb : F64) :
    F64.epsilon ≤ clampedWinProb winProb := by
  cases winProb with
  | nan => exact le_rfl
  | negInf => exact le_rfl
  | finite value => exact le_max_left _ _
  | posInf =>
      unfold clampedWinProb F64.epsilon
      norm_num

/-- A price of at most 128 bits is divided into one of at most 180. -/
theorem quotient_lt {price : ℕ} {divisor : ℚ} (hprice : price < 2 ^ 128)
    (hdivisor : F64.epsilon ≤ divisor) :
    price * divisor.den / divisor.num.toNat < 2 ^ 180 := by
  have hpos : 0 < divisor := by
    refine lt_of_lt_of_le ?_ hdivisor
    unfold F64.epsilon
    norm_num
  have hnum : 0 < divisor.num := Rat.num_pos.mpr hpos
  have hden : divisor.den ≤ 2 ^ 52 * divisor.num.toNat := by
    have hcross : (divisor.den : ℚ) ≤ 2 ^ 52 * divisor.num := by
      have hvalue := Rat.num_div_den divisor
      have hdenpos : (0 : ℚ) < divisor.den := by exact_mod_cast divisor.den_pos
      rw [← hvalue] at hdivisor
      unfold F64.epsilon at hdivisor
      rw [div_le_div_iff₀ (by norm_num) hdenpos] at hdivisor
      linarith
    have hcast : (divisor.den : ℤ) ≤ 2 ^ 52 * divisor.num := by
      exact_mod_cast hcross
    omega
  rw [Nat.div_lt_iff_lt_mul (by omega)]
  calc price * divisor.den
      ≤ price * (2 ^ 52 * divisor.num.toNat) := Nat.mul_le_mul_left _ hden
    _ = price * 2 ^ 52 * divisor.num.toNat := (Nat.mul_assoc _ _ _).symm
    _ < 2 ^ 180 * divisor.num.toNat := by
        refine Nat.mul_lt_mul_of_pos_right ?_ (by omega)
        omega

theorem faceValue_lt {price : HoprBalance} (hprice : price.wei < 2 ^ 128)
    (winProb : F64) {hops : UInt32} (hhops : hops.toNat ≤ 2 ^ 11) :
    (winningTicketFaceValue price winProb hops).wei < 2 ^ 191 := by
  have hepsilon := epsilon_le_clampedWinProb winProb
  have hquotient := quotient_lt hprice hepsilon
  have hsingle : ((divF64 price (clampedWinProb winProb)).getD price).wei <
      2 ^ 180 := by
    unfold divF64
    dsimp only
    split
    · rw [dif_pos (by omega)]
      exact hquotient
    · exact hprice.trans (by norm_num)
  unfold winningTicketFaceValue HoprBalance.scale HoprBalance.saturating
  dsimp only
  refine lt_of_le_of_lt (min_le_left _ _) ?_
  calc _ ≤ ((divF64 price (clampedWinProb winProb)).getD price).wei * 2 ^ 11 :=
        Nat.mul_le_mul_left _ hhops
    _ < 2 ^ 191 := by omega

/-! ## The stakes -/

variable {estimate : TicketEstimate} {capacity : UInt64} {price : HoprBalance}
  {winProb : F64} {hops : UInt32} {mode : CapacitySizingMode}

/-- A stake is the estimated number of tickets, unless it is nothing. -/
theorem capacityToBalance_wei (hprice : price.wei < 2 ^ 128)
    (hhops : hops.toNat ≤ 2 ^ 11) :
    (capacityToBalance estimate capacity price winProb hops mode).wei =
      if capacity = 0 then 0
      else (winningTicketFaceValue price winProb hops).wei *
        estimate.tickets capacity price winProb hops mode := by
  have hface := faceValue_lt hprice winProb hhops
  have hbound := estimate.bound capacity price winProb hops mode
  unfold capacityToBalance
  split
  · rfl
  · dsimp only
    split
    · rename_i hzero
      rw [HoprBalance.isZero, beq_iff_eq] at hzero
      rw [hzero, Nat.zero_mul]
      rfl
    · unfold HoprBalance.scale HoprBalance.saturating
      dsimp only
      refine min_eq_left (Nat.le_sub_one_of_lt ?_)
      calc _ ≤ (winningTicketFaceValue price winProb hops).wei * 2 ^ 65 :=
            Nat.mul_le_mul_left _ hbound
        _ < 2 ^ 256 := by omega

/-- Whole tickets, and one at least unless there is nothing to pay. -/
structure WholeTickets (faceValue amount : HoprBalance) (capacity : UInt64) :
    Prop where
  multiple : faceValue.wei ∣ amount.wei
  atLeastOne : capacity ≠ 0 → faceValue.wei ≠ 0 → faceValue ≤ amount

theorem capacityToBalance_wholeTickets (hprice : price.wei < 2 ^ 128)
    (hhops : hops.toNat ≤ 2 ^ 11) :
    WholeTickets (winningTicketFaceValue price winProb hops)
      (capacityToBalance estimate capacity price winProb hops mode)
      capacity := by
  have hwei := @capacityToBalance_wei estimate capacity price winProb hops mode
    hprice hhops
  constructor
  · rw [hwei]
    split
    · exact dvd_zero _
    · exact dvd_mul_right _ _
  · intro hcapacity _
    rw [HoprBalance.le_iff, hwei, if_neg hcapacity]
    exact Nat.le_mul_of_pos_right _
      (estimate.pos capacity price winProb hops mode)

/-! ## The fund pass -/

variable {Id Addr : Type} [DecidableEq Id] [DecidableEq Addr]

/-- The amounts come of the ticket economics, as every tick resolves them. -/
def ResolvedFunding.IsResolved (estimate : TicketEstimate)
    (funding : ResolvedFunding) : Prop :=
  ∃ (config : FundingConfig) (price : HoprBalance) (winProb : F64),
    price.wei < 2 ^ 128 ∧ funding = config.resolve estimate price winProb

/-- A tick works with resolved amounts. -/
def LifecycleAction.IsResolved (estimate : TicketEstimate) :
    LifecycleAction Id Addr → Prop
  | .tick inputs => ∀ funding, inputs.funding = some funding →
      funding.IsResolved estimate
  | _ => True

theorem ResolvedFunding.IsResolved.topup_multiple {funding : ResolvedFunding}
    (hresolved : funding.IsResolved estimate) :
    funding.faceValue.wei ∣ funding.topupBalance.wei := by
  obtain ⟨config, price, winProb, hprice, rfl⟩ := hresolved
  exact (capacityToBalance_wholeTickets hprice (by decide)).multiple

namespace LifecycleState

variable {cfg : ChannelLifecycleConfig}
  {state before after : LifecycleState Id Addr}

/-- The fund pass is at work with amounts which are not nothing. -/
structure Fundable (estimate : TicketEstimate) (state : LifecycleState Id Addr) :
    Prop where
  resolved : ∀ funding, state.tick.funding = some funding →
    funding.IsResolved estimate
  nonzero : ∀ stranded candidates,
    state.phase = .funding stranded candidates →
    ∃ funding, state.tick.funding = some funding ∧
      funding.topupBalance.isZero = false ∧ funding.faceValue.isZero = false

omit [DecidableEq Id] [DecidableEq Addr] in
theorem fundable_of_past (hpast : state.phase.IsPastClosing)
    (hresolved : ∀ funding, state.tick.funding = some funding →
      funding.IsResolved estimate) : state.Fundable estimate := by
  refine ⟨hresolved, ?_⟩
  intro stranded candidates hphase
  rw [hphase] at hpast
  exact hpast.elim

omit [DecidableEq Addr] in
theorem not_funding_of_comes {phase : TaskPhase Id Addr} {stranded : Bool}
    {candidates : List (ChannelEntry Id Addr)}
    (hcomes : state.ComesToClosing phase)
    (hphase : phase = .funding stranded candidates) : False := by
  subst hphase
  rcases hcomes with ⟨_, hclosing⟩ | hpast
  · cases hclosing
  · exact hpast

omit [DecidableEq Addr] in
theorem startFunding_nonzero {stranded : Bool}
    {candidates : List (ChannelEntry Id Addr)}
    (hphase : (state.startFunding cfg).phase = .funding stranded candidates) :
    ∃ funding, state.tick.funding = some funding ∧
      funding.topupBalance.isZero = false ∧
      funding.faceValue.isZero = false := by
  unfold startFunding at hphase
  dsimp only at hphase
  split at hphase
  · rename_i funding safe hfunding _
    split at hphase
    · exact (not_funding_of_comes startClosing_comes hphase).elim
    · rename_i hnonzero
      rw [Bool.or_eq_true, not_or, Bool.not_eq_true, Bool.not_eq_true]
        at hnonzero
      exact ⟨funding, hfunding, hnonzero⟩
  · exact (not_funding_of_comes startClosing_comes hphase).elim

theorem Fundable.work (hfundable : before.Fundable estimate)
    {reread : Option (Option (ChannelEntry Id Addr))}
    (hwork : before.work cfg reread = some after) :
    after.Fundable estimate := by
  have htick := (work_workStep reread hwork).sameTick.tick
  refine ⟨htick ▸ hfundable.resolved, ?_⟩
  intro stranded candidates hafter
  rw [htick]
  rcases before.phase.trichotomy with ⟨stranded', candidates', hphase⟩ |
    ⟨others, closeCount, dispatchedThisTick, hphase⟩ | hpast
  · exact hfundable.nonzero stranded' candidates' hphase
  · cases work_closeStep hphase hwork with
    | ended hpast =>
        rw [hafter] at hpast
        exact hpast.elim
    | skipped _ _ hclosing =>
        rw [hafter] at hclosing
        cases hclosing
    | closed _ _ hclosing =>
        rw [hafter] at hclosing
        cases hclosing
  · have hpast' := work_past reread hpast hwork
    rw [hafter] at hpast'
    exact hpast'.elim

theorem next_fundable {action : LifecycleAction Id Addr}
    (hfundable : before.Fundable estimate)
    (hresolved : action.IsResolved estimate)
    (hnext : next cfg before action = some after) :
    after.Fundable estimate := by
  by_cases hstarted : ∃ inputs, action = .tick inputs
  · obtain ⟨inputs, rfl⟩ := hstarted
    simp only [next] at hnext
    split at hnext
    · rw [Option.some.injEq] at hnext
      subst hnext
      have htick : (before.startTick cfg inputs).tick = inputs :=
        startFunding_sameTick.tick
      refine ⟨htick.symm ▸ hresolved, ?_⟩
      intro stranded candidates hphase
      rw [htick]
      exact @startFunding_nonzero _ _ _ cfg (before.snapshot inputs) stranded
        candidates hphase
    · cases hnext
  · cases next_afterStart (fun inputs heq => hstarted ⟨inputs, heq⟩) hnext with
    | worked reread hwork => exact hfundable.work hwork
    | stayed hphase htick =>
        exact ⟨htick ▸ hfundable.resolved, hphase ▸ htick ▸ hfundable.nonzero⟩
    | outside _ hpast htick =>
        exact fundable_of_past hpast (htick ▸ hfundable.resolved)

theorem fundable_of_reachable
    (hreach : (channelLifecycle cfg).ReachableWithin
      (fun _ action => action.IsResolved estimate) state) :
    state.Fundable estimate := by
  refine hreach.invariant ?_ ?_
  · rintro start rfl
    refine fundable_of_past trivial ?_
    intro funding hfunding
    cases hfunding
  · intro before action after hbefore hresolved hnext
    exact next_fundable hbefore hresolved hnext

/-- A step of the fund pass pays what it affords to its first candidate, or
nothing. -/
theorem fundStep_dispatched (stranded : Bool)
    (candidates : List (ChannelEntry Id Addr)) :
    (state.fundStep cfg stranded candidates).dispatched = state.dispatched ∨
      ∃ funding id, state.tick.funding = some funding ∧
        (fundAmount funding state.safeRemaining).isZero = false ∧
        (state.fundStep cfg stranded candidates).dispatched =
          state.dispatched ++
            [.fund id (fundAmount funding state.safeRemaining)] := by
  have hcloses : (state.startClosing cfg).dispatched = state.dispatched := by
    obtain ⟨phase, heq, _⟩ := @startClosing_phase _ _ _ cfg state
    rw [heq]
  cases candidates with
  | nil => exact Or.inl hcloses
  | cons channel rest =>
      simp only [fundStep]
      split
      · exact Or.inl hcloses
      · rename_i funding hfunding
        split
        · exact Or.inl rfl
        · split
          · exact Or.inl hcloses
          · rename_i hnonzero
            have hsends := (@tryOperation_sends _ _ _ _ cfg state
              (.fund channel.id (fundAmount funding state.safeRemaining))).spent
                (fundAmount funding state.safeRemaining)
            have hdispatched := hsends.dispatched
            split at hdispatched
            · exact Or.inr ⟨funding, channel.id, hfunding,
                Bool.eq_false_of_not_eq_true hnonzero, hdispatched⟩
            · rw [List.append_nil] at hdispatched
              exact Or.inl hdispatched

/-- In the fund pass nothing else dispatches. -/
theorem fundPass_dispatched {stranded : Bool}
    {candidates : List (ChannelEntry Id Addr)}
    (hphase : before.phase = .funding stranded candidates)
    (hstarted : AfterStart cfg before after) :
    after.dispatched = before.dispatched ∨
      ∃ funding id, before.tick.funding = some funding ∧
        (fundAmount funding before.safeRemaining).isZero = false ∧
        after.dispatched = before.dispatched ++
          [.fund id (fundAmount funding before.safeRemaining)] := by
  cases hstarted with
  | worked reread hwork =>
      have hmoved : before.fundStep cfg stranded candidates = after := by
        simpa [work, hphase] using hwork
      rw [← hmoved]
      exact fundStep_dispatched stranded candidates
  | stayed _ _ hdispatched => exact Or.inl hdispatched
  | outside _ _ _ hdispatched => exact Or.inl hdispatched

/-- A full top-up, or the whole tickets which the remainder supplies. -/
theorem fundAmount_multiple {funding : ResolvedFunding}
    (safeRemaining : HoprBalance)
    (htopup : funding.faceValue.wei ∣ funding.topupBalance.wei) :
    funding.faceValue.wei ∣ (fundAmount funding safeRemaining).wei ∧
      fundAmount funding safeRemaining ≤ funding.topupBalance ∧
      fundAmount funding safeRemaining ≤ safeRemaining := by
  unfold fundAmount
  split
  · rename_i hfull
    exact ⟨htopup, Nat.le_refl _, hfull⟩
  · rename_i hshort
    have hsmall := safeRemaining.bound
    have hmod : (HoprBalance.saturating
        (safeRemaining.wei % funding.faceValue.wei)).wei =
        safeRemaining.wei % funding.faceValue.wei := by
      refine min_eq_left (Nat.le_sub_one_of_lt ?_)
      exact (Nat.mod_le _ _).trans_lt hsmall
    simp only [HoprBalance.le_iff, HoprBalance.sub_wei, hmod] at hshort ⊢
    refine ⟨Nat.dvd_sub_mod _, ?_, Nat.sub_le _ _⟩
    omega

end LifecycleState

/-- For up to `2 ^ 11` hops the resolved amounts are whole tickets, and so is
every amount which the fund pass of any tick dispatches, within a top-up and
within what the Safe has left. -/
theorem channelAmounts_wholeTickets (estimate : TicketEstimate) :
    (∀ (config : FundingConfig) (hops : UInt32) (price : HoprBalance)
        (winProb : F64), hops.toNat ≤ 2 ^ 11 → price.wei < 2 ^ 128 →
      let resolved := config.resolveFor estimate hops price winProb
      WholeTickets resolved.faceValue resolved.initialBalance
          config.initialCapacity ∧
        WholeTickets resolved.faceValue resolved.topupBalance
          config.topupCapacity ∧
        WholeTickets resolved.faceValue resolved.lowerBalanceThreshold
          config.lowerCapacityThreshold) ∧
    ∀ (cfg : ChannelLifecycleConfig) (before after : LifecycleState Id Addr)
        (action : LifecycleAction Id Addr) (stranded : Bool)
        (candidates : List (ChannelEntry Id Addr))
        (sent : List (Operation Id Addr)) (id : Id) (amount : HoprBalance),
      (channelLifecycle cfg).ReachableWithin
        (fun _ action => action.IsResolved estimate) before →
      before.phase = .funding stranded candidates →
      before.next cfg action = some after →
      after.dispatched = before.dispatched ++ sent →
      .fund id amount ∈ sent →
      ∃ funding, before.tick.funding = some funding ∧ 0 < amount.wei ∧
        funding.faceValue.wei ∣ amount.wei ∧
        amount ≤ funding.topupBalance ∧ amount ≤ before.safeRemaining := by
  constructor
  · intro config hops price winProb hhops hprice
    exact ⟨capacityToBalance_wholeTickets hprice hhops,
      capacityToBalance_wholeTickets hprice hhops,
      capacityToBalance_wholeTickets hprice hhops⟩
  · intro cfg before after action stranded candidates sent id amount hreach
      hphase hnext hsent hfund
    have hfundable := LifecycleState.fundable_of_reachable hreach
    have hstarted : ∀ inputs, action ≠ .tick inputs := by
      rintro inputs rfl
      simp [LifecycleState.next, hphase] at hnext
    have hdispatched := LifecycleState.fundPass_dispatched hphase
      (LifecycleState.next_afterStart hstarted hnext)
    rcases hdispatched with hnothing |
      ⟨funding, other, hfunding, hnonzero, hdispatched⟩
    · rw [hnothing, List.self_eq_append_right] at hsent
      rw [hsent] at hfund
      cases hfund
    · rw [hsent] at hdispatched
      rw [List.append_cancel_left hdispatched, List.mem_singleton] at hfund
      cases hfund
      obtain ⟨hmultiple, htopup, hremaining⟩ :=
        LifecycleState.fundAmount_multiple before.safeRemaining
          (hfundable.resolved funding hfunding).topup_multiple
      refine ⟨funding, hfunding, ?_, hmultiple, htopup, hremaining⟩
      rw [HoprBalance.isZero, beq_eq_false_iff_ne] at hnonzero
      exact Nat.pos_of_ne_zero hnonzero

/-- Two tickets for every capacity. -/
def twoTickets : TicketEstimate where
  tickets _ _ _ _ _ := 2
  pos _ _ _ _ _ := by decide
  bound _ _ _ _ _ := by norm_num

def sampleFundingConfig : FundingConfig := ⟨1, 1, 1, .deterministic⟩

/-- Tickets of 3 wei, and stakes of two tickets. -/
def sampleResolved : ResolvedFunding :=
  ⟨.saturating 6, .saturating 6, .saturating 6, .saturating 3⟩

def sampleLimits : ChannelLifecycleConfig where
  minOpenChannels := 0
  targetOpenChannels := 0
  closeWhenDrainedBelow := HoprBalance.zero
  closeMaxConcurrent := 0
  finalizerEnabled := false
  finalizeMaxConcurrent := 0
  maxConcurrentActions := 1
  actionLeaseTimeout := 10

/-- A needy channel, and 5 wei to spend. -/
def needyTick : TickInputs ℕ ℕ :=
  { lifecycleInputs with
    channels := [⟨7, 5, .saturating 4, .open⟩]
    funding := some sampleResolved
    safe := some ⟨.saturating 9, .saturating 5⟩ }

/-- The channel is given the one ticket which 5 wei pay. -/
theorem channelAmounts_wholeTickets_partial :
    WholeTickets (.saturating 3) (.saturating 6) 1 ∧
      ∃ after : LifecycleState ℕ ℕ,
        (LifecycleState.startTick sampleLimits .initial needyTick).next
          sampleLimits (.work none) = some after ∧
        after.dispatched = [.fund 7 (.saturating 3)] ∧
        3 ∣ (HoprBalance.saturating 3).wei := by
  have hresolved : sampleResolved.IsResolved twoTickets :=
    ⟨sampleFundingConfig, .saturating 1, .posInf, by decide, rfl⟩
  have hinit : (channelLifecycle sampleLimits).ReachableWithin
      (fun _ action => action.IsResolved twoTickets)
      (LifecycleState.initial : LifecycleState ℕ ℕ) := .init rfl
  have htick : (LifecycleAction.tick needyTick).IsResolved twoTickets := by
    intro funding hfunding
    cases hfunding
    exact hresolved
  have hread := hinit.step htick rfl
  have hamounts := @channelAmounts_wholeTickets ℕ ℕ _ _ twoTickets
  constructor
  · exact (hamounts.1 sampleFundingConfig assumedHops (.saturating 1) .posInf
      (by decide) (by decide)).1
  · obtain ⟨funding, hfunding, _, hmultiple, _⟩ :=
      hamounts.2 sampleLimits _ _ (.work none) false _
        [.fund 7 (.saturating 3)] 7 (.saturating 3) hread rfl rfl rfl
        (List.mem_singleton.mpr rfl)
    cases hfunding
    exact ⟨_, rfl, rfl, hmultiple⟩

/-- As many tickets as can be. -/
def mostTickets : TicketEstimate where
  tickets _ _ _ _ _ := 2 ^ 65
  pos _ _ _ _ _ := by norm_num
  bound _ _ _ _ _ := le_rfl

/-- With enough hops the stake saturates, and the largest amount is not a
multiple of an even face value. -/
theorem channelAmounts_notWhole :
    ¬ ∀ (estimate : TicketEstimate) (config : FundingConfig) (hops : UInt32)
      (price : HoprBalance) (winProb : F64),
      1 ≤ hops.toNat → price.wei < 2 ^ 128 →
      (config.resolveFor estimate hops price winProb).faceValue.wei ∣
        (config.resolveFor estimate hops price winProb).initialBalance.wei := by
  intro hclaim
  have hdvd := hclaim mostTickets sampleFundingConfig 4294967295
    ⟨2 ^ 128 - 1, by norm_num⟩ .nan (by decide) (by norm_num)
  revert hdvd
  decide +kernel

end HoprStrategy.ChannelLifecycle
