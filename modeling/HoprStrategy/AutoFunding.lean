import HoprStrategy.HoprBalance
import HoprStrategy.Library.TransitionSystem

/-!
# Automatic funding

The strategy keeps the channels for which it has sent a funding in a set.  A
funding which fails leaves the set by itself; one which is mined is taken out
by the event of the balance increase, and that event does not say whose funding
it was.  The strategy is one task, and the fundings proceed next to it.
-/

namespace HoprStrategy.AutoFunding

open Library

structure AutoFundingStrategyConfig where
  minStakeThreshold : HoprBalance
  fundingAmount : HoprBalance

/-- What a tick found and did. -/
structure TickSummary where
  scanned : ℕ
  belowThreshold : ℕ
  fundingStarted : ℕ
  inFlight : ℕ
  unaffordable : ℕ
  failed : ℕ

def TickSummary.empty : TickSummary := ⟨0, 0, 0, 0, 0, 0⟩

section

variable (Id : Type)

/-- An own funding which has neither failed nor been reported by its event. -/
structure OwnFunding where
  channel : Id
  mined : Bool

/-- A channel as it was read. -/
structure ChannelView where
  id : Id
  balance : HoprBalance

inductive FundingPhase where
  | idle
  | scanning (channels : List (ChannelView Id)) (budget : HoprBalance)
      (summary : TickSummary)
  /-- A balance decrease waits for the budget of the Safe. -/
  | decreased (channel : Id)

structure FundingState where
  inFlight : List Id
  fundings : List (OwnFunding Id)
  phase : FundingPhase Id

inductive FundingAction where
  /-- A tick, with the Safe's budget and the open outgoing channels. -/
  | tick (budget : HoprBalance) (channels : List (ChannelView Id))
  | scan
  | balanceDecreased (channel : ChannelView Id) (outgoing isOpen : Bool)
  /-- `none` when the budget could not be read. -/
  | budget (budget : Option HoprBalance)
  /-- The event of an own funding, or of somebody else's. -/
  | ownIncrease (index : ℕ)
  | foreignIncrease (channel : Id)
  | mine (index : ℕ)
  | fail (index : ℕ)

end

variable {Id : Type} [DecidableEq Id]

namespace FundingState

def tryFundChannel (state : FundingState Id) (channel : Id) :
    Bool × FundingState Id :=
  if channel ∈ state.inFlight then (false, state)
  else
    (true, { state with
      inFlight := channel :: state.inFlight
      fundings := state.fundings ++ [⟨channel, false⟩] })

def clear (state : FundingState Id) (channel : Id) : FundingState Id :=
  { state with inFlight := state.inFlight.filter (· ≠ channel) }

/-- `on_tick` comes across a channel. -/
def scanChannel (cfg : AutoFundingStrategyConfig) (state : FundingState Id)
    (channel : ChannelView Id) (rest : List (ChannelView Id))
    (budget : HoprBalance) (summary : TickSummary) : FundingState Id :=
  let scanned := { summary with scanned := summary.scanned + 1 }
  let below := { scanned with belowThreshold := summary.belowThreshold + 1 }
  let waiting := { below with inFlight := summary.inFlight + 1 }
  if channel.balance ≤ cfg.minStakeThreshold then
    if channel.id ∈ state.inFlight then
      { state with phase := .scanning rest budget waiting }
    else if budget < cfg.fundingAmount then
      { state with
        phase := .scanning rest budget
          { below with unaffordable := summary.unaffordable + 1 } }
    else
      let (started, after) := state.tryFundChannel channel.id
      { after with
        phase :=
          if started then
            .scanning rest (budget - cfg.fundingAmount)
              { below with fundingStarted := summary.fundingStarted + 1 }
          else .scanning rest budget waiting }
  else
    { state.clear channel.id with phase := .scanning rest budget scanned }

def next (cfg : AutoFundingStrategyConfig) (state : FundingState Id) :
    FundingAction Id → Option (FundingState Id)
  | .tick budget channels =>
      match state.phase with
      | .idle =>
          some { state with phase := .scanning channels budget .empty }
      | _ => none
  | .scan =>
      match state.phase with
      | .scanning [] _ _ => some { state with phase := .idle }
      | .scanning (channel :: rest) budget summary =>
          some (state.scanChannel cfg channel rest budget summary)
      | _ => none
  | .balanceDecreased channel outgoing isOpen =>
      match state.phase with
      | .idle =>
          if outgoing && channel.balance ≤ cfg.minStakeThreshold && isOpen then
            some { state with phase := .decreased channel.id }
          else some state
      | _ => none
  | .budget budget =>
      match state.phase with
      | .decreased channel =>
          match budget with
          | none => some { state with phase := .idle }
          | some budget =>
              if budget < cfg.fundingAmount then
                some { state with phase := .idle }
              else
                some { (state.tryFundChannel channel).2 with phase := .idle }
      | _ => none
  | .ownIncrease index =>
      match state.phase, state.fundings[index]? with
      | .idle, some funding =>
          if funding.mined then
            some { state.clear funding.channel with
              fundings := state.fundings.eraseIdx index }
          else none
      | _, _ => none
  | .foreignIncrease channel =>
      match state.phase with
      | .idle => some (state.clear channel)
      | _ => none
  | .mine index =>
      match state.fundings[index]? with
      | some funding =>
          some { state with
            fundings := state.fundings.set index { funding with mined := true } }
      | none => none
  | .fail index =>
      match state.fundings[index]? with
      | some funding =>
          if funding.mined then none
          else
            some { state.clear funding.channel with
              fundings := state.fundings.eraseIdx index }
      | none => none

def initial : FundingState Id := ⟨[], [], .idle⟩

end FundingState

def autoFunding (cfg : AutoFundingStrategyConfig) :
    TransitionSystem (FundingState Id) (FundingAction Id) where
  init state := state = FundingState.initial
  next := FundingState.next cfg

namespace FundingState

variable {cfg : AutoFundingStrategyConfig}
  {state before after : FundingState Id}

/-- A channel is in the set exactly while an own funding of it is pending or
has not been reported by its event, and there is one such funding at most. -/
structure Tracks (state : FundingState Id) : Prop where
  tracked : ∀ channel, channel ∈ state.inFlight ↔
    ∃ funding ∈ state.fundings, funding.channel = channel
  once : (state.fundings.map OwnFunding.channel).Nodup

/-- Neither somebody else's funding nor a balance above the threshold is
observed on a channel with an own funding. -/
def Undisturbed (cfg : AutoFundingStrategyConfig) (state : FundingState Id) :
    FundingAction Id → Prop
  | .foreignIncrease channel =>
      ∀ funding ∈ state.fundings, funding.channel ≠ channel
  | .scan =>
      ∀ channel rest budget summary,
        state.phase = .scanning (channel :: rest) budget summary →
        cfg.minStakeThreshold < channel.balance →
        ∀ funding ∈ state.fundings, funding.channel ≠ channel.id
  | _ => True

instance (state : FundingState Id) :
    ∀ action, Decidable (Undisturbed cfg state action)
  | .scan =>
      match hphase : state.phase with
      | .scanning (channel :: rest) budget summary =>
          decidable_of_iff (cfg.minStakeThreshold < channel.balance →
              ∀ funding ∈ state.fundings, funding.channel ≠ channel.id)
            ⟨fun hquiet _ _ _ _ heq => by
              rw [hphase] at heq
              cases heq
              exact hquiet,
            fun hquiet => hquiet _ _ _ _ hphase⟩
      | .scanning [] _ _ | .idle | .decreased _ =>
          isTrue fun _ _ _ _ heq => by
            rw [hphase] at heq
            cases heq
  | .foreignIncrease channel =>
      inferInstanceAs (Decidable
        (∀ funding ∈ state.fundings, funding.channel ≠ channel))
  | .tick _ _ | .balanceDecreased _ _ _ | .budget _ | .ownIncrease _ | .mine _
  | .fail _ => isTrue trivial

omit [DecidableEq Id] in
theorem Tracks.phase (htracks : state.Tracks) (phase : FundingPhase Id) :
    Tracks { state with phase := phase } :=
  ⟨htracks.tracked, htracks.once⟩

theorem Tracks.tryFund (htracks : state.Tracks) (channel : Id) :
    (state.tryFundChannel channel).2.Tracks := by
  unfold tryFundChannel
  split
  · exact htracks
  · rename_i hnew
    rw [htracks.tracked] at hnew
    constructor
    · intro other
      simp only [List.mem_cons, List.mem_append, htracks.tracked,
        List.not_mem_nil, or_false]
      constructor
      · intro hother
        rcases hother with heq | ⟨funding, hmem, hchannel⟩
        · exact ⟨_, Or.inr rfl, heq.symm⟩
        · exact ⟨funding, Or.inl hmem, hchannel⟩
      · intro hother
        obtain ⟨funding, hmem | heq, hchannel⟩ := hother
        · exact Or.inr ⟨funding, hmem, hchannel⟩
        · rw [heq] at hchannel
          exact Or.inl hchannel.symm
    · rw [List.map_append, List.map_singleton]
      refine List.nodup_append_comm.mp
        (List.nodup_cons.mpr ⟨?_, htracks.once⟩)
      intro hmem
      obtain ⟨funding, hin, heq⟩ := List.mem_map.mp hmem
      exact hnew ⟨funding, hin, heq⟩

/-- A channel without an own funding is not in the set anyway. -/
theorem Tracks.clear (htracks : state.Tracks) {channel : Id}
    (hnone : ∀ funding ∈ state.fundings, funding.channel ≠ channel) :
    (state.clear channel).Tracks := by
  refine ⟨?_, htracks.once⟩
  intro other
  simp only [FundingState.clear, List.mem_filter, decide_eq_true_eq,
    htracks.tracked]
  constructor
  · exact And.left
  · intro hother
    refine ⟨hother, ?_⟩
    obtain ⟨funding, hmem, hchannel⟩ := hother
    rw [← hchannel]
    exact hnone funding hmem

/-- An own funding is over, and its channel leaves the set. -/
theorem Tracks.over (htracks : state.Tracks) {index : ℕ}
    {funding : OwnFunding Id} (hget : state.fundings[index]? = some funding) :
    Tracks { state.clear funding.channel with
      fundings := state.fundings.eraseIdx index } := by
  obtain ⟨hlt, hget⟩ := List.getElem?_eq_some_iff.mp hget
  have hsublist := List.eraseIdx_sublist state.fundings index
  refine ⟨?_, htracks.once.sublist (hsublist.map _)⟩
  intro other
  simp only [FundingState.clear, List.mem_filter, decide_eq_true_eq,
    htracks.tracked]
  constructor
  · intro hother
    obtain ⟨⟨kept, hmem, hchannel⟩, hne⟩ := hother
    obtain ⟨position, hposition, hat⟩ := List.mem_iff_getElem.mp hmem
    refine ⟨kept, List.mem_eraseIdx_iff_getElem.mpr
      ⟨position, hposition, ?_, hat⟩, hchannel⟩
    intro heq
    subst heq
    rw [hat] at hget
    rw [hget] at hchannel
    exact hne hchannel.symm
  · intro hother
    obtain ⟨kept, hmem, hchannel⟩ := hother
    refine ⟨⟨kept, hsublist.subset hmem, hchannel⟩, ?_⟩
    obtain ⟨position, hposition, hne, hat⟩ :=
      List.mem_eraseIdx_iff_getElem.mp hmem
    intro heq
    have hsame : (state.fundings.map OwnFunding.channel)[position]? =
        (state.fundings.map OwnFunding.channel)[index]? := by
      rw [List.getElem?_map, List.getElem?_map,
        List.getElem?_eq_getElem hposition, List.getElem?_eq_getElem hlt, hat,
        hget, Option.map_some, Option.map_some, hchannel, heq]
    exact hne ((List.getElem?_inj (by simpa using hposition)
      htracks.once).mp hsame)

omit [DecidableEq Id] in
theorem Tracks.mined (htracks : state.Tracks) {index : ℕ}
    {funding : OwnFunding Id} (hget : state.fundings[index]? = some funding) :
    Tracks { state with
      fundings := state.fundings.set index { funding with mined := true } } := by
  obtain ⟨hlt, hget⟩ := List.getElem?_eq_some_iff.mp hget
  have hchannels : (state.fundings.set index
      { funding with mined := true }).map OwnFunding.channel =
      state.fundings.map OwnFunding.channel := by
    apply List.ext_getElem
    · simp
    · intro position _ hposition
      simp only [List.getElem_map, List.getElem_set]
      split
      · rename_i heq
        subst heq
        rw [hget]
      · rfl
  have hsame : ∀ channel, (∃ other ∈ state.fundings.set index
      { funding with mined := true }, other.channel = channel) ↔
      ∃ other ∈ state.fundings, other.channel = channel := by
    intro channel
    rw [← List.mem_map, ← List.mem_map, hchannels]
  constructor
  · intro channel
    rw [hsame]
    exact htracks.tracked channel
  · rw [hchannels]
    exact htracks.once

theorem Tracks.scan (htracks : state.Tracks) {channel : ChannelView Id}
    {rest : List (ChannelView Id)} {budget : HoprBalance}
    {summary : TickSummary}
    (hundisturbed : cfg.minStakeThreshold < channel.balance →
      ∀ funding ∈ state.fundings, funding.channel ≠ channel.id) :
    (state.scanChannel cfg channel rest budget summary).Tracks := by
  unfold scanChannel
  dsimp only
  split
  · split
    · exact htracks.phase _
    · split
      · exact htracks.phase _
      · exact (htracks.tryFund channel.id).phase _
  · rename_i habove
    refine (htracks.clear (hundisturbed ?_)).phase _
    rw [HoprBalance.le_iff] at habove
    exact Nat.lt_of_not_le habove

theorem next_tracks {action : FundingAction Id} (htracks : before.Tracks)
    (hundisturbed : before.Undisturbed cfg action)
    (hnext : next cfg before action = some after) : after.Tracks := by
  cases action with
  | tick budget channels =>
      simp only [next] at hnext
      split at hnext
      · cases hnext
        exact htracks.phase _
      · cases hnext
  | scan =>
      simp only [next] at hnext
      split at hnext
      · cases hnext
        exact htracks.phase _
      · rename_i channel rest budget summary hphase
        cases hnext
        exact htracks.scan (hundisturbed channel rest budget summary hphase)
      · cases hnext
  | balanceDecreased channel outgoing isOpen =>
      simp only [next] at hnext
      split at hnext
      · split at hnext
        · cases hnext
          exact htracks.phase _
        · cases hnext
          exact htracks
      · cases hnext
  | budget budget =>
      simp only [next] at hnext
      split at hnext
      · split at hnext
        · cases hnext
          exact htracks.phase _
        · split at hnext
          · cases hnext
            exact htracks.phase _
          · cases hnext
            exact (htracks.tryFund _).phase _
      · cases hnext
  | ownIncrease index =>
      simp only [next] at hnext
      split at hnext
      · rename_i hget
        split at hnext
        · cases hnext
          exact htracks.over hget
        · cases hnext
      · cases hnext
  | foreignIncrease channel =>
      simp only [next] at hnext
      split at hnext
      · cases hnext
        exact htracks.clear hundisturbed
      · cases hnext
  | mine index =>
      simp only [next] at hnext
      split at hnext
      · rename_i hget
        cases hnext
        exact htracks.mined hget
      · cases hnext
  | fail index =>
      simp only [next] at hnext
      split at hnext
      · rename_i hget
        split at hnext
        · cases hnext
        · cases hnext
          exact htracks.over hget
      · cases hnext

/-- As long as nothing but its own event is observed on a channel with an own
funding, the channel is in the set for exactly as long, and is not funded
twice. -/
theorem fundingGuard (cfg : AutoFundingStrategyConfig)
    (hreach : (autoFunding cfg).ReachableWithin (Undisturbed cfg) state) :
    (∀ channel, channel ∈ state.inFlight ↔
      ∃ funding ∈ state.fundings, funding.channel = channel) ∧
      ∀ channel, (state.fundings.filter fun funding =>
        funding.channel = channel && ! funding.mined).length ≤ 1 := by
  have htracks : state.Tracks := by
    refine hreach.invariant ?_ ?_
    · intro start hinit
      cases hinit
      constructor
      · intro channel
        constructor
        · intro hmem
          cases hmem
        · intro hfunding
          obtain ⟨funding, hmem, _⟩ := hfunding
          cases hmem
      · exact List.nodup_nil
    · intro before action after hbefore hundisturbed hnext
      exact next_tracks hbefore hundisturbed hnext
  refine ⟨htracks.tracked, ?_⟩
  intro channel
  have hsublist : (state.fundings.filter fun funding =>
      funding.channel = channel && ! funding.mined).Sublist state.fundings :=
    List.filter_sublist
  have hnodup := htracks.once.sublist (hsublist.map OwnFunding.channel)
  have hall : ∀ other ∈ (state.fundings.filter fun funding =>
      funding.channel = channel && ! funding.mined).map OwnFunding.channel,
      other = channel := by
    intro other hmem
    obtain ⟨funding, hfunding, heq⟩ := List.mem_map.mp hmem
    have hkept := (List.mem_filter.mp hfunding).2
    rw [Bool.and_eq_true, decide_eq_true_eq] at hkept
    rw [← heq]
    exact hkept.1
  rw [List.eq_replicate_of_mem hall, List.nodup_replicate, List.length_map]
    at hnodup
  exact hnodup

def tenConfig : AutoFundingStrategyConfig :=
  ⟨.saturating 1, .saturating 10⟩

/-- Channel 1 is funded and somebody else funds channel 2.  A tick leaves 1
alone, funds 2, finds 3 above the threshold and cannot afford 4.  Then the
funding of 1 is mined and reported, and the next one goes out. -/
def scannedRun : List (FundingAction ℕ) :=
  [.balanceDecreased ⟨1, .saturating 0⟩ true true,
    .budget (some (.saturating 50)), .foreignIncrease 2,
    .tick (.saturating 15) [⟨1, .saturating 0⟩, ⟨2, .saturating 1⟩,
      ⟨3, .saturating 100⟩, ⟨4, .saturating 0⟩],
    .scan, .scan, .scan, .scan, .scan, .mine 0, .ownIncrease 0,
    .balanceDecreased ⟨1, .saturating 1⟩ true true,
    .budget (some (.saturating 40))]

theorem fundingGuard_scanned :
    ∃ state : FundingState ℕ,
      state.fundings = [⟨2, false⟩, ⟨1, false⟩] ∧
      (∀ channel, channel ∈ state.inFlight ↔
        ∃ funding ∈ state.fundings, funding.channel = channel) ∧
      ∀ channel, (state.fundings.filter fun funding =>
        funding.channel = channel && ! funding.mined).length ≤ 1 := by
  have hinit : (autoFunding tenConfig).ReachableWithin (Undisturbed tenConfig)
      (initial : FundingState ℕ) := .init rfl
  have hundisturbed : (autoFunding tenConfig).Throughout
      (fun before action _ => Undisturbed tenConfig before action)
      initial scannedRun := by decide
  have hreach := hinit.throughout hundisturbed rfl
  exact ⟨_, rfl, fundingGuard tenConfig hreach⟩

/-- Somebody else funds the channel, and a second own funding goes out next to
the first. -/
theorem fundingGuard_foreign :
    ¬ ∀ (cfg : AutoFundingStrategyConfig) (state : FundingState ℕ),
        (autoFunding cfg).Reachable state →
        (∀ channel, channel ∈ state.inFlight ↔
          ∃ funding ∈ state.fundings, funding.channel = channel) ∧
          ∀ channel, (state.fundings.filter fun funding =>
            funding.channel = channel && ! funding.mined).length ≤ 1 := by
  intro hclaim
  have hinit : (autoFunding tenConfig).Reachable
      (initial : FundingState ℕ) := .init rfl
  have hreach := hinit.run
    [.balanceDecreased ⟨1, .saturating 0⟩ true true,
      .budget (some (.saturating 50)), .foreignIncrease 1,
      .balanceDecreased ⟨1, .saturating 1⟩ true true,
      .budget (some (.saturating 40))] rfl
  exact absurd ((hclaim tenConfig _ hreach).2 1) (by decide)

end FundingState

end HoprStrategy.AutoFunding
