import HoprStrategy.ConcurrencyCaps
import HoprStrategy.TickPhases

/-!
# The population floor of the close pass

The close pass compares the floor with a running count: the Open channels which
the tick has read and the opens in flight, less the closes counted so far.  It
is compared here with the channels which are Open on chain when a close is
dispatched.
-/

namespace HoprStrategy.ChannelLifecycle

open Library

variable {Id Addr : Type} [DecidableEq Id] [DecidableEq Addr]

namespace ActionLeases

variable {leases : ActionLeases Id} {now : ℕ}

/-- Of distinct slots at most one more than the leases is held or `key`. -/
theorem countP_isHeld_or_le (key : Id) {slots : List Id}
    (hnodup : slots.Nodup) :
    (slots.countP fun slot => leases.isHeld now slot || slot = key) ≤
      leases.heldCount now + 1 := by
  have hsubset :
      (slots.filter fun slot => leases.isHeld now slot || slot = key) ⊆
        key :: (leases.live now).map Prod.fst := by
    intro slot hmem
    have hslot := (List.mem_filter.mp hmem).2
    rw [Bool.or_eq_true, decide_eq_true_eq] at hslot
    rcases hslot with hheld | heq
    · obtain ⟨lease, hlive⟩ := isHeld_iff_live.mp hheld
      exact List.mem_cons_of_mem _
        (List.mem_map.mpr ⟨(slot, lease), hlive, rfl⟩)
    · exact List.mem_cons.mpr (Or.inl heq)
  have hlength := ((hnodup.filter _).subperm hsubset).length_le
  rw [List.length_cons, List.length_map] at hlength
  rw [List.countP_eq_length_filter, heldCount_eq_length_live]
  exact hlength

theorem isHeld_acquire {timeout : ℕ} {key slot : Id} (hpos : 0 < timeout)
    (hfree : leases.isHeld now key = false) :
    (leases.acquire now timeout key).2.isHeld now slot =
      (leases.isHeld now slot || slot = key) := by
  rw [Bool.eq_iff_iff, isHeld_iff_live, live_acquire hfree, if_pos hpos]
  simp only [Bool.or_eq_true, decide_eq_true_eq, isHeld_iff_live,
    List.mem_cons, Prod.mk.injEq]
  constructor
  · rintro ⟨lease, ⟨heq, _⟩ | hlive⟩
    · exact Or.inr heq
    · exact Or.inl ⟨lease, hlive⟩
  · intro hheld
    rcases hheld with ⟨lease, hlive⟩ | heq
    · exact ⟨lease, Or.inr hlive⟩
    · exact ⟨_, Or.inl ⟨heq, rfl⟩⟩

end ActionLeases

namespace LifecycleState

variable {cfg : ChannelLifecycleConfig}
  {state before after : LifecycleState Id Addr}

/-- Of the channels which are Open on chain, those without a close lease. -/
def population (state : LifecycleState Id Addr) (chain : List Id) : ℕ :=
  chain.countP fun id => ! state.closeInFlight.isHeld state.now id

/-- Of the channels which are Open on chain, those being closed once `target`
is closed as well. -/
def beingClosedWith (state : LifecycleState Id Addr) (target : Id)
    (chain : List Id) : ℕ :=
  chain.countP fun id =>
    state.closeInFlight.isHeld state.now id || id = target

/-- How many of the candidates the close pass does not skip for what the tick
has read. -/
def closable (inputs : TickInputs Id Addr) (candidates : List Id) : ℕ :=
  candidates.countP fun id =>
    (inputs.channelById id).isSome ∧
      (inputs.startupPhase = .shieldingConnected → id ∈ inputs.disconnected)

/-- The counter of the close pass covers the live close leases.  It has grown
from those which were in flight, at most `closes`, by one for each candidate
which the pass has closed. -/
def ClosesCounted (closes : ℕ) (state : LifecycleState Id Addr) : Prop :=
  match state.phase with
  | .funding _ _ => state.closesHeld ≤ closes
  | .closing candidates closeCount dispatchedThisTick =>
      state.closesHeld ≤ closeCount ∧
        closeCount ≤ closes + dispatchedThisTick ∧
        dispatchedThisTick + closable state.tick candidates ≤
          closable state.tick state.closeCandidates
  | _ => True

variable {closes : ℕ}

omit [DecidableEq Addr] in
theorem closesCounted_of_past (hpast : state.phase.IsPastClosing) :
    state.ClosesCounted closes := by
  unfold ClosesCounted
  split
  · rename_i hphase
    rw [hphase] at hpast
    exact hpast.elim
  · rename_i hphase
    rw [hphase] at hpast
    exact hpast.elim
  · trivial

omit [DecidableEq Addr] in
theorem startClosing_counted (hheld : state.closesHeld ≤ closes) :
    (state.startClosing cfg).ClosesCounted closes := by
  unfold startClosing
  split
  · exact closesCounted_of_past startConsolidation_past
  · exact ⟨le_rfl, hheld, (Nat.zero_add _).le⟩

omit [DecidableEq Addr] in
theorem startFunding_counted (hheld : state.closesHeld ≤ closes) :
    (state.startFunding cfg).ClosesCounted closes := by
  unfold startFunding
  dsimp only
  split
  · split
    · exact startClosing_counted hheld
    · exact hheld
  · exact startClosing_counted hheld

theorem fundStep_counted (stranded : Bool)
    (candidates : List (ChannelEntry Id Addr))
    (hheld : state.closesHeld ≤ closes) :
    (state.fundStep cfg stranded candidates).ClosesCounted closes := by
  cases candidates with
  | nil => exact startClosing_counted hheld
  | cons channel rest =>
      simp only [fundStep]
      split
      · exact startClosing_counted hheld
      · rename_i funding _
        split
        · exact hheld
        · split
          · exact startClosing_counted hheld
          · have htried : NoMore state (state.tryOperation cfg
                (.fund channel.id (fundAmount funding state.safeRemaining))).2 :=
              tryOperation_noMore rfl rfl
            exact (htried.trans (spent_untouched _ _).noMore).closes.trans hheld

/-- The close pass ends, skips its first candidate, or tries to close it, which
the count, the caps and what the tick has read allow. -/
theorem closeStep_cases {closeCount dispatchedThisTick : ℕ}
    {candidates : List Id} {result : LifecycleState Id Addr}
    (hresult : result =
      state.closeStep cfg closeCount dispatchedThisTick candidates) :
    (Untouched state result ∧ result.phase.IsPastClosing) ∨
      (Untouched state result ∧ result.tick = state.tick ∧
        ∃ id rest, candidates = id :: rest ∧
          result.phase = .closing rest closeCount dispatchedThisTick) ∨
      ∃ id rest, candidates = id :: rest ∧
        closeCount < cfg.closeMaxConcurrent ∧
        (∀ limit ∈ state.tick.maxClosesPerTick, dispatchedThisTick < limit) ∧
        cfg.minOpenChannels < state.openCount - closeCount ∧
        closable state.tick candidates = closable state.tick rest + 1 ∧
        result =
          { (state.tryOperation cfg (.close id)).2 with
            phase :=
              if (state.tryOperation cfg (.close id)).1
                then .closing rest (closeCount + 1) (dispatchedThisTick + 1)
                else .closing rest closeCount dispatchedThisTick } := by
  subst hresult
  have hends : Untouched state (state.startConsolidation cfg) ∧
      (state.startConsolidation cfg).phase.IsPastClosing :=
    ⟨startConsolidation_untouched, startConsolidation_past⟩
  cases candidates with
  | nil => exact Or.inl hends
  | cons id rest =>
      simp only [closeStep]
      split
      · exact Or.inl hends
      · rename_i hgo
        simp only [Bool.or_eq_true, decide_eq_true_eq, not_or, Nat.not_le,
          Option.any_eq_true, not_exists, not_and] at hgo
        obtain ⟨⟨hcap, hlimit⟩, hfloor⟩ := hgo
        have hskips := (Untouched.refl state).phase
          (.closing rest closeCount dispatchedThisTick)
        split
        · exact Or.inr (Or.inl ⟨hskips, rfl, id, rest, rfl, rfl⟩)
        · rename_i channel hfound
          split
          · exact Or.inr (Or.inl ⟨hskips, rfl, id, rest, rfl, rfl⟩)
          · split
            · exact Or.inr (Or.inl ⟨hskips, rfl, id, rest, rfl, rfl⟩)
            · rename_i hshielded
              have htried : state.tryOperation cfg (.close id) =
                  state.tryCloseChannel cfg channel := by
                rw [← TickInputs.channelById_id hfound]
                rfl
              refine Or.inr (Or.inr ⟨id, rest, rfl, hcap, ?_, hfloor, ?_, ?_⟩)
              · intro limit hmem
                exact hlimit limit hmem
              · refine List.countP_cons_of_pos ?_
                rw [decide_eq_true_eq]
                exact ⟨Option.isSome_iff_exists.mpr ⟨channel, hfound⟩,
                  fun hshield => by_contra fun hconnected =>
                    hshielded ⟨hshield, hconnected⟩⟩
              · rw [htried]

theorem closeStep_counted {closeCount dispatchedThisTick : ℕ}
    {candidates : List Id}
    (hphase : state.phase =
      .closing candidates closeCount dispatchedThisTick)
    (hcounted : state.ClosesCounted closes) :
    (state.closeStep cfg closeCount dispatchedThisTick candidates
      ).ClosesCounted closes := by
  unfold ClosesCounted at hcounted
  rw [hphase] at hcounted
  obtain ⟨hheld, hcount, hleft⟩ := hcounted
  have hcases := @closeStep_cases _ _ _ _ cfg state closeCount
    dispatchedThisTick candidates _ rfl
  rcases hcases with ⟨_, hpast⟩ |
    ⟨hsame, htick, id, rest, rfl, hskipped⟩ |
    ⟨id, rest, rfl, _, _, _, hclosable, hresult⟩
  · exact closesCounted_of_past hpast
  · have hrest : closable state.tick rest ≤ closable state.tick (id :: rest) :=
      (List.sublist_cons_self id rest).countP_le
    unfold ClosesCounted closeCandidates
    rw [hskipped, htick, hsame.closesHeld]
    exact ⟨hheld, hcount, le_trans (by omega) hleft⟩
  · have hcloses := @tryOperation_closesHeld _ _ _ _ cfg state (.close id)
    have htick := (@tryOperation_sameTick _ _ _ _ cfg state (.close id)).tick
    rw [hresult]
    rw [hclosable] at hleft
    split
    · rename_i hsubmitted
      rw [if_pos hsubmitted] at hcloses
      unfold ClosesCounted closeCandidates
      dsimp only
      rw [htick]
      exact ⟨hcloses.trans (Nat.add_le_add_right hheld 1), by omega,
        le_trans (by omega) hleft⟩
    · rename_i hrefused
      rw [if_neg hrefused] at hcloses
      unfold ClosesCounted closeCandidates
      dsimp only
      rw [htick]
      exact ⟨hcloses.trans hheld, hcount, le_trans (by omega) hleft⟩

theorem work_counted (reread : Option (Option (ChannelEntry Id Addr)))
    (hwork : state.work cfg reread = some after)
    (hcounted : state.ClosesCounted closes) : after.ClosesCounted closes := by
  rcases state.phase.trichotomy with ⟨stranded, candidates, hphase⟩ |
    ⟨candidates, closeCount, dispatchedThisTick, hphase⟩ | hpast
  · have hmoved : after = state.fundStep cfg stranded candidates := by
      simpa [work, hphase] using hwork.symm
    unfold ClosesCounted at hcounted
    rw [hphase] at hcounted
    exact hmoved ▸ fundStep_counted stranded candidates hcounted
  · have hmoved : after = state.closeStep cfg closeCount dispatchedThisTick
        candidates := by
      simpa [work, hphase] using hwork.symm
    exact hmoved ▸ closeStep_counted hphase hcounted
  · exact closesCounted_of_past (work_past reread hpast hwork)

/-- What is known while the tick is at work: its inputs, the count it took at
its start, and how the counter of the close pass grows. -/
structure DuringTick (inputs : TickInputs Id Addr) (openCount closes : ℕ)
    (state : LifecycleState Id Addr) : Prop where
  tick : state.tick = inputs
  openCount : state.openCount = openCount
  counted : state.ClosesCounted closes

theorem DuringTick.next {inputs : TickInputs Id Addr} {openCount : ℕ}
    {action : LifecycleAction Id Addr}
    (hbefore : before.DuringTick inputs openCount closes)
    (hduring : action.IsDuringTick)
    (hnext : next cfg before action = some after) :
    after.DuringTick inputs openCount closes := by
  have hsame := next_sameTick hduring hnext
  refine ⟨hsame.tick.trans hbefore.tick,
    hsame.openCount.trans hbefore.openCount, ?_⟩
  by_cases htask : action.IsTask
  · cases action with
    | work reread => exact work_counted reread hnext hbefore.counted
    | tick => exact hduring.elim
    | balanceDecreased => exact hduring.elim
    | budget => exact hduring.elim
    | report => exact htask.elim
    | pass => exact htask.elim
    | balanceIncreased => exact htask.elim
    | channelOpened => exact htask.elim
    | closureInitiated => exact htask.elim
    | channelClosed => exact htask.elim
  · have hreleased := next_released htask hnext
    have hcounted := hbefore.counted
    unfold ClosesCounted closeCandidates at hcounted ⊢
    rw [hreleased.phase, hsame.tick]
    split at hcounted
    · exact hreleased.closes.trans hcounted
    · exact ⟨hreleased.closes.trans hcounted.1, hcounted.2⟩
    · trivial

omit [DecidableEq Addr] in
theorem startTick_duringTick (inputs : TickInputs Id Addr) :
    (state.startTick cfg inputs).DuringTick inputs
      (inputs.openChannels.length + state.openInFlight.heldCount state.now)
      state.closesHeld := by
  have hheld {Key : Type} (leases : ActionLeases Key) :
      (leases.sweep state.now).heldCount state.now =
        leases.heldCount state.now := by
    rw [ActionLeases.heldCount_eq_length_live, ActionLeases.live_sweep,
      ActionLeases.heldCount_eq_length_live]
  unfold startTick
  dsimp only
  constructor
  · rw [startFunding_sameTick.tick]
  · rw [startFunding_sameTick.openCount]
    dsimp only
    rw [hheld]
  · exact startFunding_counted (hheld state.closeInFlight).le

/-- Whatever the leases at the start of the tick, and whatever happens to them
during the tick. -/
theorem duringTick {start : LifecycleState Id Addr}
    {inputs : TickInputs Id Addr} {actions : List (LifecycleAction Id Addr)}
    (hduring : ∀ action ∈ actions, action.IsDuringTick)
    (hrun : (channelLifecycle cfg).run start (.tick inputs :: actions) =
      some state) :
    state.DuringTick inputs (inputs.openChannels.length +
      start.openInFlight.heldCount start.now) start.closesHeld := by
  obtain ⟨middle, hnext, hrest⟩ := TransitionSystem.run_cons.mp hrun
  have hmiddle : middle.DuringTick inputs (inputs.openChannels.length +
      start.openInFlight.heldCount start.now) start.closesHeld := by
    simp only [channelLifecycle, LifecycleState.next] at hnext
    split at hnext
    · cases hnext
      exact startTick_duringTick inputs
    · cases hnext
  have hallowed : (channelLifecycle cfg).Throughout
      (fun _ action _ => action.IsDuringTick) middle actions :=
    TransitionSystem.throughout_of_forall fun _ action hmem _ =>
      hduring action hmem
  refine hallowed.invariant ?_ hmiddle hrest
  intro before action after hbefore hduring hnext
  exact hbefore.next hduring hnext

omit [DecidableEq Addr] in
theorem population_add (id : Id) {chain : List Id}
    (hheld : ∀ other, after.closeInFlight.isHeld after.now other =
      (before.closeInFlight.isHeld before.now other || other = id)) :
    after.population chain + before.beingClosedWith id chain =
      chain.length := by
  have htotal := @List.length_eq_countP_add_countP _ (fun other =>
    before.closeInFlight.isHeld before.now other || other = id) chain
  unfold population beingClosedWith
  simp only [hheld]
  rw [htotal, Nat.add_comm]
  congr 1
  apply List.countP_congr
  intro other _
  simp

/-- How many closes the tick has candidates for, within its own limit. -/
def closesWanted (inputs : TickInputs Id Addr) : ℕ :=
  let wanted := closable inputs (inputs.closesRanked ++
    inputs.disconnected.filter (· ∉ inputs.closesRanked))
  inputs.maxClosesPerTick.elim wanted (min wanted)

/-- How many closes the tick may have in flight: the cap and its count allow
them, and they were in flight when it started or it has candidates for them. -/
def closesAllowed (cfg : ChannelLifecycleConfig)
    (start : LifecycleState Id Addr) (inputs : TickInputs Id Addr) : ℕ :=
  min (min cfg.closeMaxConcurrent
    (inputs.openChannels.length + start.openInFlight.heldCount start.now -
      cfg.minOpenChannels)) (start.closesHeld + closesWanted inputs)

/-- The channels Open on chain suffice for the floor and for those closes. -/
def EnoughOpen (cfg : ChannelLifecycleConfig)
    (start : LifecycleState Id Addr) (inputs : TickInputs Id Addr)
    (chain : List Id) : Prop :=
  cfg.minOpenChannels + closesAllowed cfg start inputs ≤ chain.length

/-- The close pass of a tick dispatches the close of `id`, with `closeCount`
closes counted.  The leases of all kinds are arbitrary in `start`. -/
structure RegularClose (cfg : ChannelLifecycleConfig)
    (start : LifecycleState Id Addr) (inputs : TickInputs Id Addr)
    (closeCount : ℕ) (id : Id) (before after : LifecycleState Id Addr) :
    Prop where
  run : ∃ actions : List (LifecycleAction Id Addr),
    (∀ action ∈ actions, action.IsDuringTick) ∧
      (channelLifecycle cfg).run start (.tick inputs :: actions) = some before
  phase : ∃ candidates dispatchedThisTick, before.phase =
    .closing candidates closeCount dispatchedThisTick
  next : ∃ reread, next cfg before (.work reread) = some after
  running : ∃ holder, after.running =
    before.running ++ [(.close id, holder)]

variable {start : LifecycleState Id Addr} {inputs : TickInputs Id Addr}
  {closeCount : ℕ} {id : Id} {chain : List Id}

/-- It takes one more channel, and the tick allowed it. -/
theorem RegularClose.dispatched (hlease : 0 < cfg.actionLeaseTimeout)
    (hclose : RegularClose cfg start inputs closeCount id before after) :
    before.closesHeld ≤ closeCount ∧
      closeCount + 1 ≤ closesAllowed cfg start inputs ∧
      ∀ other, after.closeInFlight.isHeld after.now other =
        (before.closeInFlight.isHeld before.now other || other = id) := by
  obtain ⟨actions, hduring, hrun⟩ := hclose.run
  obtain ⟨candidates, dispatchedThisTick, hphase⟩ := hclose.phase
  obtain ⟨reread, hnext⟩ := hclose.next
  obtain ⟨holder, hrunning⟩ := hclose.running
  have hbefore := LifecycleState.duringTick hduring hrun
  have hcounted := hbefore.counted
  unfold ClosesCounted closeCandidates at hcounted
  rw [hphase, hbefore.tick] at hcounted
  obtain ⟨hheld, hcount, hleft⟩ := hcounted
  have hresult : after = before.closeStep cfg closeCount dispatchedThisTick
      candidates := by
    simp only [LifecycleState.next, work, hphase, Option.some.injEq] at hnext
    exact hnext.symm
  rcases closeStep_cases hresult with ⟨hsame, _⟩ | ⟨hsame, _⟩ |
    ⟨tried, rest, rfl, hcap, hlimit, hroom, hclosable, hafter⟩
  · rw [hsame.running] at hrunning
    simp at hrunning
  · rw [hsame.running] at hrunning
    simp at hrunning
  · rw [hbefore.tick] at hlimit hclosable
    rw [hbefore.openCount] at hroom
    have hwanted : dispatchedThisTick + 1 ≤ closesWanted inputs := by
      unfold closesWanted
      rw [hclosable] at hleft
      cases hmax : inputs.maxClosesPerTick with
      | none => exact le_trans (by omega) hleft
      | some limit =>
          have hbelow := hlimit limit hmax
          exact le_min (le_trans (by omega) hleft) hbelow
    refine ⟨hheld, ?_, ?_⟩
    · unfold closesAllowed
      omega
    · rcases tryOperation_cases cfg before (.close tried) with
        ⟨_, hrefused⟩ | ⟨_, hdispatched, _⟩
      · rw [hafter] at hrunning
        dsimp only at hrunning
        rw [hrefused.running] at hrunning
        simp at hrunning
      · rw [hafter] at hrunning ⊢
        generalize (before.tryOperation cfg (.close tried)).2 = middle
          at hdispatched hrunning
        cases hdispatched with
        | close hfree =>
            simp only [List.append_cancel_left_eq, List.cons.injEq,
              Prod.mk.injEq, Operation.close.injEq, and_true] at hrunning
            intro other
            rw [← hrunning.1]
            exact ActionLeases.isHeld_acquire hlease hfree

/-- The channels which are Open on chain, in terms of the count. -/
theorem RegularClose.accounts (hlease : 0 < cfg.actionLeaseTimeout)
    (hclose : RegularClose cfg start inputs closeCount id before after)
    (hchain : chain.Nodup) :
    after.population chain + before.beingClosedWith id chain = chain.length ∧
      before.beingClosedWith id chain ≤ closeCount + 1 ∧
      closeCount + 1 ≤ closesAllowed cfg start inputs := by
  obtain ⟨hcounted, hallowed, hheld⟩ := hclose.dispatched hlease
  exact ⟨population_add id hheld,
    (ActionLeases.countP_isHeld_or_le id hchain).trans
      (Nat.add_le_add_right hcounted 1), hallowed⟩

omit [DecidableEq Addr] in
/-- With no open in flight at the start of the tick, and no channel gone since,
the channels Open on chain are enough. -/
theorem enoughOpen_of_noOpens
    (hopens : start.openInFlight.heldCount start.now = 0)
    (hfloor : cfg.minOpenChannels ≤ inputs.openChannels.length)
    (hread : inputs.openChannels.length ≤ chain.length) :
    EnoughOpen cfg start inputs chain := by
  unfold EnoughOpen closesAllowed
  omega

/-- A regular close leaves the floor while the channels Open on chain are enough
for the closes which the tick allows.  When the last of them is dispatched, and
each is the close of a channel which is Open on chain, the floor is left only
then. -/
theorem populationFloor (cfg : ChannelLifecycleConfig)
    (hlease : 0 < cfg.actionLeaseTimeout)
    (hclose : RegularClose cfg start inputs closeCount id before after)
    (hchain : chain.Nodup) :
    (EnoughOpen cfg start inputs chain →
      cfg.minOpenChannels ≤ after.population chain) ∧
    (closeCount + 1 = closesAllowed cfg start inputs →
      before.beingClosedWith id chain = closeCount + 1 →
      (cfg.minOpenChannels ≤ after.population chain ↔
        EnoughOpen cfg start inputs chain)) := by
  have haccounts := hclose.accounts hlease hchain
  unfold EnoughOpen
  constructor
  · intro henough
    omega
  · intro hlast hopen
    constructor
    · intro hfloor
      omega
    · intro henough
      omega

/-- Channels which the selector wants closed. -/
def retiredInputs (ids : List ℕ) : TickInputs ℕ ℕ :=
  { lifecycleInputs with
    channels := ids.map fun id => ⟨id, id, HoprBalance.zero, .open⟩
    startupPhase := .expired
    closesRanked := ids }

/-- An open to another peer is in flight when the tick starts. -/
def openingStart : LifecycleState ℕ ℕ :=
  { LifecycleState.initial with
    openInFlight := (ActionLeases.empty.acquire 0 100 9).2 }

/-- Of three Open channels two may be closed, with an open in flight beside
them. -/
theorem populationFloor_two :
    ∃ before after : LifecycleState ℕ ℕ,
      RegularClose sampleConfig openingStart (retiredInputs [1, 2, 3]) 1 2
        before after ∧
      after.population [1, 2, 3] = 1 ∧
      sampleConfig.minOpenChannels ≤ after.population [1, 2, 3] := by
  have hclose : RegularClose sampleConfig openingStart
      (retiredInputs [1, 2, 3]) 1 2
      ((openingStart.startTick sampleConfig
        (retiredInputs [1, 2, 3])).closeStep sampleConfig 0 0 [1, 2, 3])
      (((openingStart.startTick sampleConfig
        (retiredInputs [1, 2, 3])).closeStep sampleConfig 0 0
          [1, 2, 3]).closeStep sampleConfig 1 1 [2, 3]) := by
    refine ⟨⟨[.work none], ?_, rfl⟩, ⟨_, _, rfl⟩, ⟨none, rfl⟩, ⟨_, rfl⟩⟩
    intro action hmem
    rw [List.mem_singleton.mp hmem]
    trivial
  have henough : EnoughOpen sampleConfig openingStart
      (retiredInputs [1, 2, 3]) [1, 2, 3] := by
    unfold EnoughOpen
    decide
  exact ⟨_, _, hclose, by decide,
    (populationFloor sampleConfig (by decide) hclose (by decide)).1 henough⟩

/-- An open in flight is counted, and the only Open channel is closed. -/
theorem populationFloor_opening :
    ¬ ∀ (cfg : ChannelLifecycleConfig) (start before after : LifecycleState ℕ ℕ)
        (inputs : TickInputs ℕ ℕ) (closeCount id : ℕ),
        0 < cfg.actionLeaseTimeout →
        RegularClose cfg start inputs closeCount id before after →
        cfg.minOpenChannels ≤
          after.population (inputs.openChannels.map (·.id)) := by
  intro hclaim
  have hfloor := hclaim sampleConfig openingStart _ _
    (retiredInputs [1]) 0 1 (by decide)
    ⟨⟨[], fun _ hmem => (by cases hmem), rfl⟩, ⟨_, _, rfl⟩, ⟨none, rfl⟩,
      ⟨_, rfl⟩⟩
  exact absurd hfloor (by decide)

end LifecycleState

end HoprStrategy.ChannelLifecycle
