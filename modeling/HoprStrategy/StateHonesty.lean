import HoprStrategy.ScarceSafe
import HoprStrategy.StatePublisher

/-!
# The published state is honest

What a tick leaves short of money is at least `Degraded`, what it could not
read is `Failed`, and nothing is downgraded.  Each needy channel below face
value is followed from the fund pass on: it is served, offered a top-up,
reported, or still ahead of a pass.
-/

namespace HoprStrategy.ChannelLifecycle

open Library

variable {Id Addr : Type} [DecidableEq Id] [DecidableEq Addr]

structure PublishedTick.Honest (tick : PublishedTick Id Addr) : Prop where
  short : tick.leftShort ≠ [] → StrategyState.degraded ≤ tick.state
  unread : tick.inputsRead = false → tick.state = .failed
  kept : ∀ finding ∈ tick.found, finding ≤ tick.state

namespace LifecycleState

variable {cfg : ChannelLifecycleConfig}
  {state before after : LifecycleState Id Addr}

/-! ## What a step serves -/

/-- What the tick has sent stays sent, and a lease which is taken has been
sent for. -/
structure Serves (before after : LifecycleState Id Addr) : Prop where
  tick : after.tick = before.tick
  served : ∀ id, before.served id = true → after.served id = true
  engaged : ∀ id, after.engaged id = true →
    before.engaged id = true ∨ after.served id = true

omit [DecidableEq Addr] in
theorem Serves.phase (hserves : Serves before after)
    (phase : TaskPhase Id Addr) :
    Serves before { after with phase := phase } :=
  ⟨hserves.tick, hserves.served, hserves.engaged⟩

omit [DecidableEq Addr] in
theorem Serves.spent {result : Bool × LifecycleState Id Addr}
    (amount : HoprBalance) (hserves : Serves before result.2) :
    Serves before (spent amount result) := by
  rcases result with ⟨submitted, after⟩
  cases submitted with
  | true => exact ⟨hserves.tick, hserves.served, hserves.engaged⟩
  | false => exact hserves

omit [DecidableEq Addr] in
/-- Live leases of the same channels engage the same channels. -/
theorem SameLive.engaged (hlive : SameLive before after) (id : Id) :
    after.engaged id = before.engaged id := by
  have hfund : after.fundInFlight.isHeld after.now id =
      before.fundInFlight.isHeld before.now id := by
    rw [Bool.eq_iff_iff, ActionLeases.isHeld_iff_live,
      ActionLeases.isHeld_iff_live, hlive.funds]
  have hclose : after.closeInFlight.isHeld after.now id =
      before.closeInFlight.isHeld before.now id := by
    rw [Bool.eq_iff_iff, ActionLeases.isHeld_iff_live,
      ActionLeases.isHeld_iff_live, hlive.closes]
  unfold LifecycleState.engaged
  rw [hfund, hclose]

omit [DecidableEq Addr] in
theorem served_of_dispatched {operations : List (Operation Id Addr)}
    (hdispatched : after.dispatched = before.dispatched ++ operations)
    (id : Id) : after.served id =
      (before.served id || operations.any (·.actsOn id)) := by
  unfold served
  rw [hdispatched, List.any_append]

omit [DecidableEq Addr] in
theorem engaged_iff (state : LifecycleState Id Addr) (id : Id) :
    state.engaged id = true ↔ state.fundInFlight.isHeld state.now id = true ∨
      state.closeInFlight.isHeld state.now id = true := by
  unfold engaged
  rw [Bool.or_eq_true]

/-- An operation which is tried takes no lease but its own. -/
theorem tryOperation_serves (operation : Operation Id Addr) :
    Serves state (state.tryOperation cfg operation).2 := by
  have hsends := @tryOperation_sends _ _ _ _ cfg state operation
  refine ⟨hsends.tick, ?_, ?_⟩
  · intro id hserved
    rw [served_of_dispatched hsends.dispatched, hserved]
    rfl
  · intro id hengaged
    rcases tryOperation_cases cfg state operation with
      ⟨_, hrefused⟩ | ⟨hsubmitted, hdispatched, _⟩
    · rw [hrefused.live.engaged] at hengaged
      exact Or.inl hengaged
    · rw [hsubmitted] at hsends
      have hserved := served_of_dispatched hsends.dispatched id
      generalize (state.tryOperation cfg operation).2 = after at *
      cases hdispatched with
      | «open» => exact Or.inl hengaged
      | finalize => exact Or.inl hengaged
      | fund hfree =>
          rename_i other amount
          rcases (engaged_iff _ id).mp hengaged with hfund | hclose
          · rcases ActionLeases.isHeld_of_acquire hfund with hheld | heq
            · exact Or.inl ((engaged_iff state id).mpr (Or.inl hheld))
            · apply Or.inr
              rw [hserved, heq]
              simp [Operation.actsOn]
          · exact Or.inl ((engaged_iff state id).mpr (Or.inr hclose))
      | close hfree =>
          rename_i other
          rcases (engaged_iff _ id).mp hengaged with hfund | hclose
          · exact Or.inl ((engaged_iff state id).mpr (Or.inl hfund))
          · rcases ActionLeases.isHeld_of_acquire hclose with hheld | heq
            · exact Or.inl ((engaged_iff state id).mpr (Or.inr hheld))
            · apply Or.inr
              rw [hserved, heq]
              simp [Operation.actsOn]

theorem WorkStep.serves (hstep : WorkStep cfg before after) :
    Serves before after := by
  cases hstep with
  | moved => exact ⟨rfl, fun _ => id, fun _ => Or.inl⟩
  | tried operation phase => exact (tryOperation_serves operation).phase phase
  | paid operation amount phase =>
      exact ((tryOperation_serves operation).spent amount).phase phase

/-! ## A channel which waits for a pass -/

/-- The channel is below face value at inputs which were read, and nothing has
been sent for it. -/
structure Waiting (state : LifecycleState Id Addr)
    (channel : ChannelEntry Id Addr) : Prop where
  opened : channel ∈ state.tick.openChannels
  inputs : ∃ funding safe, state.tick.funding = some funding ∧
    state.tick.safe = some safe ∧ channel.balance < funding.faceValue
  free : state.engaged channel.id = false

/-- A pass of the tick still has the channel ahead. -/
def Awaits (state : LifecycleState Id Addr)
    (channel : ChannelEntry Id Addr) : Prop :=
  match state.phase with
  | .funding _ candidates =>
      channel ∈ candidates ∨ channel.id ∈ state.deferredToConsolidation
  | .closing _ _ _ => channel.id ∈ state.deferredToConsolidation
  | .consolidating closes remaining _ =>
      channel.id ∈ remaining ∨
        channel.id ∈ state.deferredToConsolidation ∧ channel.id ∉ closes
  | .toppingUp survivors => channel ∈ survivors
  | _ => False

variable {channel : ChannelEntry Id Addr}

omit [DecidableEq Addr] in
theorem Waiting.isFree (hwaiting : Waiting state channel)
    (hdeferred : channel.id ∈ state.deferredToConsolidation) :
    state.isFree channel = true := by
  have hfree := hwaiting.free
  unfold engaged at hfree
  rw [Bool.or_eq_false_iff] at hfree
  unfold LifecycleState.isFree
  simp [hdeferred, hfree.1, hfree.2]

omit [DecidableEq Id] [DecidableEq Addr] in
theorem consolidationCloses_of_pool {underfunded : List (ChannelEntry Id Addr)}
    {rank : Id → ℚ} {safeRemaining reclaiming faceValue pool : HoprBalance}
    (hpool : consolidationPool underfunded safeRemaining reclaiming =
      some pool) :
    ∃ closes, consolidationCloses underfunded rank safeRemaining reclaiming
      faceValue = some closes := by
  unfold consolidationCloses
  rw [hpool]
  split
  · exact ⟨[], rfl⟩
  · rw [Option.bind_eq_bind, Option.bind_some]
    dsimp only
    split <;> exact ⟨_, rfl⟩

/-- What a consolidation would pool has a word. -/
def PoolFits (state : LifecycleState Id Addr) : Prop :=
  state.tick.startupPhase = .expired → ∀ safe ∈ state.tick.safe,
    (state.tick.openChannels.filter state.isFree).isEmpty = false →
    (consolidationPool (state.tick.openChannels.filter state.isFree)
      safe.balance state.reclaiming).isSome

instance (state : LifecycleState Id Addr) : Decidable state.PoolFits :=
  inferInstanceAs (Decidable (_ → ∀ safe ∈ state.tick.safe, _ → _ = true))

omit [DecidableEq Addr] in
/-- A deferred channel is closed or topped up by the consolidation pass. -/
theorem startConsolidation_awaits (hwaiting : Waiting state channel)
    (hdeferred : channel.id ∈ state.deferredToConsolidation)
    (hpool : state.PoolFits) :
    (state.startConsolidation cfg).Awaits channel := by
  obtain ⟨funding, safe, hfunding, hsafe, hbelow⟩ := hwaiting.inputs
  have hface : funding.faceValue.isZero = false := by
    rw [HoprBalance.lt_iff] at hbelow
    simp only [HoprBalance.isZero, beq_eq_false_iff_ne]
    omega
  have hnonempty : state.deferredToConsolidation.isEmpty = false := by
    rw [List.isEmpty_eq_false_iff]
    exact List.ne_nil_of_mem hdeferred
  have hunderfunded :
      (state.tick.openChannels.filter state.isFree).isEmpty = false := by
    rw [List.isEmpty_eq_false_iff]
    exact List.ne_nil_of_mem
      (List.mem_filter.mpr ⟨hwaiting.opened, hwaiting.isFree hdeferred⟩)
  have hsized : ∃ closes,
      (if state.tick.startupPhase = .expired then
        consolidationCloses (state.tick.openChannels.filter state.isFree)
          state.tick.rank safe.balance state.reclaiming funding.faceValue
      else some []) = some closes := by
    split
    · rename_i hexpired
      obtain ⟨pool, hsum⟩ := Option.isSome_iff_exists.mp
        (hpool hexpired safe hsafe hunderfunded)
      exact consolidationCloses_of_pool hsum
    · exact ⟨[], rfl⟩
  obtain ⟨closes, hcloses⟩ := hsized
  unfold startConsolidation
  simp only [hfunding, hsafe, hface, hnonempty, hunderfunded, Bool.or_self,
    Bool.false_eq_true, if_false, hcloses]
  unfold Awaits
  dsimp only
  by_cases hclose : channel.id ∈ closes
  · exact Or.inl hclose
  · exact Or.inr ⟨hdeferred, hclose⟩

omit [DecidableEq Addr] in
theorem startClosing_awaits (hwaiting : Waiting state channel)
    (hdeferred : channel.id ∈ state.deferredToConsolidation) :
    (state.startClosing cfg).Awaits channel := by
  unfold startClosing
  by_cases hobserving : state.tick.startupPhase = .observing
  · rw [if_pos hobserving]
    refine startConsolidation_awaits hwaiting hdeferred ?_
    intro hexpired
    rw [hobserving] at hexpired
    cases hexpired
  · rw [if_neg hobserving]
    exact hdeferred

omit [DecidableEq Addr] in
theorem startToppingUp_awaits (hwaiting : Waiting state channel)
    (hdeferred : channel.id ∈ state.deferredToConsolidation)
    {closes : List Id} (hkept : channel.id ∉ closes) :
    (state.startToppingUp closes).Awaits channel := by
  unfold startToppingUp Awaits
  dsimp only
  rw [List.mem_insertionSort, List.mem_filter]
  refine ⟨hwaiting.opened, ?_⟩
  rw [hwaiting.isFree hdeferred]
  simpa using hkept

/-- What has become of a channel which waited before a step. -/
def Handled (state after : LifecycleState Id Addr)
    (found : List StrategyState) (channel : ChannelEntry Id Addr) : Prop :=
  channel.id ∈ state.workOffers ∨ StrategyState.degraded ∈ found ∨
    after.Awaits channel

theorem fundStep_handled {stranded : Bool}
    {candidates : List (ChannelEntry Id Addr)}
    (hphase : state.phase = .funding stranded candidates)
    (hwaiting : Waiting state channel)
    (hawaits : channel ∈ candidates ∨
      channel.id ∈ state.deferredToConsolidation) :
    Handled state (state.fundStep cfg stranded candidates)
      (state.fundStepFound cfg stranded candidates) channel := by
  obtain ⟨funding, safe, hfunding, hsafe, hbelow⟩ := hwaiting.inputs
  unfold Handled workOffers
  simp only [hphase]
  cases candidates with
  | nil =>
      rcases hawaits with hmem | hdeferred
      · cases hmem
      · exact Or.inr (Or.inr (startClosing_awaits hwaiting hdeferred))
  | cons first rest =>
      simp only [fundStep, fundStepFound, hfunding]
      by_cases hdefer :
          (stranded && decide (first.balance < funding.faceValue)) = true
      · simp only [if_pos hdefer]
        rcases hawaits with hmem | hdeferred
        · rcases List.mem_cons.mp hmem with heq | hrest
          · rw [heq]
            exact Or.inr (Or.inr (Or.inr List.mem_cons_self))
          · exact Or.inr (Or.inr (Or.inl hrest))
        · exact Or.inr (Or.inr
            (Or.inr (List.mem_cons_of_mem first.id hdeferred)))
      · simp only [if_neg hdefer]
        by_cases hzero : (fundAmount funding state.safeRemaining).isZero = true
        · simp only [if_pos hzero]
          exact Or.inr (Or.inl List.mem_cons_self)
        · simp only [if_neg hzero]
          have hoffered : ¬ (stranded && decide (first.balance <
              funding.faceValue) || (fundAmount funding
              state.safeRemaining).isZero) = true := by
            rw [Bool.or_eq_true]
            exact not_or.mpr ⟨hdefer, hzero⟩
          have hsends := (@tryOperation_sends _ _ _ _ cfg state
            (.fund first.id (fundAmount funding state.safeRemaining))).spent
              (fundAmount funding state.safeRemaining)
          rcases hawaits with hmem | hdeferred
          · rcases List.mem_cons.mp hmem with heq | hrest
            · rw [if_neg hoffered, heq]
              exact Or.inl (List.mem_singleton_self first.id)
            · exact Or.inr (Or.inr (Or.inl hrest))
          · refine Or.inr (Or.inr (Or.inr ?_))
            exact hsends.deferred ▸ hdeferred

/-- The close pass is at its end, or at one of its limits. -/
def closingEnds (cfg : ChannelLifecycleConfig) (state : LifecycleState Id Addr)
    (candidates : List Id) (closeCount dispatchedThisTick : ℕ) : Bool :=
  candidates.isEmpty || cfg.closeMaxConcurrent ≤ closeCount ||
    state.tick.maxClosesPerTick.any (· ≤ dispatchedThisTick) ||
    state.openCount - closeCount ≤ cfg.minOpenChannels

/-- The close pass leaves the deferred channels to the consolidation pass. -/
theorem closeStep_handled {candidates : List Id}
    {closeCount dispatchedThisTick : ℕ} {found : List StrategyState}
    (hwaiting : Waiting state channel)
    (hdeferred : channel.id ∈ state.deferredToConsolidation)
    (hpool : state.closingEnds cfg candidates closeCount dispatchedThisTick →
      state.PoolFits) :
    Handled state
      (state.closeStep cfg closeCount dispatchedThisTick candidates)
      found channel := by
  refine Or.inr (Or.inr ?_)
  cases candidates with
  | nil => exact startConsolidation_awaits hwaiting hdeferred (hpool rfl)
  | cons id rest =>
      simp only [closeStep]
      split
      · rename_i hends
        exact startConsolidation_awaits hwaiting hdeferred (hpool hends)
      · split
        · exact hdeferred
        · rename_i closing _
          split
          · exact hdeferred
          · split
            · exact hdeferred
            · have hsends := @tryOperation_sends _ _ _ _ cfg state
                (.close closing.id)
              have hkept : channel.id ∈ (state.tryCloseChannel cfg
                  closing).2.deferredToConsolidation :=
                hsends.deferred ▸ hdeferred
              by_cases hsubmitted :
                  (state.tryCloseChannel cfg closing).1 = true
              · simp only [if_pos hsubmitted]
                exact hkept
              · simp only [if_neg hsubmitted]
                exact hkept

omit [DecidableEq Addr] in
/-- A close finds its slot free and the action budget with room. -/
theorem tryCloseChannel_submitted
    (hfree : state.closeInFlight.isHeld state.now channel.id = false)
    (hroom : state.totalInFlight < cfg.maxConcurrentActions) :
    (state.tryCloseChannel cfg channel).1 = true := by
  have hcount : (state.closeInFlight.acquire state.now cfg.actionLeaseTimeout
      channel.id).2.heldCount state.now ≤
      state.closeInFlight.heldCount state.now + 1 := by
    rw [ActionLeases.heldCount_eq_length_live,
      ActionLeases.heldCount_eq_length_live, ActionLeases.live_acquire hfree]
    split
    · exact le_rfl
    · exact Nat.le_succ _
  have htotal : totalInFlight { state with
      closeInFlight := (state.closeInFlight.acquire state.now
        cfg.actionLeaseTimeout channel.id).2 } ≤ state.totalInFlight + 1 := by
    unfold totalInFlight
    dsimp only
    omega
  unfold tryCloseChannel spawnLeased
  rw [ActionLeases.acquire_of_free hfree] at htotal ⊢
  dsimp only
  rw [if_neg (Nat.not_lt_of_le (htotal.trans hroom))]

omit [DecidableEq Addr] in
theorem channelById_of_mem {tick : TickInputs Id Addr}
    (hopened : channel ∈ tick.openChannels) :
    ∃ found, tick.channelById channel.id = some found ∧
      found.id = channel.id := by
  unfold TickInputs.channelById
  cases hfind : tick.openChannels.reverse.find? (·.id = channel.id) with
  | none =>
      have hother := List.find?_eq_none.mp hfind channel
        (List.mem_reverse.mpr hopened)
      simp at hother
  | some found =>
      have hid := List.find?_some hfind
      exact ⟨found, rfl, by simpa using hid⟩

/-- A computed close which there is room for is reported. -/
theorem consolidateStep_handled {closes remaining : List Id}
    {closeCount : ℕ} (hwaiting : Waiting state channel)
    (hroom : remaining ≠ [] → closeCount < cfg.closeMaxConcurrent ∧
      state.totalInFlight < cfg.maxConcurrentActions)
    (hawaits : channel.id ∈ remaining ∨
      channel.id ∈ state.deferredToConsolidation ∧ channel.id ∉ closes) :
    Handled state (state.consolidateStep cfg closes closeCount remaining)
      (state.consolidateStepFound cfg closeCount remaining) channel := by
  unfold Handled
  apply Or.inr
  cases remaining with
  | nil =>
      rcases hawaits with hmem | ⟨hdeferred, hkept⟩
      · cases hmem
      · exact Or.inr (startToppingUp_awaits hwaiting hdeferred hkept)
  | cons id rest =>
      obtain ⟨hcap, hbudget⟩ := hroom (List.cons_ne_nil id rest)
      simp only [consolidateStep, consolidateStepFound,
        if_neg (Nat.not_le_of_lt hcap)]
      by_cases hid : channel.id = id
      · obtain ⟨entry, hentry, hsame⟩ := channelById_of_mem hwaiting.opened
        have hfree : state.closeInFlight.isHeld state.now entry.id = false := by
          have hnone := hwaiting.free
          unfold engaged at hnone
          rw [Bool.or_eq_false_iff] at hnone
          rw [hsame]
          exact hnone.2
        rw [← hid, hentry]
        dsimp only
        rw [if_pos (tryCloseChannel_submitted hfree hbudget)]
        exact Or.inl (List.mem_singleton_self _)
      · apply Or.inr
        have hlater : channel.id ∈ rest ∨
            channel.id ∈ state.deferredToConsolidation ∧
              channel.id ∉ closes := by
          rcases hawaits with hmem | hdeferred
          · exact Or.inl ((List.mem_cons.mp hmem).resolve_left hid)
          · exact Or.inr hdeferred
        cases hentry : state.tick.channelById id with
        | none => exact hlater
        | some entry =>
            have hsends := @tryOperation_sends _ _ _ _ cfg state
              (.close entry.id)
            refine hlater.imp_right ?_
            intro hdeferred
            exact ⟨hsends.deferred ▸ hdeferred.1, hdeferred.2⟩

omit [DecidableEq Addr] in
/-- A survivor is topped up, or the Safe is reported as short. -/
theorem topUpStep_handled {survivors : List (ChannelEntry Id Addr)}
    (hphase : state.phase = .toppingUp survivors)
    (hwaiting : Waiting state channel) (hawaits : channel ∈ survivors) :
    Handled state (state.topUpStep cfg survivors)
      (state.topUpStepFound cfg survivors) channel := by
  obtain ⟨funding, safe, hfunding, hsafe, hbelow⟩ := hwaiting.inputs
  unfold Handled workOffers
  simp only [hphase]
  cases survivors with
  | nil => cases hawaits
  | cons first rest =>
      simp only [topUpStep, topUpStepFound, hfunding]
      by_cases hzero : (funding.faceValue - first.balance).isZero = true
      · simp only [if_pos hzero]
        rcases List.mem_cons.mp hawaits with heq | hrest
        · rw [HoprBalance.lt_iff] at hbelow
          simp only [HoprBalance.isZero, HoprBalance.sub_wei,
            beq_iff_eq] at hzero
          rw [heq] at hbelow
          omega
        · exact Or.inr (Or.inr hrest)
      · simp only [if_neg hzero]
        by_cases hshort : state.safeRemaining < funding.faceValue - first.balance
        · simp only [if_pos hshort]
          exact Or.inr (Or.inl List.mem_cons_self)
        · simp only [if_neg hshort]
          have hoffered : ¬ ((funding.faceValue - first.balance).isZero ||
              decide (state.safeRemaining <
                funding.faceValue - first.balance)) = true := by
            rw [Bool.or_eq_true, decide_eq_true_eq]
            exact not_or.mpr ⟨hzero, hshort⟩
          rcases List.mem_cons.mp hawaits with heq | hrest
          · rw [if_neg hoffered, heq]
            exact Or.inl (List.mem_singleton_self first.id)
          · exact Or.inr (Or.inr hrest)

/-- A consolidation which starts can pool the stake, and a close which it has
computed has a place under the close cap and in the action budget. -/
def ClosesFit (cfg : ChannelLifecycleConfig)
    (state : LifecycleState Id Addr) : Prop :=
  match state.phase with
  | .closing candidates closeCount dispatchedThisTick =>
      state.closingEnds cfg candidates closeCount dispatchedThisTick →
        state.PoolFits
  | .consolidating _ (_ :: _) closeCount =>
      closeCount < cfg.closeMaxConcurrent ∧
        state.totalInFlight < cfg.maxConcurrentActions
  | _ => True

instance (cfg : ChannelLifecycleConfig) :
    (state : LifecycleState Id Addr) → Decidable (state.ClosesFit cfg)
  | { phase := .closing _ _ _, .. } => inferInstanceAs (Decidable (_ → _))
  | { phase := .consolidating _ (_ :: _) _, .. } =>
      inferInstanceAs (Decidable (_ ∧ _))
  | { phase := .consolidating _ [] _, .. } | { phase := .idle, .. }
  | { phase := .funding _ _, .. } | { phase := .toppingUp _, .. }
  | { phase := .finalizing _ _, .. } | { phase := .opening _, .. }
  | { phase := .decreased _ _, .. } | { phase := .crashed, .. } =>
      inferInstanceAs (Decidable True)

theorem work_handled {reread : Option (Option (ChannelEntry Id Addr))}
    (hfit : state.ClosesFit cfg) (hwaiting : Waiting state channel)
    (hawaits : state.Awaits channel)
    (hwork : state.work cfg reread = some after) :
    Handled state after (state.workFound cfg reread) channel := by
  unfold work at hwork
  unfold Awaits at hawaits
  unfold ClosesFit at hfit
  unfold workFound
  cases hphase : state.phase with
  | idle =>
      rw [hphase] at hwork
      cases hwork
  | decreased =>
      rw [hphase] at hwork
      cases hwork
  | crashed =>
      rw [hphase] at hwork
      cases hwork
  | funding stranded candidates =>
      simp only [hphase] at hwork hawaits
      cases hwork
      exact fundStep_handled hphase hwaiting hawaits
  | closing candidates closeCount dispatchedThisTick =>
      simp only [hphase] at hwork hawaits hfit
      cases hwork
      exact closeStep_handled hwaiting hawaits hfit
  | consolidating closes remaining closeCount =>
      simp only [hphase] at hwork hawaits hfit
      cases hwork
      apply consolidateStep_handled hwaiting ?_ hawaits
      intro hremaining
      cases remaining with
      | nil => exact absurd rfl hremaining
      | cons id rest => exact hfit
  | toppingUp survivors =>
      simp only [hphase] at hwork hawaits
      cases hwork
      exact topUpStep_handled hphase hwaiting hawaits
  | finalizing =>
      rw [hphase] at hawaits
      exact hawaits.elim
  | opening =>
      rw [hphase] at hawaits
      exact hawaits.elim

omit [DecidableEq Addr] in
/-- Between the steps of a tick leases are only given back. -/
theorem Serves.of_released (htick : after.tick = before.tick)
    (hdispatched : after.dispatched = before.dispatched)
    (hnow : before.now ≤ after.now)
    (hfund : after.fundInFlight.leases ⊆ before.fundInFlight.leases)
    (hclose : after.closeInFlight.leases ⊆ before.closeInFlight.leases) :
    Serves before after := by
  refine ⟨htick, ?_, ?_⟩
  · intro id hserved
    unfold LifecycleState.served at hserved ⊢
    rw [hdispatched]
    exact hserved
  · intro id hengaged
    apply Or.inl
    rw [engaged_iff] at hengaged ⊢
    refine hengaged.imp ?_ ?_
    · intro hheld
      exact ActionLeases.isHeld_of_subset hfund
        (ActionLeases.isHeld_mono hnow hheld)
    · intro hheld
      exact ActionLeases.isHeld_of_subset hclose
        (ActionLeases.isHeld_mono hnow hheld)

theorem reported_serves (operation : Operation Id Addr) (holder : UInt64)
    (index : ℕ) :
    Serves state { state.reported operation holder with
      running := state.running.eraseIdx index } := by
  cases operation with
  | «open» =>
      exact .of_released rfl rfl le_rfl (List.Subset.refl _)
        (List.Subset.refl _)
  | finalize =>
      exact .of_released rfl rfl le_rfl (List.Subset.refl _)
        (List.Subset.refl _)
  | fund id =>
      exact .of_released rfl rfl le_rfl
        (ActionLeases.releaseOwned_subset holder) (List.Subset.refl _)
  | close id =>
      exact .of_released rfl rfl le_rfl (List.Subset.refl _)
        (ActionLeases.releaseOwned_subset holder)

omit [DecidableEq Addr] in
/-- The fund pass takes up Open channels without a lease, once it has read its
inputs. -/
theorem startFunding_demand (hdemand : channel ∈
      (state.startFunding cfg).fundDemand) :
    channel ∈ state.tick.openChannels ∧ state.tick.safe.isSome = true ∧
      state.engaged channel.id = false ∧
      (state.startFunding cfg).Awaits channel := by
  unfold startFunding at hdemand ⊢
  dsimp only at hdemand ⊢
  have hlater : ∀ {closing : LifecycleState Id Addr},
      closing.phase.AfterFunding → closing.fundDemand = [] := by
    intro closing hafter
    unfold fundDemand
    cases hphase : closing.phase with
    | funding =>
        rw [hphase] at hafter
        exact hafter.elim
    | _ => rfl
  have hclosing : (state.startClosing cfg).fundDemand = [] := by
    obtain ⟨phase, heq, hafter⟩ := @startClosing_phase _ _ _ cfg state
    rw [heq]
    exact hlater hafter
  split at hdemand
  · rename_i funding safe hfunding hsafe
    split at hdemand
    · rw [hclosing] at hdemand
      cases hdemand
    · rename_i hpays
      rw [if_neg hpays]
      have hmem : channel ∈ state.fundCandidates cfg funding := hdemand
      unfold fundCandidates at hmem
      rw [List.mem_insertionSort, List.mem_filter] at hmem
      obtain ⟨hopened, hchosen⟩ := hmem
      simp only [Bool.and_eq_true, Bool.not_eq_true'] at hchosen
      refine ⟨hopened, ?_, ?_, Or.inl hdemand⟩
      · rw [hsafe]
        rfl
      · unfold engaged
        rw [hchosen.1.1.1, hchosen.1.1.2]
        rfl
  · rw [hclosing] at hdemand
    cases hdemand

omit [DecidableEq Addr] in
/-- A fund pass without its inputs is found to fail. -/
theorem startFunding_failed (hunread :
      (state.tick.funding.isSome && state.tick.safe.isSome) = false) :
    StrategyState.failed ∈ state.startFundingFound cfg := by
  unfold startFundingFound
  split
  · rename_i funding safe hfunding hsafe
    rw [hfunding, hsafe] at hunread
    cases hunread
  · exact List.mem_cons_self

end LifecycleState

namespace ReportingState

open LifecycleState

variable {cfg : ChannelLifecycleConfig}
  {state before : ReportingState Id Addr} {after : LifecycleState Id Addr}

/-! ## What a tick accounts for -/

/-- Every needy channel below face value is served, offered a top-up, reported,
or still ahead of a pass. -/
structure Accounted (state : ReportingState Id Addr) : Prop where
  publisher : state.publisher = StatePublisher.new.setAll state.found
  opened : ∀ channel ∈ state.needy,
    channel ∈ state.lifecycle.tick.openChannels ∧
      state.lifecycle.tick.safe.isSome = true
  leased : ∀ channel ∈ state.needy,
    state.lifecycle.engaged channel.id = true →
      state.lifecycle.served channel.id = true
  awaited : ∀ channel ∈ state.needy,
    state.lifecycle.tick.belowFaceValue channel = true →
      state.lifecycle.served channel.id = true ∨
        channel.id ∈ state.offered ∨
        StrategyState.degraded ≤ state.publisher.state ∨
        state.lifecycle.Awaits channel
  unread : (state.lifecycle.tick.funding.isSome &&
      state.lifecycle.tick.safe.isSome) = false →
    StrategyState.failed ∈ state.found

omit [DecidableEq Addr] in
theorem Accounted.waiting (haccounted : Accounted state)
    {channel : ChannelEntry Id Addr} (hneedy : channel ∈ state.needy)
    (hbelow : state.lifecycle.tick.belowFaceValue channel = true)
    (hunserved : state.lifecycle.served channel.id = false) :
    state.lifecycle.Waiting channel := by
  obtain ⟨hopened, hsome⟩ := haccounted.opened channel hneedy
  obtain ⟨safe, hsafe⟩ := Option.isSome_iff_exists.mp hsome
  refine ⟨hopened, ?_, ?_⟩
  · unfold TickInputs.belowFaceValue at hbelow
    cases hfunding : state.lifecycle.tick.funding with
    | none =>
        rw [hfunding] at hbelow
        cases hbelow
    | some funding =>
        rw [hfunding] at hbelow
        exact ⟨funding, safe, rfl, hsafe, by simpa using hbelow⟩
  · by_cases hengaged : state.lifecycle.engaged channel.id = true
    · rw [haccounted.leased channel hneedy hengaged] at hunserved
      cases hunserved
    · exact Bool.eq_false_of_not_eq_true hengaged

omit [DecidableEq Addr] in
theorem startTick_accounted (inputs : TickInputs Id Addr) :
    Accounted (state.startTick cfg inputs) := by
  have htick : (state.lifecycle.startTick cfg inputs).tick = inputs :=
    startFunding_sameTick.tick
  have hdemand : ∀ channel ∈ (state.startTick cfg inputs).needy,
      channel ∈ inputs.openChannels ∧ inputs.safe.isSome = true ∧
        (state.lifecycle.startTick cfg inputs).engaged channel.id = false ∧
        (state.lifecycle.startTick cfg inputs).Awaits channel := by
    intro channel hneedy
    obtain ⟨hopened, hsafe, hfree, hawaits⟩ := startFunding_demand hneedy
    refine ⟨hopened, hsafe, ?_, hawaits⟩
    rw [startTick_eq, startFunding_untouched.sameLive.engaged]
    exact hfree
  constructor
  · rfl
  · intro channel hneedy
    obtain ⟨hopened, hsafe, _⟩ := hdemand channel hneedy
    change channel ∈ (state.lifecycle.startTick cfg inputs).tick.openChannels ∧
      (state.lifecycle.startTick cfg inputs).tick.safe.isSome = true
    rw [htick]
    exact ⟨hopened, hsafe⟩
  · intro channel hneedy hengaged
    rw [show (state.startTick cfg inputs).lifecycle.engaged channel.id = false
      from (hdemand channel hneedy).2.2.1] at hengaged
    cases hengaged
  · intro channel hneedy _
    exact Or.inr (Or.inr (Or.inr (hdemand channel hneedy).2.2.2))
  · intro hunread
    change ((state.lifecycle.startTick cfg inputs).tick.funding.isSome &&
      (state.lifecycle.startTick cfg inputs).tick.safe.isSome) = false
      at hunread
    rw [htick] at hunread
    exact startFunding_failed hunread

theorem work_accounted {reread : Option (Option (ChannelEntry Id Addr))}
    (hfit : before.publisher.state = .running →
      before.lifecycle.ClosesFit cfg)
    (haccounted : Accounted before)
    (hwork : before.lifecycle.work cfg reread = some after) :
    Accounted (before.work cfg reread after) := by
  have hserves := (work_workStep reread hwork).serves
  have hraised : before.publisher.state ≤
      (before.work cfg reread after).publisher.state :=
    StatePublisher.le_setAll _ _
  constructor
  · change before.publisher.setAll _ = _
    rw [haccounted.publisher]
    exact (StatePublisher.setAll_append _ _ _).symm
  · intro channel hneedy
    change channel ∈ after.tick.openChannels ∧ after.tick.safe.isSome = true
    rw [hserves.tick]
    exact haccounted.opened channel hneedy
  · intro channel hneedy hengaged
    rcases hserves.engaged channel.id hengaged with hbefore | hserved
    · exact hserves.served channel.id
        (haccounted.leased channel hneedy hbefore)
    · exact hserved
  · intro channel hneedy hbelow
    change after.tick.belowFaceValue channel = true at hbelow
    rw [hserves.tick] at hbelow
    by_cases hserved : before.lifecycle.served channel.id = true
    · exact Or.inl (hserves.served channel.id hserved)
    by_cases hrunning : before.publisher.state = .running
    · have hwaiting := haccounted.waiting hneedy hbelow
        (Bool.eq_false_of_not_eq_true hserved)
      rcases haccounted.awaited channel hneedy hbelow with
        hsent | hoffered | hfound | hawaits
      · exact absurd hsent hserved
      · exact Or.inr (Or.inl (List.mem_append_left _ hoffered))
      · exact Or.inr (Or.inr (Or.inl (hfound.trans hraised)))
      · rcases work_handled (hfit hrunning) hwaiting hawaits hwork with
          hoffered | hfound | hlater
        · exact Or.inr (Or.inl (List.mem_append_right _ hoffered))
        · exact Or.inr (Or.inr (Or.inl
            (StatePublisher.mem_le_setAll before.publisher hfound)))
        · exact Or.inr (Or.inr (Or.inr hlater))
    · exact Or.inr (Or.inr (Or.inl
        ((StrategyState.degraded_le_of_ne hrunning).trans hraised)))
  · intro hunread
    change (after.tick.funding.isSome && after.tick.safe.isSome) = false
      at hunread
    rw [hserves.tick] at hunread
    exact List.mem_append_left _ (haccounted.unread hunread)

omit [DecidableEq Addr] in
/-- Between the steps of a tick nothing is lost from the account. -/
theorem Accounted.serves (haccounted : Accounted before)
    (hserves : Serves before.lifecycle after)
    (hphase : after.phase = before.lifecycle.phase)
    (hdeferred : after.deferredToConsolidation =
      before.lifecycle.deferredToConsolidation) :
    Accounted { before with lifecycle := after } := by
  constructor
  · exact haccounted.publisher
  · intro channel hneedy
    dsimp only
    rw [hserves.tick]
    exact haccounted.opened channel hneedy
  · intro channel hneedy hengaged
    rcases hserves.engaged channel.id hengaged with hbefore | hserved
    · exact hserves.served channel.id
        (haccounted.leased channel hneedy hbefore)
    · exact hserved
  · intro channel hneedy hbelow
    dsimp only at hbelow ⊢
    rw [hserves.tick] at hbelow
    rcases haccounted.awaited channel hneedy hbelow with
      hserved | hoffered | hfound | hawaits
    · exact Or.inl (hserves.served channel.id hserved)
    · exact Or.inr (Or.inl hoffered)
    · exact Or.inr (Or.inr (Or.inl hfound))
    · apply Or.inr
      apply Or.inr
      apply Or.inr
      unfold Awaits at hawaits ⊢
      rw [hphase, hdeferred]
      exact hawaits
  · dsimp only
    rw [hserves.tick]
    exact haccounted.unread

end ReportingState

/-- A tick is between two of its steps. -/
def TaskPhase.AtWork : TaskPhase Id Addr → Prop
  | .idle | .decreased _ _ | .crashed => False
  | _ => True

namespace LifecycleState

variable {cfg : ChannelLifecycleConfig} {state after : LifecycleState Id Addr}

/-- Whatever else happens during a tick leaves it where it is, and an event is
handled outside of one. -/
theorem next_aside {action : LifecycleAction Id Addr}
    (haside : ∀ inputs, action ≠ .tick inputs)
    (hidle : ∀ reread, action ≠ .work reread)
    (hnext : next cfg state action = some after)
    (hatWork : after.phase.AtWork) :
    Serves state after ∧ after.phase = state.phase ∧
      after.deferredToConsolidation = state.deferredToConsolidation := by
  cases action with
  | tick inputs => exact absurd rfl (haside inputs)
  | work reread => exact absurd rfl (hidle reread)
  | pass now =>
      simp only [next] at hnext
      split at hnext
      · rename_i hle
        cases hnext
        exact ⟨.of_released rfl rfl hle (List.Subset.refl _)
          (List.Subset.refl _), rfl, rfl⟩
      · cases hnext
  | report index =>
      simp only [next] at hnext
      split at hnext
      · rename_i operation holder _
        cases hnext
        refine ⟨reported_serves operation holder index, ?_, ?_⟩
        · cases operation with
          | _ => rfl
        · cases operation with
          | _ => rfl
      · cases hnext
  | balanceDecreased channel =>
      simp only [next] at hnext
      split at hnext
      · rename_i hphase
        cases hnext
        unfold onBalanceDecreased at hatWork
        split at hatWork
        · rw [hphase] at hatWork
          exact hatWork.elim
        · split at hatWork
          · rw [hphase] at hatWork
            exact hatWork.elim
          · split at hatWork
            · rw [hphase] at hatWork
              exact hatWork.elim
            · split at hatWork
              · exact hatWork.elim
              · rw [hphase] at hatWork
                exact hatWork.elim
      · cases hnext
  | budget safe =>
      simp only [next] at hnext
      split at hnext
      · cases hnext
        unfold onBudget at hatWork
        split at hatWork
        · exact hatWork.elim
        · split at hatWork
          · exact hatWork.elim
          · exact hatWork.elim
      · cases hnext
  -- The events release a lease, outside of a tick.
  | _ =>
      simp only [next] at hnext
      split at hnext
      · rename_i hphase
        cases hnext
        change state.phase.AtWork at hatWork
        rw [hphase] at hatWork
        exact hatWork.elim
      · cases hnext

end LifecycleState

namespace ReportingState

open LifecycleState

variable {cfg : ChannelLifecycleConfig}
  {state before after : ReportingState Id Addr}

/-- What holds between any two steps. -/
structure Sound (state : ReportingState Id Addr) : Prop where
  accounted : state.lifecycle.phase.AtWork → Accounted state
  honest : ∀ tick ∈ state.published, tick.Honest

omit [DecidableEq Addr] in
theorem Accounted.publish (haccounted : Accounted state)
    (hhonest : ∀ tick ∈ state.published, tick.Honest) :
    Sound state.publish := by
  -- What is published once no pass is ahead any more.
  have hended : ¬ state.lifecycle.phase.AtWork →
      (∀ channel, ¬ state.lifecycle.Awaits channel) →
      Sound { state with published := state.published ++
        [{ state := state.publisher.state
           found := state.found
           inputsRead := state.lifecycle.tick.funding.isSome &&
             state.lifecycle.tick.safe.isSome
           leftShort := state.leftShort }] } := by
    intro hrest hnone
    constructor
    · exact fun hatWork => absurd hatWork hrest
    · intro tick hmem
      rcases List.mem_append.mp hmem with hold | hnew
      · exact hhonest tick hold
      rw [List.mem_singleton] at hnew
      rw [hnew]
      have hpublisher := haccounted.publisher
      refine ⟨?_, ?_, ?_⟩
      · intro hleft
        obtain ⟨channel, hchannel⟩ := List.exists_mem_of_ne_nil _ hleft
        obtain ⟨hneedy, hleft⟩ := List.mem_filter.mp hchannel
        simp only [Bool.and_eq_true, Bool.not_eq_true',
          decide_eq_true_eq] at hleft
        rcases haccounted.awaited channel hneedy hleft.1.1.1 with
          hserved | hoffered | hfound | hawaits
        · rw [hleft.1.1.2] at hserved
          cases hserved
        · exact absurd hoffered hleft.2
        · exact hfound
        · exact absurd hawaits (hnone channel)
      · intro hunread
        have hfailed := haccounted.unread hunread
        apply le_antisymm (StrategyState.le_failed _)
        dsimp only
        rw [hpublisher]
        exact StatePublisher.mem_le_setAll _ hfailed
      · intro finding hfinding
        dsimp only
        rw [hpublisher]
        exact StatePublisher.mem_le_setAll _ hfinding
  unfold ReportingState.publish
  cases hphase : state.lifecycle.phase with
  | idle =>
      apply hended
      · rw [hphase]
        exact not_false
      · intro channel
        unfold Awaits
        rw [hphase]
        exact not_false
  | crashed =>
      apply hended
      · rw [hphase]
        exact not_false
      · intro channel
        unfold Awaits
        rw [hphase]
        exact not_false
  | _ => exact ⟨fun _ => haccounted, hhonest⟩

omit [DecidableEq Addr] in
theorem skipTick_sound (hhonest : ∀ tick ∈ state.published, tick.Honest)
    (hphase : state.lifecycle.phase = .idle) : Sound state.skipTick := by
  constructor
  · intro hatWork
    change state.lifecycle.phase.AtWork at hatWork
    rw [hphase] at hatWork
    exact hatWork.elim
  · intro tick hmem
    rcases List.mem_append.mp hmem with hold | hnew
    · exact hhonest tick hold
    rw [List.mem_singleton] at hnew
    rw [hnew]
    refine ⟨?_, ?_, ?_⟩
    · intro hleft
      exact absurd rfl hleft
    · intro _
      rfl
    · intro finding hfinding
      rw [List.mem_singleton] at hfinding
      rw [hfinding]
      exact le_max_right _ _

/-- While nothing is found, a computed close comes up with room for it. -/
def ClosesFit (cfg : ChannelLifecycleConfig) (state : ReportingState Id Addr) :
    ReportingAction Id Addr → Prop
  | .lifecycle (.work _) =>
      state.publisher.state = .running → state.lifecycle.ClosesFit cfg
  | _ => True

instance (cfg : ChannelLifecycleConfig) (state : ReportingState Id Addr) :
    (action : ReportingAction Id Addr) → Decidable (state.ClosesFit cfg action)
  | .lifecycle (.work _) => inferInstanceAs (Decidable (_ → _))
  | .lifecycle (.pass _) | .lifecycle (.tick _) | .lifecycle (.report _)
  | .lifecycle (.balanceDecreased _) | .lifecycle (.budget _)
  | .lifecycle (.balanceIncreased _) | .lifecycle (.channelOpened _)
  | .lifecycle (.closureInitiated _) | .lifecycle (.channelClosed _)
  | .unreadable => inferInstanceAs (Decidable True)

theorem Sound.next {action : ReportingAction Id Addr} (hsound : Sound before)
    (hfit : before.ClosesFit cfg action)
    (hnext : before.next cfg action = some after) : Sound after := by
  cases action with
  | unreadable =>
      simp only [ReportingState.next] at hnext
      split at hnext
      · rename_i hphase
        cases hnext
        exact skipTick_sound hsound.honest hphase
      · cases hnext
  | lifecycle action =>
      simp only [ReportingState.next] at hnext
      split at hnext
      · cases hnext
      · rename_i worked hworked
        cases action with
        | tick inputs =>
            cases hnext
            exact (startTick_accounted inputs).publish hsound.honest
        | work reread =>
            cases hnext
            have hatWork : before.lifecycle.phase.AtWork := by
              cases hphase : before.lifecycle.phase with
              | idle =>
                  simp only [LifecycleState.next, LifecycleState.work,
                    hphase] at hworked
                  cases hworked
              | decreased =>
                  simp only [LifecycleState.next, LifecycleState.work,
                    hphase] at hworked
                  cases hworked
              | crashed =>
                  simp only [LifecycleState.next, LifecycleState.work,
                    hphase] at hworked
                  cases hworked
              | _ => trivial
            exact (work_accounted hfit (hsound.accounted hatWork)
              hworked).publish hsound.honest
        | _ =>
            cases hnext
            refine ⟨?_, hsound.honest⟩
            intro hatWork
            obtain ⟨hserves, hphase, hdeferred⟩ := next_aside
              (by intro inputs heq; cases heq)
              (by intro reread heq; cases heq) hworked hatWork
            have hbefore : before.lifecycle.phase.AtWork := by
              rw [← hphase]
              exact hatWork
            exact (hsound.accounted hbefore).serves hserves hphase hdeferred

/-- In every run in which each computed close comes up with room for it while
nothing is found, every tick publishes what it is short of, what it could not
read, and all that its passes found. -/
theorem stateHonesty (cfg : ChannelLifecycleConfig)
    {state : ReportingState Id Addr}
    (hreach : (reportingLifecycle cfg).ReachableWithin (ClosesFit cfg) state) :
    ∀ tick ∈ state.published, tick.Honest := by
  have hsound : Sound state := by
    refine hreach.invariant ?_ ?_
    · intro start hstart
      rw [show start = ReportingState.initial from hstart]
      constructor
      · intro hatWork
        exact hatWork.elim
      · intro tick hmem
        cases hmem
    · intro before action after hbefore hallowed hnext
      exact Sound.next hbefore hallowed hnext
  exact hsound.honest

/-- Two channels which the Safe cannot complete both, next to one which the
close pass closes. -/
def cutInputs (closes : List ℕ) (safe : ℕ) : TickInputs ℕ ℕ :=
  { drainedInputs with
    channels := [⟨1, 7, .saturating 1, .open⟩, ⟨2, 8, .saturating 1, .open⟩,
      ⟨3, 9, .saturating 2, .open⟩]
    funding := some ⟨.saturating 10, .saturating 10, .saturating 1,
      .saturating 10⟩
    safe := some ⟨.saturating safe, .saturating safe⟩
    startupPhase := .expired
    closesRanked := closes
    peerMapKnown := true }

def cutTick (closes : List ℕ) (safe steps : ℕ) :
    List (ReportingAction ℕ ℕ) :=
  .lifecycle (.tick (cutInputs closes safe)) ::
    List.replicate steps (.lifecycle (.work none))

/-- Three channels which the Safe cannot complete. -/
def shortInputs : TickInputs ℕ ℕ :=
  { cutInputs [] 8 with
    channels := [⟨1, 7, .saturating 1, .open⟩, ⟨2, 8, .saturating 1, .open⟩,
      ⟨3, 9, .saturating 1, .open⟩] }

/-- Two of them are closed, each with a place for the close, and the Safe is
still short of the third one's top-up. -/
theorem stateHonesty_short :
    ∃ (state : ReportingState ℕ ℕ) (tick : PublishedTick ℕ ℕ),
      (reportingLifecycle sampleConfig).run .initial
          (.lifecycle (.tick shortInputs) ::
            List.replicate 9 (.lifecycle (.work none))) = some state ∧
      state.published = [tick] ∧
      state.lifecycle.dispatched.length = 2 ∧
      tick.leftShort = [⟨3, 9, .saturating 1, .open⟩] ∧
      tick.Honest := by
  have hrun : (reportingLifecycle sampleConfig).run .initial
      (.lifecycle (.tick shortInputs) ::
        List.replicate 9 (.lifecycle (.work none))) = some _ := rfl
  have hfit : (reportingLifecycle sampleConfig).Throughout
      (fun before action _ => ClosesFit sampleConfig before action) .initial
      (.lifecycle (.tick shortInputs) ::
        List.replicate 9 (.lifecycle (.work none))) := by
    decide +kernel
  exact ⟨_, _, hrun, rfl, rfl, by decide, stateHonesty sampleConfig
    (.throughout (.init rfl) hfit hrun) _ List.mem_cons_self⟩

/-- The close pass has used up the close cap, and the close which would have
made room for the first channel is cut without a word. -/
theorem stateHonesty_cut :
    ¬ ∀ (cfg : ChannelLifecycleConfig) (state : ReportingState ℕ ℕ),
        (reportingLifecycle cfg).Reachable state →
        ∀ tick ∈ state.published, tick.Honest := by
  intro hclaim
  have hreach : (reportingLifecycle { sampleConfig with
      closeMaxConcurrent := 1 }).Reachable _ :=
    (TransitionSystem.Reachable.init rfl).run (cutTick [3] 9 8) rfl
  have hhonest := hclaim _ _ hreach _ List.mem_cons_self
  exact absurd (hhonest.short (List.cons_ne_nil _ _)) (by decide)

end ReportingState

end HoprStrategy.ChannelLifecycle
