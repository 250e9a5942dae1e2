import HoprStrategy.TickBudget

/-!
# Funding excludes closing

A channel whose fund lease is live has no live close lease.  Every pass which
takes a lease looks at both kinds first, but for two top-ups: the one after a
balance decrease, and the one to which an open is redirected.
-/

namespace HoprStrategy.ChannelLifecycle

open Library

variable {Id Addr : Type} [DecidableEq Id]

namespace LifecycleState

def beingFunded (state : LifecycleState Id Addr) (id : Id) : Bool :=
  state.fundInFlight.isHeld state.now id

def beingClosed (state : LifecycleState Id Addr) (id : Id) : Bool :=
  state.closeInFlight.isHeld state.now id

def Exclusive (state : LifecycleState Id Addr) : Prop :=
  ∀ id, state.beingFunded id = true → state.beingClosed id = false

/-- What the rest of a pass relies on, as it looked when the pass began. -/
def PassClear (state : LifecycleState Id Addr) : Prop :=
  match state.phase with
  | .funding _ candidates =>
      ∀ channel ∈ candidates, state.beingClosed channel.id = false
  | .consolidating closes remaining _ =>
      (∀ id ∈ closes, state.beingFunded id = false) ∧ remaining ⊆ closes
  | .toppingUp survivors =>
      ∀ channel ∈ survivors, state.beingClosed channel.id = false
  | _ => True

structure Excluded (state : LifecycleState Id Addr) : Prop where
  exclusive : state.Exclusive
  passClear : state.PassClear

/-- No lease is live which was not live before. -/
structure Quieter (before after : LifecycleState Id Addr) : Prop where
  funded : ∀ id, after.beingFunded id = true → before.beingFunded id = true
  closed : ∀ id, after.beingClosed id = true → before.beingClosed id = true

variable {cfg : ChannelLifecycleConfig}
  {state before after : LifecycleState Id Addr}

theorem Quieter.not_funded (hquiet : Quieter before after) {id : Id}
    (hfree : before.beingFunded id = false) : after.beingFunded id = false := by
  by_contra hheld
  have hbefore := hquiet.funded id (Bool.eq_true_of_not_eq_false hheld)
  rw [hfree] at hbefore
  exact Bool.false_ne_true hbefore

theorem Quieter.not_closed (hquiet : Quieter before after) {id : Id}
    (hfree : before.beingClosed id = false) : after.beingClosed id = false := by
  by_contra hheld
  have hbefore := hquiet.closed id (Bool.eq_true_of_not_eq_false hheld)
  rw [hfree] at hbefore
  exact Bool.false_ne_true hbefore

theorem Quieter.exclusive (hquiet : Quieter before after)
    (hexclusive : before.Exclusive) : after.Exclusive := by
  intro id hfunded
  exact hquiet.not_closed (hexclusive id (hquiet.funded id hfunded))

theorem Quieter.excluded (hquiet : Quieter before after)
    (hphase : after.phase = before.phase) (hbefore : before.Excluded) :
    after.Excluded := by
  have hclear := hbefore.passClear
  refine ⟨hquiet.exclusive hbefore.exclusive, ?_⟩
  unfold PassClear at hclear ⊢
  rw [hphase]
  split at hclear
  · intro channel hmem
    exact hquiet.not_closed (hclear channel hmem)
  · constructor
    · intro id hmem
      exact hquiet.not_funded (hclear.1 id hmem)
    · exact hclear.2
  · intro channel hmem
    exact hquiet.not_closed (hclear channel hmem)
  · trivial

/-! ## Taking a lease -/

omit [DecidableEq Id] in
/-- What is left of the slots once one was asked for. -/
theorem spawnLeased_leases {Key : Type} [DecidableEq Key]
    (cfg : ChannelLifecycleConfig) (state : LifecycleState Id Addr)
    (leases : ActionLeases Key)
    (put : ActionLeases Key → LifecycleState Id Addr) (key : Key)
    (operation : Operation Id Addr) :
    ∃ written : ActionLeases Key,
      written.leases ⊆
        (leases.acquire state.now cfg.actionLeaseTimeout key).2.leases ∧
      let result := state.spawnLeased cfg leases put key operation
      result.2.now = (put written).now ∧
        result.2.fundInFlight = (put written).fundInFlight ∧
        result.2.closeInFlight = (put written).closeInFlight := by
  unfold spawnLeased
  split
  · rename_i refused hrefused
    rw [hrefused]
    exact ⟨refused, List.Subset.refl _, rfl, rfl, rfl⟩
  · rename_i holder granted hgranted
    rw [hgranted]
    split
    · exact ⟨granted.releaseOwned key holder,
        ActionLeases.releaseOwned_subset holder, rfl, rfl, rfl⟩
    · exact ⟨granted, List.Subset.refl _, rfl, rfl, rfl⟩

/-- A top-up may make the fund lease of its own channel live. -/
structure Funds (before after : LifecycleState Id Addr) (id : Id) : Prop where
  funded : ∀ other, after.beingFunded other = true →
    before.beingFunded other = true ∨ other = id
  closed : ∀ other, after.beingClosed other = before.beingClosed other

structure Closes (before after : LifecycleState Id Addr) (id : Id) : Prop where
  closed : ∀ other, after.beingClosed other = true →
    before.beingClosed other = true ∨ other = id
  funded : ∀ other, after.beingFunded other = before.beingFunded other

theorem tryFundChannel_funds (channel : ChannelEntry Id Addr)
    (topup : HoprBalance) :
    Funds state (state.tryFundChannel cfg channel topup).2 channel.id := by
  rcases spawnLeased_leases cfg state state.fundInFlight
      (fun leases => { state with fundInFlight := leases }) channel.id
      (.fund channel.id topup) with
    ⟨written, hwritten, hnow, hfund, hclose⟩
  constructor
  · intro other hheld
    unfold beingFunded at hheld ⊢
    unfold tryFundChannel at hheld
    rw [hnow, hfund] at hheld
    exact ActionLeases.isHeld_of_acquire
      (ActionLeases.isHeld_of_subset hwritten hheld)
  · intro other
    unfold beingClosed tryFundChannel
    rw [hnow, hclose]

theorem tryCloseChannel_closes (channel : ChannelEntry Id Addr) :
    Closes state (state.tryCloseChannel cfg channel).2 channel.id := by
  rcases spawnLeased_leases cfg state state.closeInFlight
      (fun leases => { state with closeInFlight := leases }) channel.id
      (.close channel.id) with
    ⟨written, hwritten, hnow, hfund, hclose⟩
  constructor
  · intro other hheld
    unfold beingClosed at hheld ⊢
    unfold tryCloseChannel at hheld
    rw [hnow, hclose] at hheld
    exact ActionLeases.isHeld_of_acquire
      (ActionLeases.isHeld_of_subset hwritten hheld)
  · intro other
    unfold beingFunded tryCloseChannel
    rw [hnow, hfund]

/-- Whether a top-up of the channel is dispatched once it is tried. -/
def fundable (cfg : ChannelLifecycleConfig) (state : LifecycleState Id Addr)
    (id : Id) : Bool :=
  ! state.beingFunded id && state.totalInFlight < cfg.maxConcurrentActions

theorem tryFundChannel_refused (channel : ChannelEntry Id Addr)
    (topup : HoprBalance) (hrefused : state.fundable cfg channel.id = false) :
    Quieter state (state.tryFundChannel cfg channel topup).2 := by
  have hclosed := (@tryFundChannel_funds _ _ _ cfg state channel topup).closed
  refine ⟨?_, fun id hheld => (hclosed id).symm.trans hheld⟩
  intro id hheld
  unfold beingFunded at hheld ⊢
  by_cases hfree : state.fundInFlight.isHeld state.now channel.id = true
  · unfold tryFundChannel spawnLeased at hheld
    rw [ActionLeases.acquire_of_held hfree] at hheld
    exact hheld
  · rw [Bool.not_eq_true] at hfree
    -- A lease of no duration is taken, but is never live.
    have hfull : cfg.maxConcurrentActions ≤ state.totalInFlight := by
      simp only [fundable, beingFunded, hfree, Bool.not_false, Bool.true_and,
        decide_eq_false_iff_not] at hrefused
      omega
    by_cases hpos : 0 < cfg.actionLeaseTimeout
    · have hcount := ActionLeases.heldCount_acquire hpos hfree
      have hover : cfg.maxConcurrentActions < totalInFlight { state with
          fundInFlight := (state.fundInFlight.acquire state.now
            cfg.actionLeaseTimeout channel.id).2 } := by
        unfold totalInFlight at hfull ⊢
        dsimp only
        omega
      unfold tryFundChannel spawnLeased at hheld
      rw [ActionLeases.acquire_of_free hfree] at hheld hover
      dsimp only at hheld
      rw [if_pos hover] at hheld
      apply ActionLeases.isHeld_releaseOwned_acquire hfree
      rw [ActionLeases.acquire_of_free hfree]
      exact hheld
    · have hzero : cfg.actionLeaseTimeout = 0 := Nat.eq_zero_of_not_pos hpos
      rcases spawnLeased_leases cfg state state.fundInFlight
          (fun leases => { state with fundInFlight := leases }) channel.id
          (.fund channel.id topup) with
        ⟨written, hwritten, hnow, hfund, _⟩
      unfold tryFundChannel at hheld
      rw [hnow, hfund] at hheld
      rw [hzero] at hwritten
      exact ActionLeases.isHeld_acquire_zero
        (ActionLeases.isHeld_of_subset hwritten hheld)

/-- Neither an open nor a finalization touches the two kinds. -/
theorem openNewChannel_quieter [DecidableEq Addr] (dest : Addr)
    (amount : HoprBalance) :
    Quieter state (state.openNewChannel cfg dest amount).2 := by
  rcases spawnLeased_leases cfg state state.openInFlight
      (fun leases => { state with openInFlight := leases }) dest
      (.open dest amount) with
    ⟨written, _, hnow, hfund, hclose⟩
  constructor
  · intro id hheld
    unfold beingFunded openNewChannel at hheld
    rw [hnow, hfund] at hheld
    exact hheld
  · intro id hheld
    unfold beingClosed openNewChannel at hheld
    rw [hnow, hclose] at hheld
    exact hheld

theorem tryFinalizeChannel_quieter (channel : ChannelEntry Id Addr) :
    Quieter state (state.tryFinalizeChannel cfg channel).2 := by
  rcases spawnLeased_leases cfg state state.finalizeInFlight
      (fun leases => { state with finalizeInFlight := leases }) channel.id
      (.finalize channel.id) with
    ⟨written, _, hnow, hfund, hclose⟩
  constructor
  · intro id hheld
    unfold beingFunded tryFinalizeChannel at hheld
    rw [hnow, hfund] at hheld
    exact hheld
  · intro id hheld
    unfold beingClosed tryFinalizeChannel at hheld
    rw [hnow, hclose] at hheld
    exact hheld

theorem Funds.exclusive {id : Id} (hfunds : Funds before after id)
    (hfree : before.beingClosed id = false) (hbefore : before.Exclusive) :
    after.Exclusive := by
  intro other hfunded
  rw [hfunds.closed other]
  rcases hfunds.funded other hfunded with hold | hnew
  · exact hbefore other hold
  · rw [hnew]
    exact hfree

theorem Closes.exclusive {id : Id} (hcloses : Closes before after id)
    (hfree : before.beingFunded id = false) (hbefore : before.Exclusive) :
    after.Exclusive := by
  intro other hfunded
  rw [hcloses.funded other] at hfunded
  have hopen := hbefore other hfunded
  by_contra hclosed
  rcases hcloses.closed other (Bool.eq_true_of_not_eq_false hclosed) with
    hold | hnew
  · rw [hopen] at hold
    exact Bool.false_ne_true hold
  · rw [hnew, hfree] at hfunded
    exact Bool.false_ne_true hfunded

theorem spent_funds {id : Id} {amount : HoprBalance}
    {result : Bool × LifecycleState Id Addr}
    (hfunds : Funds before result.2 id) :
    Funds before (spent amount result) id := by
  rcases result with ⟨submitted, after⟩
  cases submitted with
  | false => exact hfunds
  | true => exact ⟨hfunds.funded, hfunds.closed⟩

theorem spent_exclusive {amount : HoprBalance}
    {result : Bool × LifecycleState Id Addr} (hresult : result.2.Exclusive) :
    (spent amount result).Exclusive := by
  rcases result with ⟨submitted, after⟩
  cases submitted with
  | false => exact hresult
  | true => exact hresult

/-- A top-up which nobody looked at the close lease for. -/
theorem tryFundChannel_exclusive (channel : ChannelEntry Id Addr)
    (topup : HoprBalance)
    (hclear : state.fundable cfg channel.id = true →
      state.beingClosed channel.id = false)
    (hexclusive : state.Exclusive) :
    (state.tryFundChannel cfg channel topup).2.Exclusive := by
  by_cases hfundable : state.fundable cfg channel.id = true
  · exact (tryFundChannel_funds channel topup).exclusive (hclear hfundable)
      hexclusive
  · rw [Bool.not_eq_true] at hfundable
    exact (tryFundChannel_refused channel topup hfundable).exclusive hexclusive

theorem spent_quieter {amount : HoprBalance}
    {result : Bool × LifecycleState Id Addr}
    (hquiet : Quieter before result.2) :
    Quieter before (spent amount result) := by
  rcases result with ⟨submitted, after⟩
  cases submitted with
  | false => exact hquiet
  | true => exact ⟨hquiet.funded, hquiet.closed⟩

/-! ## The passes, from the last to the first -/

theorem startOpening_excluded (hexclusive : state.Exclusive) :
    (state.startOpening cfg).Excluded := by
  unfold startOpening
  dsimp only
  split
  · split
    · exact ⟨hexclusive, trivial⟩
    · exact ⟨hexclusive, trivial⟩
  · exact ⟨hexclusive, trivial⟩

/-- The open pass tops up the channel which it re-read, unless that is below
the threshold no longer or cannot be paid for. -/
def redirected (state : LifecycleState Id Addr) (funding : ResolvedFunding)
    (existing : ChannelEntry Id Addr) : Bool :=
  existing.status = .open &&
    existing.balance < funding.lowerBalanceThreshold &&
    funding.topupBalance ≤ state.safeRemaining

theorem tryOpenChannel_exclusive [DecidableEq Addr] (dest : Addr)
    (funding : ResolvedFunding)
    (reread : Option (Option (ChannelEntry Id Addr)))
    (hredirect : ∀ existing, reread = some (some existing) →
      state.redirected funding existing = true →
      state.fundable cfg existing.id = true →
      state.beingClosed existing.id = false)
    (hexclusive : state.Exclusive) :
    (state.tryOpenChannel cfg dest funding reread).Exclusive := by
  have hopening : (spent funding.initialBalance
      (state.openNewChannel cfg dest funding.initialBalance)).Exclusive :=
    (spent_quieter (openNewChannel_quieter dest _)).exclusive hexclusive
  unfold tryOpenChannel
  dsimp only
  split
  · rename_i existing
    split
    · rename_i hstatus
      split
      · exact hexclusive
      · rename_i hbelow
        split
        · exact hexclusive
        · rename_i hafford
          have hlt : existing.balance < funding.lowerBalanceThreshold :=
            Nat.lt_of_not_le hbelow
          have hle : funding.topupBalance ≤ state.safeRemaining :=
            Nat.le_of_not_lt hafford
          have hfree := hredirect existing rfl
            (by simp [redirected, hstatus, hlt, hle])
          exact spent_exclusive
            (tryFundChannel_exclusive existing _ hfree hexclusive)
    · exact hexclusive
    · exact hopening
  · exact hopening
  · exact hopening

theorem startFinalizing_excluded (hexclusive : state.Exclusive) :
    (state.startFinalizing cfg).Excluded := by
  unfold startFinalizing
  split
  · exact ⟨hexclusive, trivial⟩
  · exact startOpening_excluded hexclusive

theorem finalizeStep_excluded (finalizeCount : ℕ)
    (channels : List (ChannelEntry Id Addr)) (hexclusive : state.Exclusive) :
    (state.finalizeStep cfg finalizeCount channels).Excluded := by
  cases channels with
  | nil => exact startOpening_excluded hexclusive
  | cons channel rest =>
      simp only [finalizeStep]
      split
      · exact startOpening_excluded hexclusive
      · split
        · exact ⟨hexclusive, trivial⟩
        · split
          · have hquiet : Quieter state
                (state.tryFinalizeChannel cfg channel).2 :=
              tryFinalizeChannel_quieter channel
            exact ⟨hquiet.exclusive hexclusive, trivial⟩
          · exact ⟨hexclusive, trivial⟩

theorem isFree_iff {channel : ChannelEntry Id Addr} :
    state.isFree channel = true ↔
      channel.id ∈ state.deferredToConsolidation ∧
        state.beingFunded channel.id = false ∧
        state.beingClosed channel.id = false := by
  unfold isFree beingFunded beingClosed
  simp [and_assoc]

omit [DecidableEq Id] in
theorem mem_consolidationCloses
    {underfunded : List (ChannelEntry Id Addr)} {rank : Id → ℚ}
    {safeBalance stake faceValue : HoprBalance} {id : Id}
    {closes : List Id}
    (hcloses : consolidationCloses underfunded rank safeBalance stake
      faceValue = some closes) (hmem : id ∈ closes) :
    ∃ channel ∈ underfunded, channel.id = id := by
  unfold consolidationCloses at hcloses
  split at hcloses
  · cases hcloses
    cases hmem
  · obtain ⟨pool, _, hcloses⟩ := Option.bind_eq_some_iff.mp hcloses
    dsimp only at hcloses
    split at hcloses
    · cases hcloses
      cases hmem
    · cases hcloses
      rcases List.mem_map.mp hmem with ⟨channel, htake, hid⟩
      have hsorted := List.mem_of_mem_take htake
      exact ⟨channel, (List.mem_insertionSort _).mp hsorted, hid⟩

theorem startConsolidation_excluded (hexclusive : state.Exclusive) :
    (state.startConsolidation cfg).Excluded := by
  unfold startConsolidation
  dsimp only
  split
  · split
    · exact startFinalizing_excluded hexclusive
    · split
      · exact ⟨hexclusive, trivial⟩
      · rename_i closes hcloses
        refine ⟨hexclusive, ?_, List.Subset.refl _⟩
        intro id hmem
        split at hcloses
        · rcases mem_consolidationCloses hcloses hmem with
            ⟨channel, hunder, rfl⟩
          exact (isFree_iff.mp (List.mem_filter.mp hunder).2).2.1
        · cases hcloses
          cases hmem
  · exact startFinalizing_excluded hexclusive

theorem startToppingUp_excluded (closes : List Id)
    (hexclusive : state.Exclusive) :
    (state.startToppingUp closes).Excluded := by
  constructor
  · exact hexclusive
  · intro channel hmem
    have hfilter := (List.mem_insertionSort _).mp hmem
    have hkept := (List.mem_filter.mp hfilter).2
    rw [Bool.and_eq_true] at hkept
    exact (isFree_iff.mp hkept.1).2.2

/-- A consolidation close may rely on the pass for the fund lease. -/
theorem consolidateStep_excluded {closes remaining : List Id} {closeCount : ℕ}
    (hcloses : ∀ id ∈ closes, state.beingFunded id = false)
    (hsubset : remaining ⊆ closes) (hexclusive : state.Exclusive) :
    (state.consolidateStep cfg closes closeCount remaining).Excluded := by
  cases remaining with
  | nil => exact startToppingUp_excluded closes hexclusive
  | cons id rest =>
      have hrest : rest ⊆ closes :=
        fun _ hmem => hsubset (List.mem_cons_of_mem id hmem)
      simp only [consolidateStep]
      split
      · exact startToppingUp_excluded closes hexclusive
      · split
        · exact ⟨hexclusive, hcloses, hrest⟩
        · rename_i channel hfound
          have hfree : state.beingFunded channel.id = false := by
            rw [TickInputs.channelById_id hfound]
            exact hcloses id (hsubset List.mem_cons_self)
          have hclosing : Closes state
              (state.tryCloseChannel cfg channel).2 channel.id :=
            tryCloseChannel_closes channel
          refine ⟨hclosing.exclusive hfree hexclusive, ?_, hrest⟩
          intro other hmem
          exact (hclosing.funded other).trans (hcloses other hmem)

/-- A top-up to the face value may rely on the pass for the close lease. -/
theorem topUpStep_excluded {survivors : List (ChannelEntry Id Addr)}
    (hsurvivors : ∀ channel ∈ survivors, state.beingClosed channel.id = false)
    (hexclusive : state.Exclusive) :
    (state.topUpStep cfg survivors).Excluded := by
  cases survivors with
  | nil => exact startFinalizing_excluded hexclusive
  | cons channel rest =>
      have hrest : ∀ other ∈ rest, state.beingClosed other.id = false :=
        fun other hmem => hsurvivors other (List.mem_cons_of_mem channel hmem)
      simp only [topUpStep]
      split
      · exact startFinalizing_excluded hexclusive
      · rename_i funding _
        split
        · exact ⟨hexclusive, hrest⟩
        · split
          · exact startFinalizing_excluded hexclusive
          · have hfunding : Funds state
                (spent (funding.faceValue - channel.balance)
                  (state.tryFundChannel cfg channel
                    (funding.faceValue - channel.balance))) channel.id :=
              spent_funds (tryFundChannel_funds channel _)
            constructor
            · exact hfunding.exclusive (hsurvivors channel
                List.mem_cons_self) hexclusive
            · intro other hmem
              exact (hfunding.closed other.id).trans (hrest other hmem)

theorem startClosing_excluded (hexclusive : state.Exclusive) :
    (state.startClosing cfg).Excluded := by
  unfold startClosing
  split
  · exact startConsolidation_excluded hexclusive
  · exact ⟨hexclusive, trivial⟩

/-- The close pass looks at both leases of the channel itself. -/
theorem closeStep_excluded (closeCount dispatchedThisTick : ℕ)
    (candidates : List Id) (hexclusive : state.Exclusive) :
    (state.closeStep cfg closeCount dispatchedThisTick candidates).Excluded := by
  cases candidates with
  | nil => exact startConsolidation_excluded hexclusive
  | cons id rest =>
      simp only [closeStep]
      split
      · exact startConsolidation_excluded hexclusive
      · split
        · exact ⟨hexclusive, trivial⟩
        · rename_i channel hfound
          split
          · exact ⟨hexclusive, trivial⟩
          · rename_i hfree
            split
            · exact ⟨hexclusive, trivial⟩
            · have hunfunded : state.beingFunded channel.id = false := by
                rw [Bool.or_eq_true, not_or] at hfree
                exact Bool.eq_false_of_not_eq_true hfree.2
              have hclosing : Closes state
                  (state.tryCloseChannel cfg channel).2 channel.id :=
                tryCloseChannel_closes channel
              constructor
              · exact hclosing.exclusive hunfunded hexclusive
              · cases (state.tryCloseChannel cfg channel).1 with
                | false => trivial
                | true => trivial

theorem startFunding_excluded (hexclusive : state.Exclusive) :
    (state.startFunding cfg).Excluded := by
  unfold startFunding
  dsimp only
  split
  · split
    · exact startClosing_excluded hexclusive
    · constructor
      · exact hexclusive
      · intro channel hmem
        have hfilter := (List.mem_insertionSort _).mp hmem
        have hneedy := (List.mem_filter.mp hfilter).2
        simp only [Bool.and_eq_true, Bool.not_eq_true'] at hneedy
        exact hneedy.1.1.2
  · exact startClosing_excluded hexclusive

theorem fundStep_excluded {stranded : Bool}
    {candidates : List (ChannelEntry Id Addr)}
    (hcandidates : ∀ channel ∈ candidates,
      state.beingClosed channel.id = false)
    (hexclusive : state.Exclusive) :
    (state.fundStep cfg stranded candidates).Excluded := by
  cases candidates with
  | nil => exact startClosing_excluded hexclusive
  | cons channel rest =>
      have hrest : ∀ other ∈ rest, state.beingClosed other.id = false :=
        fun other hmem => hcandidates other (List.mem_cons_of_mem channel hmem)
      simp only [fundStep]
      split
      · exact startClosing_excluded hexclusive
      · rename_i funding _
        split
        · exact ⟨hexclusive, hrest⟩
        · split
          · exact startClosing_excluded hexclusive
          · have hfunding : Funds state
                (spent (fundAmount funding state.safeRemaining)
                  (state.tryFundChannel cfg channel
                    (fundAmount funding state.safeRemaining))) channel.id :=
              spent_funds (tryFundChannel_funds channel _)
            constructor
            · exact hfunding.exclusive (hcandidates channel
                List.mem_cons_self) hexclusive
            · intro other hmem
              exact (hfunding.closed other.id).trans (hrest other hmem)

/-! ## The two top-ups -/

/-- No close lease of the channel is live when a balance decrease is answered
with a top-up, or when an open is redirected to one. -/
def Clear (cfg : ChannelLifecycleConfig) (state : LifecycleState Id Addr) :
    LifecycleAction Id Addr → Prop
  | .budget (some budget) =>
      match state.phase with
      | .decreased channel funding =>
          funding.topupBalance.isZero = false →
          funding.topupBalance ≤ budget.spendable →
          state.fundable cfg channel.id = true →
          state.beingClosed channel.id = false
      | _ => True
  | .work (some (some existing)) =>
      match state.phase, state.tick.funding with
      | .opening (_ :: _), some funding =>
          funding.initialBalance ≤ state.safeRemaining →
          state.redirected funding existing = true →
          state.fundable cfg existing.id = true →
          state.beingClosed existing.id = false
      | _, _ => True
  | _ => True

instance (action : LifecycleAction Id Addr) :
    Decidable (state.Clear cfg action) := by
  unfold Clear
  split
  · split <;> infer_instance
  · split <;> infer_instance
  · infer_instance

variable [DecidableEq Addr]

theorem openStep_excluded (reread : Option (Option (ChannelEntry Id Addr)))
    (candidates : List Addr) (hphase : state.phase = .opening candidates)
    (hclear : state.Clear cfg (.work reread)) (hexclusive : state.Exclusive) :
    (state.openStep cfg reread candidates).Excluded := by
  cases candidates with
  | nil => exact ⟨hexclusive, trivial⟩
  | cons dest rest =>
      simp only [openStep]
      split
      · exact ⟨hexclusive, trivial⟩
      · rename_i funding hfunding
        split
        · exact ⟨hexclusive, trivial⟩
        · rename_i hafford
          refine ⟨?_, trivial⟩
          refine tryOpenChannel_exclusive dest funding reread ?_ hexclusive
          intro existing hreread
          subst hreread
          simp only [Clear, hphase, hfunding] at hclear
          exact hclear (Nat.le_of_not_lt hafford)

omit [DecidableEq Addr] in
theorem startTick_excluded (inputs : TickInputs Id Addr)
    (hexclusive : state.Exclusive) :
    (state.startTick cfg inputs).Excluded := by
  unfold startTick
  apply startFunding_excluded
  refine Quieter.exclusive ⟨?_, ?_⟩ hexclusive
  · intro id hheld
    exact ActionLeases.isHeld_of_subset ActionLeases.sweep_subset hheld
  · intro id hheld
    exact ActionLeases.isHeld_of_subset ActionLeases.sweep_subset hheld

theorem work_excluded (reread : Option (Option (ChannelEntry Id Addr)))
    (hclear : state.Clear cfg (.work reread)) (hstate : state.Excluded)
    (hwork : state.work cfg reread = some after) : after.Excluded := by
  have hexclusive := hstate.exclusive
  have hpass := hstate.passClear
  unfold PassClear at hpass
  cases hphase : state.phase with
  | idle => simp [work, hphase] at hwork
  | decreased channel funding => simp [work, hphase] at hwork
  | crashed => simp [work, hphase] at hwork
  | funding stranded candidates =>
      simp only [work, hphase, Option.some.injEq] at hwork
      simp only [hphase] at hpass
      subst hwork
      exact fundStep_excluded hpass hexclusive
  | closing candidates closeCount dispatchedThisTick =>
      simp only [work, hphase, Option.some.injEq] at hwork
      subst hwork
      exact closeStep_excluded _ _ _ hexclusive
  | consolidating closes remaining closeCount =>
      simp only [work, hphase, Option.some.injEq] at hwork
      simp only [hphase] at hpass
      subst hwork
      exact consolidateStep_excluded hpass.1 hpass.2 hexclusive
  | toppingUp survivors =>
      simp only [work, hphase, Option.some.injEq] at hwork
      simp only [hphase] at hpass
      subst hwork
      exact topUpStep_excluded hpass hexclusive
  | finalizing channels finalizeCount =>
      simp only [work, hphase, Option.some.injEq] at hwork
      subst hwork
      exact finalizeStep_excluded _ _ hexclusive
  | opening candidates =>
      simp only [work, hphase, Option.some.injEq] at hwork
      subst hwork
      exact openStep_excluded reread candidates hphase hclear hexclusive

omit [DecidableEq Addr] in
theorem onBalanceDecreased_excluded (channel : ChannelEntry Id Addr)
    (hstate : state.Excluded) : (state.onBalanceDecreased channel).Excluded := by
  unfold onBalanceDecreased
  split
  · exact hstate
  · split
    · exact hstate
    · split
      · exact hstate
      · split
        · exact ⟨hstate.exclusive, trivial⟩
        · exact hstate

omit [DecidableEq Addr] in
/-- The handler of a balance decrease has looked at the fund lease only. -/
theorem onBudget_excluded {channel : ChannelEntry Id Addr}
    {funding : ResolvedFunding} {safe : Option SafeBudget}
    (hphase : state.phase = .decreased channel funding)
    (hclear : state.Clear cfg (.budget safe)) (hexclusive : state.Exclusive) :
    (state.onBudget cfg channel funding safe).Excluded := by
  unfold onBudget
  split
  · exact ⟨hexclusive, trivial⟩
  · rename_i budget
    split
    · rename_i hafford
      simp only [Bool.and_eq_true, Bool.not_eq_true', decide_eq_true_eq]
        at hafford
      simp only [Clear, hphase] at hclear
      have hafter := tryFundChannel_exclusive channel funding.topupBalance
        (hclear hafford.1 hafford.2) hexclusive
      exact ⟨hafter, trivial⟩
    · exact ⟨hexclusive, trivial⟩

theorem reported_quieter (operation : Operation Id Addr) (holder : UInt64)
    (index : ℕ) :
    Quieter state { state.reported operation holder with
      running := state.running.eraseIdx index } := by
  cases operation with
  | «open» dest amount => exact ⟨fun _ hheld => hheld, fun _ hheld => hheld⟩
  | finalize id => exact ⟨fun _ hheld => hheld, fun _ hheld => hheld⟩
  | fund id amount =>
      refine ⟨?_, fun _ hheld => hheld⟩
      intro other hheld
      exact ActionLeases.isHeld_of_subset
        (ActionLeases.releaseOwned_subset holder) hheld
  | close id =>
      refine ⟨fun _ hheld => hheld, ?_⟩
      intro other hheld
      exact ActionLeases.isHeld_of_subset
        (ActionLeases.releaseOwned_subset holder) hheld

theorem next_excluded {action : LifecycleAction Id Addr}
    (hstate : state.Excluded) (hclear : state.Clear cfg action)
    (hnext : next cfg state action = some after) : after.Excluded := by
  cases action with
  | work reread => exact work_excluded reread hclear hstate hnext
  | tick inputs =>
      simp only [next] at hnext
      split at hnext
      · cases hnext
        exact startTick_excluded inputs hstate.exclusive
      · cases hnext
  | budget safe =>
      simp only [next] at hnext
      split at hnext
      · rename_i channel funding hphase
        cases hnext
        exact onBudget_excluded hphase hclear hstate.exclusive
      · cases hnext
  | balanceDecreased channel =>
      simp only [next] at hnext
      split at hnext
      · cases hnext
        exact onBalanceDecreased_excluded channel hstate
      · cases hnext
  | report index =>
      simp only [next] at hnext
      split at hnext
      · rename_i operation holder _
        cases hnext
        refine (reported_quieter operation holder index).excluded ?_ hstate
        cases operation <;> rfl
      · cases hnext
  | pass now =>
      simp only [next] at hnext
      split at hnext
      · rename_i hle
        cases hnext
        have hquiet : Quieter state { state with now := now } :=
          ⟨fun _ hheld => ActionLeases.isHeld_mono hle hheld,
            fun _ hheld => ActionLeases.isHeld_mono hle hheld⟩
        exact hquiet.excluded rfl hstate
      · cases hnext
  | balanceIncreased id =>
      simp only [next] at hnext
      split at hnext
      · cases hnext
        have hquiet : Quieter state { state with
            fundInFlight := state.fundInFlight.release id } :=
          ⟨fun _ hheld => ActionLeases.isHeld_of_subset
              ActionLeases.release_subset hheld,
            fun _ hheld => hheld⟩
        exact hquiet.excluded rfl hstate
      · cases hnext
  | closureInitiated id =>
      simp only [next] at hnext
      split at hnext
      · cases hnext
        have hquiet : Quieter state { state with
            closeInFlight := state.closeInFlight.release id } :=
          ⟨fun _ hheld => hheld,
            fun _ hheld => ActionLeases.isHeld_of_subset
              ActionLeases.release_subset hheld⟩
        exact hquiet.excluded rfl hstate
      · cases hnext
  | channelOpened destination =>
      simp only [next] at hnext
      split at hnext
      · cases hnext
        have hquiet : Quieter state { state with
            openInFlight := state.openInFlight.release destination } :=
          ⟨fun _ hheld => hheld, fun _ hheld => hheld⟩
        exact hquiet.excluded rfl hstate
      · cases hnext
  | channelClosed id =>
      simp only [next] at hnext
      split at hnext
      · cases hnext
        have hquiet : Quieter state { state with
            finalizeInFlight := state.finalizeInFlight.release id } :=
          ⟨fun _ hheld => hheld, fun _ hheld => hheld⟩
        exact hquiet.excluded rfl hstate
      · cases hnext

/-- While the two top-ups meet no live close lease, no channel holds a live
fund lease and a live close lease. -/
theorem fundingExcludesClosing (cfg : ChannelLifecycleConfig)
    {state : LifecycleState Id Addr}
    (hreach : (channelLifecycle cfg).ReachableWithin (Clear cfg) state)
    (id : Id) :
    ¬ (state.fundInFlight.isHeld state.now id = true ∧
      state.closeInFlight.isHeld state.now id = true) := by
  have hexcluded : state.Excluded := by
    refine hreach.invariant ?_ ?_
    · intro start hinit
      cases hinit
      refine ⟨?_, trivial⟩
      intro other hheld
      cases hheld
    · intro before action after hbefore hclear hnext
      exact next_excluded hbefore hclear hnext
  intro hboth
  have hclosed := hexcluded.exclusive id hboth.1
  exact Bool.false_ne_true (hclosed.symm.trans hboth.2)

/-- A well-funded channel which the selector wants closed. -/
def rankedInputs : TickInputs ℕ ℕ :=
  { lifecycleInputs with
    channels := [⟨1, 7, .saturating 100, .open⟩,
      ⟨2, 8, .saturating 100, .open⟩]
    funding := some ⟨.saturating 10, .saturating 10, .saturating 5,
      .saturating 3⟩
    safe := some ⟨.saturating 50, .saturating 50⟩
    startupPhase := .expired
    closesRanked := [1] }

/-- Channel 1 is closed and one to 11 is wanted. -/
def wantedInputs : TickInputs ℕ ℕ :=
  { rankedInputs with
    peerMapKnown := true
    opensRanked := [11] }

def wantingConfig : ChannelLifecycleConfig :=
  { sampleConfig with targetOpenChannels := 3 }

/-- While the closure of channel 1 is on its way, an open finds that its
channel exists by now and needs a top-up, and the balance of channel 2
decreases. -/
def wantedRun : List (LifecycleAction ℕ ℕ) :=
  [.tick wantedInputs, .work none, .work none, .work none,
    .work (some (some ⟨4, 11, .saturating 2, .open⟩)), .work none,
    .balanceDecreased ⟨2, 8, .saturating 2, .open⟩,
    .budget (some ⟨.saturating 50, .saturating 50⟩)]

theorem fundingExcludesClosing_wanted :
    ∃ state : LifecycleState ℕ ℕ,
      state.closeInFlight.isHeld state.now 1 = true ∧
      state.fundInFlight.isHeld state.now 2 = true ∧
      state.fundInFlight.isHeld state.now 4 = true ∧
      ∀ id, ¬ (state.fundInFlight.isHeld state.now id = true ∧
        state.closeInFlight.isHeld state.now id = true) := by
  have hinit : (channelLifecycle wantingConfig).ReachableWithin
      (Clear wantingConfig) (.initial : LifecycleState ℕ ℕ) := .init rfl
  have hclear : (channelLifecycle wantingConfig).Throughout
      (fun before action _ => Clear wantingConfig before action)
      LifecycleState.initial wantedRun := by decide
  have hreach := hinit.throughout hclear rfl
  exact ⟨_, rfl, rfl, rfl, fundingExcludesClosing wantingConfig hreach⟩

/-- The channel drains while its closure is on the way, and is topped up. -/
theorem fundingExcludesClosing_not_always :
    ¬ ∀ (cfg : ChannelLifecycleConfig) (state : LifecycleState ℕ ℕ),
      (channelLifecycle cfg).Reachable state →
      ∀ id, ¬ (state.fundInFlight.isHeld state.now id = true ∧
        state.closeInFlight.isHeld state.now id = true) := by
  intro halways
  have hinit : (channelLifecycle sampleConfig).Reachable
      (LifecycleState.initial : LifecycleState ℕ ℕ) := .init rfl
  have hreach := hinit.run
    [.tick rankedInputs, .work none, .work none, .work none,
      .balanceDecreased ⟨1, 7, .saturating 2, .open⟩,
      .budget (some ⟨.saturating 50, .saturating 50⟩)] rfl
  exact halways sampleConfig _ hreach 1 ⟨rfl, rfl⟩

end LifecycleState

end HoprStrategy.ChannelLifecycle
