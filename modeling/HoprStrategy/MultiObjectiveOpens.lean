import HoprStrategy.Selector
import Mathlib.Data.Finset.Card
import Mathlib.Data.Finset.Dedup

/-!
# Opens of the multi-objective selector

Candidates come in two tiers, the relay-capable peers before the ticket sinks.
Each tier is ranked, then swept once for the known cells below the floor, and
the places which are left go to the best of the rest.  Both tiers share the
picks and the counts of the cells.
-/

namespace HoprStrategy.ChannelLifecycle.MultiObjective

/-- The log line of a pick: the fill-k sweep and the utility ranking write
different ones. -/
inductive OpenLine (Addr Key : Type) where
  | fillK (candidate : OpenCandidate Addr Key)
  | utility (candidate : OpenCandidate Addr Key)

def OpenLine.candidate {Addr Key : Type} :
    OpenLine Addr Key → OpenCandidate Addr Key
  | .fillK candidate => candidate
  | .utility candidate => candidate

/-- What both tiers share: `result`, `picked` and `fill_counts`, and the lines
which were logged. -/
structure OpenPicks (Addr Key : Type) where
  result : List (Addr × Key)
  picked : Finset Addr
  fillCounts : BucketCell → ℕ
  log : List (OpenLine Addr Key)

namespace OpenPicks

variable {Addr Key : Type}

def empty : OpenPicks Addr Key := ⟨[], ∅, fun _ => 0, []⟩

def pick [DecidableEq Addr] (picks : OpenPicks Addr Key)
    (line : OpenLine Addr Key) : OpenPicks Addr Key :=
  { picks with
    log := picks.log ++ [line]
    picked := insert line.candidate.addr picks.picked
    result := picks.result ++
      [(line.candidate.addr, line.candidate.offchainKey)] }

def countCell (picks : OpenPicks Addr Key) (cell : BucketCell) :
    OpenPicks Addr Key :=
  { picks with
    fillCounts :=
      Function.update picks.fillCounts cell (picks.fillCounts cell + 1) }

end OpenPicks

section

variable {Id Addr Key : Type} [DecidableEq Id] [DecidableEq Addr]
  (cfg : MultiObjectiveSelectorConfig) (ctx : SelectorContext Id Addr Key)

/-- The best candidate of a cell which is not picked yet. -/
def firstOfCell (scored : List (OpenCandidate Addr Key))
    (picks : OpenPicks Addr Key) (cell : BucketCell) :
    Option (OpenCandidate Addr Key) :=
  scored.find? fun candidate =>
    candidate.addr ∉ picks.picked && candidate.cell = cell

/-- The fill-k sweep. -/
def fillFloor (limit : ℕ) (scored : List (OpenCandidate Addr Key))
    (attempted : Finset BucketCell) (picks : OpenPicks Addr Key) :
    List (OpenCandidate Addr Key) → OpenPicks Addr Key
  | [] => picks
  | candidate :: rest =>
      if limit ≤ picks.result.length then picks
      else if candidate.subnet = .unknown then
        fillFloor limit scored attempted picks rest
      else if candidate.cell ∈ attempted then
        fillFloor limit scored attempted picks rest
      else
        let attempted := insert candidate.cell attempted
        if ctx.bucketView.cellCount candidate.cell +
            picks.fillCounts candidate.cell < cfg.kFloor then
          match firstOfCell scored picks candidate.cell with
          | some best =>
              fillFloor limit scored attempted
                ((picks.pick (.fillK best)).countCell candidate.cell) rest
          | none => fillFloor limit scored attempted picks rest
        else fillFloor limit scored attempted picks rest

/-- The utility ranking. -/
def fillUtility (limit : ℕ) (picks : OpenPicks Addr Key) :
    List (OpenCandidate Addr Key) → OpenPicks Addr Key
  | [] => picks
  | candidate :: rest =>
      if limit ≤ picks.result.length then picks
      else if candidate.addr ∈ picks.picked then
        fillUtility limit picks rest
      else
        let picks := picks.pick (.utility candidate)
        if candidate.subnet = .unknown then fillUtility limit picks rest
        else fillUtility limit (picks.countCell candidate.cell) rest

/-- By descending score. -/
def rankedOpens (tier : List (OpenCandidate Addr Key)) :
    List (OpenCandidate Addr Key) :=
  tier.insertionSort fun left right =>
    finalScoreOpen cfg ctx right ≤ finalScoreOpen cfg ctx left

def fillOpens (tier : List (OpenCandidate Addr Key)) (limit : ℕ)
    (picks : OpenPicks Addr Key) : OpenPicks Addr Key :=
  if tier.isEmpty || limit ≤ picks.result.length then picks
  else
    let scored := rankedOpens cfg ctx tier
    let filled :=
      if 0 < cfg.kFloor then fillFloor cfg ctx limit scored ∅ picks scored
      else picks
    fillUtility limit filled scored

def openLimit : ℕ := min cfg.openPerTick ctx.deficit

/-- The picks of a tick, with their log. -/
def openPicks : OpenPicks Addr Key :=
  let tiers := partitionByForwarding ctx
  let picks := fillOpens cfg ctx tiers.1 (openLimit cfg ctx) .empty
  if picks.result.length < openLimit cfg ctx then
    fillOpens cfg ctx tiers.2 (openLimit cfg ctx) picks
  else picks

def selectOpens : List (Addr × Key) := (openPicks cfg ctx).result

end

/-! ## What the picks satisfy -/

section

variable {Addr Key : Type}

/-- The picks go on with candidates of the list. -/
def PicksFrom (candidates : List (OpenCandidate Addr Key))
    (picks next : OpenPicks Addr Key) : Prop :=
  ∃ lines, next.log = picks.log ++ lines ∧
    ∀ line ∈ lines, line.candidate ∈ candidates

theorem isKnown_iff (candidate : OpenCandidate Addr Key) :
    candidate.cell.isKnown = true ↔ candidate.subnet ≠ .unknown :=
  decide_eq_true_iff

theorem PicksFrom.refl (candidates : List (OpenCandidate Addr Key))
    (picks : OpenPicks Addr Key) : PicksFrom candidates picks picks :=
  ⟨[], by simp, by simp⟩

theorem PicksFrom.trans {candidates : List (OpenCandidate Addr Key)}
    {first second third : OpenPicks Addr Key}
    (hfirst : PicksFrom candidates first second)
    (hsecond : PicksFrom candidates second third) :
    PicksFrom candidates first third := by
  obtain ⟨lines, hlog, hlines⟩ := hfirst
  obtain ⟨more, hmore, hall⟩ := hsecond
  refine ⟨lines ++ more, by rw [hmore, hlog, List.append_assoc], ?_⟩
  intro line hline
  rcases List.mem_append.mp hline with hline | hline
  · exact hlines line hline
  · exact hall line hline

theorem PicksFrom.mono {candidates more : List (OpenCandidate Addr Key)}
    {picks next : OpenPicks Addr Key} (hsubset : candidates ⊆ more)
    (hfrom : PicksFrom candidates picks next) : PicksFrom more picks next := by
  obtain ⟨lines, hlog, hlines⟩ := hfrom
  exact ⟨lines, hlog, fun line hline => hsubset (hlines line hline)⟩

end

section

variable {Id Addr Key : Type} [DecidableEq Id] [DecidableEq Addr]
  (cfg : MultiObjectiveSelectorConfig) (ctx : SelectorContext Id Addr Key)

/-- The picks of a known cell among the lines. -/
def pickedInto (cell : BucketCell) (log : List (OpenLine Addr Key)) : ℕ :=
  log.countP fun line => line.candidate.cell = cell

/-- The fill-k sweep picks into a known cell which is below the floor. -/
def BelowFloor (before : List (OpenLine Addr Key)) :
    OpenLine Addr Key → Prop
  | .fillK candidate => candidate.cell.isKnown = true ∧
      ctx.bucketView.cellCount candidate.cell +
        pickedInto candidate.cell before < cfg.kFloor
  | .utility _ => True

/-- What every pick keeps true of the shared state. -/
structure PicksInvariant (limit : ℕ) (picks : OpenPicks Addr Key) : Prop where
  listed : picks.result =
    picks.log.map fun line => (line.candidate.addr, line.candidate.offchainKey)
  taken : picks.picked = (picks.log.map (·.candidate.addr)).toFinset
  distinct : (picks.log.map (·.candidate.addr)).Nodup
  counted : ∀ cell : BucketCell, cell.isKnown = true →
    picks.fillCounts cell = pickedInto cell picks.log
  withinLimit : picks.log.length ≤ limit
  belowFloor : ∀ before line after, picks.log = before ++ line :: after →
    BelowFloor cfg ctx before line

variable {cfg ctx} {limit : ℕ} {picks : OpenPicks Addr Key}

namespace PicksInvariant

variable (cfg ctx limit) in
theorem empty : PicksInvariant cfg ctx limit .empty where
  listed := rfl
  taken := rfl
  distinct := List.nodup_nil
  counted := fun _ _ => rfl
  withinLimit := Nat.zero_le limit
  belowFloor := by
    intro before line after hlog
    cases before <;> cases hlog

variable (hpicks : PicksInvariant cfg ctx limit picks)

include hpicks

theorem length_result : picks.result.length = picks.log.length := by
  rw [hpicks.listed, List.length_map]

theorem mem_picked {addr : Addr} :
    addr ∈ picks.picked ↔ addr ∈ picks.log.map (·.candidate.addr) := by
  rw [hpicks.taken, List.mem_toFinset]

/-- A pick counted against its cell, which an unknown cell need not be. -/
theorem pick {line : OpenLine Addr Key} {next : OpenPicks Addr Key}
    (hplace : picks.result.length < limit)
    (hfresh : line.candidate.addr ∉ picks.picked)
    (hfloor : BelowFloor cfg ctx picks.log line)
    (hlog : next.log = picks.log ++ [line])
    (hpicked : next.picked = insert line.candidate.addr picks.picked)
    (hresult : next.result = picks.result ++
      [(line.candidate.addr, line.candidate.offchainKey)])
    (hcounts : ∀ cell : BucketCell, cell.isKnown = true →
      next.fillCounts cell = picks.fillCounts cell +
        if line.candidate.cell = cell then 1 else 0) :
    PicksInvariant cfg ctx limit next where
  listed := by
    rw [hresult, hlog, hpicks.listed, List.map_append, List.map_singleton]
  taken := by
    rw [hpicked, hlog, hpicks.taken, List.map_append, List.toFinset_append,
      Finset.union_comm]
    rfl
  distinct := by
    rw [hpicks.mem_picked] at hfresh
    rw [hlog, List.map_append]
    apply hpicks.distinct.append (List.nodup_singleton _)
    intro addr haddr hline
    rw [List.mem_singleton.mp hline] at haddr
    exact hfresh haddr
  counted := by
    intro cell hknown
    rw [hcounts cell hknown, hpicks.counted cell hknown, hlog, pickedInto,
      pickedInto, List.countP_append, List.countP_singleton]
    simp
  withinLimit := by
    rw [hpicks.length_result] at hplace
    rw [hlog, List.length_append, List.length_singleton]
    exact hplace
  belowFloor := by
    intro before other after hsplit
    rw [hlog] at hsplit
    rcases List.eq_nil_or_concat after with hlast | ⟨front, last, hfront⟩
    · rw [hlast] at hsplit
      obtain ⟨hbefore, hline⟩ := List.append_inj' hsplit rfl
      rw [← hbefore, ← List.singleton_injective hline]
      exact hfloor
    · rw [hfront, List.concat_eq_append, ← List.cons_append,
        ← List.append_assoc] at hsplit
      exact hpicks.belowFloor before other front
        (List.append_inj' hsplit rfl).1

theorem pick_known (line : OpenLine Addr Key)
    (hplace : picks.result.length < limit)
    (hfresh : line.candidate.addr ∉ picks.picked)
    (hfloor : BelowFloor cfg ctx picks.log line) :
    PicksInvariant cfg ctx limit
      ((picks.pick line).countCell line.candidate.cell) := by
  apply hpicks.pick hplace hfresh hfloor rfl rfl rfl
  intro cell hknown
  by_cases hcell : line.candidate.cell = cell
  · simp [OpenPicks.countCell, OpenPicks.pick, hcell]
  · simp [OpenPicks.countCell, OpenPicks.pick, hcell, Ne.symm hcell]

theorem pick_unknown (line : OpenLine Addr Key)
    (hplace : picks.result.length < limit)
    (hfresh : line.candidate.addr ∉ picks.picked)
    (hfloor : BelowFloor cfg ctx picks.log line)
    (hsubnet : line.candidate.subnet = .unknown) :
    PicksInvariant cfg ctx limit (picks.pick line) := by
  apply hpicks.pick hplace hfresh hfloor rfl rfl rfl
  intro cell hknown
  have hcell : line.candidate.cell ≠ cell := by
    intro hcell
    rw [← hcell, isKnown_iff] at hknown
    exact hknown hsubnet
  simp [OpenPicks.pick, hcell]

theorem picked_of_pickedBefore {next : OpenPicks Addr Key}
    {candidates : List (OpenCandidate Addr Key)} {addr : Addr}
    (hnext : PicksInvariant cfg ctx limit next)
    (hfrom : PicksFrom candidates picks next) (haddr : addr ∈ picks.picked) :
    addr ∈ next.picked := by
  obtain ⟨lines, hlog, -⟩ := hfrom
  rw [hpicks.mem_picked] at haddr
  rw [hnext.mem_picked, hlog, List.map_append]
  exact List.mem_append_left _ haddr

end PicksInvariant

/-! ## One tier -/

theorem firstOfCell_eq_some {scored : List (OpenCandidate Addr Key)}
    {cell : BucketCell} {best : OpenCandidate Addr Key}
    (hbest : firstOfCell scored picks cell = some best) :
    best ∈ scored ∧ best.addr ∉ picks.picked ∧ best.cell = cell := by
  have hfound := List.find?_some hbest
  simp only [Bool.and_eq_true, decide_eq_true_eq] at hfound
  exact ⟨List.mem_of_find?_eq_some hbest, hfound.1, hfound.2⟩

theorem fillFloor_picks (scored : List (OpenCandidate Addr Key))
    (candidates : List (OpenCandidate Addr Key))
    (attempted : Finset BucketCell)
    (hpicks : PicksInvariant cfg ctx limit picks) :
    PicksInvariant cfg ctx limit
        (fillFloor cfg ctx limit scored attempted picks candidates) ∧
      PicksFrom scored picks
        (fillFloor cfg ctx limit scored attempted picks candidates) := by
  induction candidates generalizing attempted picks with
  | nil => exact ⟨hpicks, PicksFrom.refl scored picks⟩
  | cons candidate rest ih =>
      rw [fillFloor]
      by_cases hplace : limit ≤ picks.result.length
      · rw [if_pos hplace]
        exact ⟨hpicks, PicksFrom.refl scored picks⟩
      · rw [if_neg hplace]
        by_cases hsubnet : candidate.subnet = .unknown
        · rw [if_pos hsubnet]
          exact ih attempted hpicks
        · rw [if_neg hsubnet]
          by_cases hattempted : candidate.cell ∈ attempted
          · rw [if_pos hattempted]
            exact ih attempted hpicks
          · rw [if_neg hattempted]
            simp only
            split
            · next hbelow =>
                cases hfirst : firstOfCell scored picks candidate.cell with
                | none => exact ih _ hpicks
                | some best =>
                    obtain ⟨hmem, hfresh, hcell⟩ := firstOfCell_eq_some hfirst
                    have hknown := (isKnown_iff candidate).mpr hsubnet
                    have hfloor : BelowFloor cfg ctx picks.log
                        (.fillK best) := by
                      rw [BelowFloor, hcell, ← hpicks.counted _ hknown]
                      exact ⟨hknown, hbelow⟩
                    have hnext := hpicks.pick_known (.fillK best)
                      (Nat.lt_of_not_le hplace) hfresh hfloor
                    rw [OpenLine.candidate, hcell] at hnext
                    obtain ⟨hafter, hfrom⟩ :=
                      ih (insert candidate.cell attempted) hnext
                    refine ⟨hafter, PicksFrom.trans ⟨[.fillK best], rfl, ?_⟩
                      hfrom⟩
                    intro line hline
                    rw [List.mem_singleton.mp hline]
                    exact hmem
            · exact ih _ hpicks

/-- A tier adds candidates of its own, and stops only at the limit. -/
structure TierFilled (cfg : MultiObjectiveSelectorConfig)
    (ctx : SelectorContext Id Addr Key) (limit : ℕ)
    (tier : List (OpenCandidate Addr Key)) (picks next : OpenPicks Addr Key) :
    Prop where
  invariant : PicksInvariant cfg ctx limit next
  fromTier : PicksFrom tier picks next
  exhausted : limit ≤ next.result.length ∨
    ∀ candidate ∈ tier, candidate.addr ∈ next.picked

theorem TierFilled.cons {candidate : OpenCandidate Addr Key}
    {rest : List (OpenCandidate Addr Key)} {next : OpenPicks Addr Key}
    (hrest : TierFilled cfg ctx limit rest picks next)
    (hpicks : PicksInvariant cfg ctx limit picks)
    (hpicked : candidate.addr ∈ picks.picked) :
    TierFilled cfg ctx limit (candidate :: rest) picks next where
  invariant := hrest.invariant
  fromTier := hrest.fromTier.mono (List.subset_cons_self _ _)
  exhausted := by
    rcases hrest.exhausted with hfull | hall
    · exact Or.inl hfull
    · right
      intro other hother
      rcases List.mem_cons.mp hother with hsame | hother
      · rw [hsame]
        exact hpicks.picked_of_pickedBefore hrest.invariant hrest.fromTier
          hpicked
      · exact hall other hother

theorem TierFilled.of_pick {candidate : OpenCandidate Addr Key}
    {rest : List (OpenCandidate Addr Key)}
    {middle next : OpenPicks Addr Key}
    (hrest : TierFilled cfg ctx limit (candidate :: rest) middle next)
    (hlog : middle.log = picks.log ++ [.utility candidate]) :
    TierFilled cfg ctx limit (candidate :: rest) picks next where
  invariant := hrest.invariant
  fromTier := by
    refine PicksFrom.trans ⟨[.utility candidate], hlog, ?_⟩ hrest.fromTier
    intro line hline
    rw [List.mem_singleton.mp hline]
    exact List.mem_cons_self
  exhausted := hrest.exhausted

theorem fillUtility_fills (candidates : List (OpenCandidate Addr Key))
    (hpicks : PicksInvariant cfg ctx limit picks) :
    TierFilled cfg ctx limit candidates picks
      (fillUtility limit picks candidates) := by
  induction candidates generalizing picks with
  | nil => exact ⟨hpicks, PicksFrom.refl [] picks, Or.inr (by simp)⟩
  | cons candidate rest ih =>
      rw [fillUtility]
      by_cases hplace : limit ≤ picks.result.length
      · rw [if_pos hplace]
        exact ⟨hpicks, PicksFrom.refl _ picks, Or.inl hplace⟩
      · rw [if_neg hplace]
        by_cases hpicked : candidate.addr ∈ picks.picked
        · rw [if_pos hpicked]
          exact (ih hpicks).cons hpicks hpicked
        · rw [if_neg hpicked]
          have hroom := Nat.lt_of_not_le hplace
          have hmem : candidate.addr ∈
              (picks.pick (.utility candidate)).picked :=
            Finset.mem_insert_self _ _
          by_cases hsubnet : candidate.subnet = .unknown
          · have hnext := hpicks.pick_unknown (.utility candidate)
              hroom hpicked trivial hsubnet
            simp only [if_pos hsubnet]
            exact ((ih hnext).cons hnext hmem).of_pick rfl
          · have hnext := hpicks.pick_known (.utility candidate)
              hroom hpicked trivial
            simp only [if_neg hsubnet]
            exact ((ih hnext).cons hnext hmem).of_pick rfl

theorem fillOpens_fills (tier : List (OpenCandidate Addr Key))
    (hpicks : PicksInvariant cfg ctx limit picks) :
    TierFilled cfg ctx limit tier picks
      (fillOpens cfg ctx tier limit picks) := by
  have hranked : (rankedOpens cfg ctx tier).Perm tier :=
    List.perm_insertionSort _ tier
  unfold fillOpens
  split
  · next hdone =>
      refine ⟨hpicks, PicksFrom.refl tier picks, ?_⟩
      rcases (Bool.or_eq_true _ _).mp hdone with hempty | hfull
      · right
        rw [List.isEmpty_iff.mp hempty]
        simp
      · exact Or.inl (of_decide_eq_true hfull)
  · simp only
    have hswept : PicksInvariant cfg ctx limit
          (if 0 < cfg.kFloor then
            fillFloor cfg ctx limit (rankedOpens cfg ctx tier) ∅ picks
              (rankedOpens cfg ctx tier)
          else picks) ∧
        PicksFrom (rankedOpens cfg ctx tier) picks
          (if 0 < cfg.kFloor then
            fillFloor cfg ctx limit (rankedOpens cfg ctx tier) ∅ picks
              (rankedOpens cfg ctx tier)
          else picks) := by
      split
      · exact fillFloor_picks _ _ ∅ hpicks
      · exact ⟨hpicks, PicksFrom.refl _ picks⟩
    have hfilled := fillUtility_fills (rankedOpens cfg ctx tier) hswept.1
    refine ⟨hfilled.invariant,
      (hswept.2.trans hfilled.fromTier).mono hranked.subset, ?_⟩
    rcases hfilled.exhausted with hfull | hall
    · exact Or.inl hfull
    · right
      intro candidate hcandidate
      exact hall candidate (hranked.mem_iff.mpr hcandidate)

/-! ## Both tiers -/

omit [DecidableEq Addr] in
theorem mem_partitionByForwarding {candidate : OpenCandidate Addr Key} :
    candidate ∈ ctx.openCandidates ↔
      candidate ∈ (partitionByForwarding ctx).1 ∨
        candidate ∈ (partitionByForwarding ctx).2 := by
  unfold partitionByForwarding
  split
  · simp
  · simp only [List.partition_eq_filter_filter, List.mem_filter,
      Function.comp_apply]
    cases hforwards : forwards ctx candidate <;> simp

omit [DecidableEq Addr] in
/-- A peer is relay-capable or a sink by its address alone. -/
theorem addr_ne_of_tiers {capable sink : OpenCandidate Addr Key}
    (hcapable : capable ∈ (partitionByForwarding ctx).1)
    (hsink : sink ∈ (partitionByForwarding ctx).2) :
    capable.addr ≠ sink.addr := by
  intro haddr
  unfold partitionByForwarding at hcapable hsink
  split at hcapable
  · next hoff =>
      rw [if_pos hoff] at hsink
      cases hsink
  · next hon =>
      rw [if_neg hon] at hsink
      simp only [List.partition_eq_filter_filter, List.mem_filter,
        Function.comp_apply] at hcapable hsink
      have hsame : forwards ctx capable = forwards ctx sink := by
        rw [forwards, forwards, haddr]
      rw [← hsame, hcapable.2] at hsink
      cases hsink.2

variable (cfg ctx) in
/-- The capable tier, and the sinks when it left places. -/
theorem openPicks_tiers :
    ∃ capable, TierFilled cfg ctx (openLimit cfg ctx)
        (partitionByForwarding ctx).1 .empty capable ∧
      (openPicks cfg ctx = capable ∧
          openLimit cfg ctx ≤ capable.result.length ∨
        TierFilled cfg ctx (openLimit cfg ctx) (partitionByForwarding ctx).2
            capable (openPicks cfg ctx) ∧
          capable.result.length < openLimit cfg ctx) := by
  have hcapable := fillOpens_fills (partitionByForwarding ctx).1
    (PicksInvariant.empty cfg ctx (openLimit cfg ctx))
  refine ⟨_, hcapable, ?_⟩
  unfold openPicks
  simp only
  split
  · next hroom =>
      exact Or.inr ⟨fillOpens_fills _ hcapable.invariant, hroom⟩
  · next hfull => exact Or.inl ⟨rfl, Nat.le_of_not_lt hfull⟩

variable (cfg ctx) in
theorem openPicks_invariant :
    PicksInvariant cfg ctx (openLimit cfg ctx) (openPicks cfg ctx) := by
  obtain ⟨capable, hcapable, ⟨hsame, -⟩ | ⟨hsinks, -⟩⟩ := openPicks_tiers cfg ctx
  · rw [hsame]
    exact hcapable.invariant
  · exact hsinks.invariant

variable (cfg ctx) in
theorem openPicks_from :
    PicksFrom ctx.openCandidates .empty (openPicks cfg ctx) := by
  have hcapableMem : (partitionByForwarding ctx).1 ⊆ ctx.openCandidates :=
    fun _ hmem => mem_partitionByForwarding.mpr (Or.inl hmem)
  have hsinkMem : (partitionByForwarding ctx).2 ⊆ ctx.openCandidates :=
    fun _ hmem => mem_partitionByForwarding.mpr (Or.inr hmem)
  obtain ⟨capable, hcapable, ⟨hsame, -⟩ | ⟨hsinks, -⟩⟩ := openPicks_tiers cfg ctx
  · rw [hsame]
    exact hcapable.fromTier.mono hcapableMem
  · exact (hcapable.fromTier.mono hcapableMem).trans
      (hsinks.fromTier.mono hsinkMem)

variable (cfg ctx) in
theorem openPicks_exhausted :
    openLimit cfg ctx ≤ (openPicks cfg ctx).result.length ∨
      ∀ candidate ∈ ctx.openCandidates,
        candidate.addr ∈ (openPicks cfg ctx).picked := by
  obtain ⟨capable, hcapable, ⟨hsame, hfull⟩ | ⟨hsinks, hroom⟩⟩ :=
    openPicks_tiers cfg ctx
  · left
    rw [hsame]
    exact hfull
  · rcases hsinks.exhausted with hfull | hall
    · exact Or.inl hfull
    · right
      intro candidate hcandidate
      rcases mem_partitionByForwarding.mp hcandidate with hmem | hmem
      · rcases hcapable.exhausted with hfull | hpicked
        · omega
        · exact hcapable.invariant.picked_of_pickedBefore hsinks.invariant
            hsinks.fromTier (hpicked candidate hmem)
      · exact hall candidate hmem

/-! ## The opens of a tick -/

variable (cfg ctx) in
theorem selectOpens_addrs :
    (selectOpens cfg ctx).map Prod.fst =
      (openPicks cfg ctx).log.map (·.candidate.addr) := by
  rw [selectOpens, (openPicks_invariant cfg ctx).listed, List.map_map]
  rfl

variable (cfg ctx) in
theorem selectOpens_length :
    (selectOpens cfg ctx).length =
      min (min cfg.openPerTick ctx.deficit)
        (ctx.openCandidates.map (·.addr)).toFinset.card := by
  have hinvariant := openPicks_invariant cfg ctx
  have hcard : (selectOpens cfg ctx).length =
      (openPicks cfg ctx).picked.card := by
    rw [hinvariant.taken, List.toFinset_card_of_nodup hinvariant.distinct,
      List.length_map]
    exact hinvariant.length_result
  have hlimit : (selectOpens cfg ctx).length ≤ openLimit cfg ctx := by
    rw [selectOpens, hinvariant.length_result]
    exact hinvariant.withinLimit
  have hsubset : (openPicks cfg ctx).picked ⊆
      (ctx.openCandidates.map (·.addr)).toFinset := by
    intro addr haddr
    obtain ⟨line, hline, hsame⟩ :=
      List.mem_map.mp (hinvariant.mem_picked.mp haddr)
    obtain ⟨lines, hlog, hlines⟩ := openPicks_from cfg ctx
    rw [hlog, OpenPicks.empty, List.nil_append] at hline
    rw [List.mem_toFinset, ← hsame]
    exact List.mem_map_of_mem (hlines line hline)
  have hle := Finset.card_le_card hsubset
  rcases openPicks_exhausted cfg ctx with hfull | hall
  · have hsame : (selectOpens cfg ctx).length = openLimit cfg ctx :=
      le_antisymm hlimit hfull
    rw [hsame, openLimit] at hcard
    rw [hsame, openLimit]
    omega
  · have hsuperset : (ctx.openCandidates.map (·.addr)).toFinset ⊆
        (openPicks cfg ctx).picked := by
      intro addr haddr
      obtain ⟨candidate, hcandidate, hsame⟩ :=
        List.mem_map.mp (List.mem_toFinset.mp haddr)
      rw [← hsame]
      exact hall candidate hcandidate
    have hge := Finset.card_le_card hsuperset
    rw [openLimit] at hlimit
    omega

/-- The lines of a tier which was filled first are of that tier. -/
theorem TierFilled.mem_log {tier : List (OpenCandidate Addr Key)}
    {next : OpenPicks Addr Key}
    (hfilled : TierFilled cfg ctx limit tier .empty next)
    {line : OpenLine Addr Key} (hline : line ∈ next.log) :
    line.candidate ∈ tier := by
  obtain ⟨lines, hlog, hlines⟩ := hfilled.fromTier
  rw [hlog, OpenPicks.empty, List.nil_append] at hline
  exact hlines line hline

/-- By the first sink every relay-capable candidate has been picked. -/
theorem capable_before_sink {before after : List (OpenLine Addr Key)}
    {line : OpenLine Addr Key}
    (hlog : (openPicks cfg ctx).log = before ++ line :: after)
    (hsink : line.candidate ∈ (partitionByForwarding ctx).2)
    {candidate : OpenCandidate Addr Key}
    (hcandidate : candidate ∈ (partitionByForwarding ctx).1) :
    candidate.addr ∈ before.map (·.candidate.addr) := by
  obtain ⟨capable, hcapable, ⟨hsame, -⟩ | ⟨hsinks, hroom⟩⟩ :=
    openPicks_tiers cfg ctx
  · have hline : line ∈ capable.log := by
      rw [← hsame, hlog]
      exact List.mem_append_right _ List.mem_cons_self
    exact absurd rfl (addr_ne_of_tiers (hcapable.mem_log hline) hsink)
  · have hnotCapable : line ∉ capable.log := by
      intro hline
      exact addr_ne_of_tiers (hcapable.mem_log hline) hsink rfl
    have hpicked : candidate.addr ∈ capable.log.map (·.candidate.addr) := by
      rcases hcapable.exhausted with hfull | hall
      · omega
      · exact hcapable.invariant.mem_picked.mp (hall candidate hcandidate)
    obtain ⟨lines, hlines, -⟩ := hsinks.fromTier
    rw [hlog] at hlines
    have hbefore : capable.log <+: before := by
      rcases List.append_eq_append_iff.mp hlines with
        ⟨front, hfront, hrest⟩ | ⟨middle, hmiddle, -⟩
      · cases front with
        | nil =>
            rw [hfront, List.append_nil]
        | cons first others =>
            rw [List.cons_append] at hrest
            have hfirst := (List.cons.inj hrest).1
            rw [hfront, ← hfirst] at hnotCapable
            simp at hnotCapable
      · rw [hmiddle]
        exact List.prefix_append _ _
    exact (hbefore.map _).subset hpicked

variable (cfg ctx) in
/-- The opens are as many as the budget, the deficit and the addresses allow;
the sinks come after every relay-capable candidate, and the fill-k sweep never
picks into a cell which has reached the floor. -/
theorem selectOpens_exact :
    (selectOpens cfg ctx).length =
        min (min cfg.openPerTick ctx.deficit)
          (ctx.openCandidates.map (·.addr)).toFinset.card ∧
      ((selectOpens cfg ctx).map Prod.fst).Nodup ∧
      selectOpens cfg ctx = (openPicks cfg ctx).log.map (fun line =>
        (line.candidate.addr, line.candidate.offchainKey)) ∧
      (∀ line ∈ (openPicks cfg ctx).log,
        line.candidate ∈ ctx.openCandidates) ∧
      ∀ before line after, (openPicks cfg ctx).log = before ++ line :: after →
        BelowFloor cfg ctx before line ∧
          (line.candidate ∈ (partitionByForwarding ctx).2 →
            (∀ capable ∈ (partitionByForwarding ctx).1,
              capable.addr ∈ before.map (·.candidate.addr)) ∧
            ∀ later ∈ after,
              later.candidate ∉ (partitionByForwarding ctx).1) := by
  have hinvariant := openPicks_invariant cfg ctx
  refine ⟨selectOpens_length cfg ctx, ?_, hinvariant.listed, ?_, ?_⟩
  · rw [selectOpens_addrs]
    exact hinvariant.distinct
  · intro line hline
    obtain ⟨lines, hlog, hlines⟩ := openPicks_from cfg ctx
    rw [hlog, OpenPicks.empty, List.nil_append] at hline
    exact hlines line hline
  · intro before line after hlog
    refine ⟨hinvariant.belowFloor before line after hlog, ?_⟩
    intro hsink
    refine ⟨fun capable hcapable => capable_before_sink hlog hsink hcapable, ?_⟩
    intro later hlater hcapable
    -- a relay-capable peer after the sink would have been picked twice
    have hearlier := capable_before_sink hlog hsink hcapable
    have hdistinct := hinvariant.distinct
    rw [hlog, List.map_append, List.nodup_append] at hdistinct
    exact hdistinct.2.2 _ hearlier _
      (List.mem_map_of_mem (List.mem_cons_of_mem line hlater)) rfl

end

end HoprStrategy.ChannelLifecycle.MultiObjective
