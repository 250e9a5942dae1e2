import HoprStrategy.Selector

/-!
# Closes of the multi-objective selector

The channels worth closing are ranked, and the worst go first.  A channel which
is not drained is kept when its cell is down to the floor; the occupants of
each cell are counted down as channels of it are chosen.  Drained channels are
chosen whatever their cell, and are not counted down.
-/

namespace HoprStrategy.ChannelLifecycle.MultiObjective

section

variable {Id Addr Key : Type} [DecidableEq Id]
  (cfg : MultiObjectiveSelectorConfig) (ctx : SelectorContext Id Addr Key)

def cellOf (candidate : CloseCandidate Id Addr Key) : Option BucketCell :=
  ctx.bucketView.cellFor candidate.channel.id

def isDrained (candidate : CloseCandidate Id Addr Key) : Bool :=
  candidate.channel.balance ≤ ctx.closure.closeWhenDrainedBelow

/-- The close threshold lies below the open threshold by the gap. -/
def effectiveQualityThreshold : ℚ :=
  max (ctx.eligibility.minPeerQualityScore - cfg.hysteresisGap) 0

/-- The veto for the sole occupant of a known cell. -/
def passesFloor (candidate : CloseCandidate Id Addr Key) : Bool :=
  if isDrained ctx candidate then true
  else
    match cellOf ctx candidate with
    | some cell => !cell.isKnown || 1 < ctx.bucketView.cellCount cell
    | none => true

def closeWorthy : List (CloseCandidate Id Addr Key) :=
  (ctx.closeCandidates.filter
    (shouldClose ctx (some (effectiveQualityThreshold cfg ctx)))).filter
      (passesFloor ctx)

/-- By ascending score. -/
def rankedCloses : List (CloseCandidate Id Addr Key) :=
  (closeWorthy cfg ctx).insertionSort fun left right =>
    finalScoreClose cfg ctx left ≤ finalScoreClose cfg ctx right

/-- The occupants of each cell among the candidates. -/
def simulatedCounts (cell : BucketCell) : ℕ :=
  ctx.closeCandidates.countP fun candidate => cellOf ctx candidate = some cell

/-- The known cell a candidate is held back for: none once it is drained. -/
def floorCell (candidate : CloseCandidate Id Addr Key) : Option BucketCell :=
  if isDrained ctx candidate then none
  else (cellOf ctx candidate).filter BucketCell.isKnown

def closeLoop (counts : BucketCell → ℕ) (result : List Id) :
    List (CloseCandidate Id Addr Key) → List Id
  | [] => result
  | candidate :: rest =>
      if cfg.closePerTick ≤ result.length then result
      else
        match floorCell ctx candidate with
        | none => closeLoop counts (result ++ [candidate.channel.id]) rest
        | some cell =>
            if counts cell ≤ cfg.kFloor then closeLoop counts result rest
            else
              closeLoop (Function.update counts cell (counts cell - 1))
                (result ++ [candidate.channel.id]) rest

def selectCloses : List Id :=
  closeLoop cfg ctx (simulatedCounts ctx) [] (rankedCloses cfg ctx)

/-- The closes of a tick whose scores rank the candidates in the given order. -/
def closesOf (ranked : List (CloseCandidate Id Addr Key)) : List Id :=
  closeLoop cfg ctx (simulatedCounts ctx) [] ranked

/-! ## The floor -/

/-- The channels of a cell which are not closed. -/
def occupantsAfter (closed : List Id) (cell : BucketCell) : ℕ :=
  ctx.bucketView.cells.entries.countP fun entry =>
    entry.2 = cell ∧ entry.1 ∉ closed

/-- Every known cell a regular channel of which is closed keeps the floor. -/
def KeepsFloor (closed : List Id) : Prop :=
  ∀ cell : BucketCell, cell.isKnown = true →
    (∃ candidate ∈ ctx.closeCandidates, isDrained ctx candidate = false ∧
      cellOf ctx candidate = some cell ∧ candidate.channel.id ∈ closed) →
    max cfg.kFloor 1 ≤ occupantsAfter ctx closed cell

/-- The drained channels of a cell. -/
def drainedIn (cell : BucketCell) : ℕ :=
  ctx.closeCandidates.countP fun candidate =>
    isDrained ctx candidate && cellOf ctx candidate = some cell

/-- The regular channels of a cell which are worth closing. -/
def regularIn (cell : BucketCell) : ℕ :=
  (closeWorthy cfg ctx).countP fun candidate =>
    floorCell ctx candidate = some cell

/-- Where a regular channel may be closed, the drained channels and the regular
ones above the floor leave the floor, as far as a tick closes them. -/
def FloorCoversDrained : Prop :=
  ∀ cell : BucketCell, cell.isKnown = true →
    0 < regularIn cfg ctx cell →
    cfg.kFloor < ctx.bucketView.cellCount cell →
    min (drainedIn ctx cell + min (regularIn cfg ctx cell)
          (ctx.bucketView.cellCount cell - cfg.kFloor)) cfg.closePerTick +
        max cfg.kFloor 1 ≤
      ctx.bucketView.cellCount cell

/-! ## What the loop chooses -/

/-- The candidates a loop chooses from a list, given the counts and the places
which are left. -/
structure Chosen (counts : BucketCell → ℕ) (places : ℕ)
    (candidates chosen : List (CloseCandidate Id Addr Key)) : Prop where
  sublist : chosen.Sublist candidates
  few : chosen.length ≤ places
  bound : ∀ cell, chosen.countP (floorCell ctx · = some cell) ≤
    counts cell - cfg.kFloor
  regular : candidates.length ≤ places → ∀ cell,
    chosen.countP (floorCell ctx · = some cell) =
      min (candidates.countP (floorCell ctx · = some cell))
        (counts cell - cfg.kFloor)
  free : candidates.length ≤ places →
    chosen.filter (floorCell ctx · = none) =
      candidates.filter (floorCell ctx · = none)

variable {cfg ctx}

namespace Chosen

variable {counts : BucketCell → ℕ} {places : ℕ}
  {candidate : CloseCandidate Id Addr Key}
  {rest chosen : List (CloseCandidate Id Addr Key)} {cell : BucketCell}

/-- No place is left. -/
theorem none_left (candidates : List (CloseCandidate Id Addr Key)) :
    Chosen cfg ctx counts 0 candidates [] := by
  cases candidates with
  | nil => exact ⟨List.Sublist.refl [], le_rfl, by simp, by simp, fun _ => rfl⟩
  | cons candidate rest =>
      refine ⟨List.nil_sublist _, le_rfl, by simp, ?_, ?_⟩
      · intro hlength
        cases hlength
      · intro hlength
        cases hlength

/-- A candidate which no cell holds back is chosen. -/
theorem take_free (hchosen : Chosen cfg ctx counts places rest chosen)
    (hcell : floorCell ctx candidate = none) :
    Chosen cfg ctx counts (places + 1) (candidate :: rest)
      (candidate :: chosen) where
  sublist := hchosen.sublist.cons_cons candidate
  few := Nat.succ_le_succ hchosen.few
  bound := by
    intro cell
    rw [List.countP_cons_of_neg (by simp [hcell])]
    exact hchosen.bound cell
  regular := by
    intro hlength cell
    rw [List.countP_cons_of_neg (by simp [hcell]),
      List.countP_cons_of_neg (by simp [hcell])]
    exact hchosen.regular (Nat.le_of_succ_le_succ hlength) cell
  free := by
    intro hlength
    rw [List.filter_cons_of_pos (by simp [hcell]),
      List.filter_cons_of_pos (by simp [hcell]),
      hchosen.free (Nat.le_of_succ_le_succ hlength)]

/-- A candidate of a cell at its floor is passed over. -/
theorem pass (hchosen : Chosen cfg ctx counts places rest chosen)
    (hcell : floorCell ctx candidate = some cell)
    (hfloor : counts cell ≤ cfg.kFloor) :
    Chosen cfg ctx counts places (candidate :: rest) chosen where
  sublist := hchosen.sublist.cons candidate
  few := hchosen.few
  bound := hchosen.bound
  regular := by
    intro hlength other
    rw [hchosen.regular (Nat.le_of_succ_le hlength) other]
    by_cases hother : cell = other
    · rw [← hother]
      omega
    · rw [List.countP_cons_of_neg (by simp [hcell, hother])]
  free := by
    intro hlength
    rw [List.filter_cons_of_neg (by simp [hcell])]
    exact hchosen.free (Nat.le_of_succ_le hlength)

/-- A candidate of a cell above its floor is chosen and counted down. -/
theorem take_regular
    (hchosen : Chosen cfg ctx
      (Function.update counts cell (counts cell - 1)) places rest chosen)
    (hcell : floorCell ctx candidate = some cell)
    (hfloor : ¬ counts cell ≤ cfg.kFloor) :
    Chosen cfg ctx counts (places + 1) (candidate :: rest)
      (candidate :: chosen) where
  sublist := hchosen.sublist.cons_cons candidate
  few := Nat.succ_le_succ hchosen.few
  bound := by
    intro other
    have hbound := hchosen.bound other
    by_cases hother : cell = other
    · subst hother
      rw [Function.update_self] at hbound
      rw [List.countP_cons_of_pos (by simp [hcell])]
      omega
    · rw [Function.update_of_ne (Ne.symm hother)] at hbound
      rwa [List.countP_cons_of_neg (by simp [hcell, hother])]
  regular := by
    intro hlength other
    have hregular :=
      hchosen.regular (Nat.le_of_succ_le_succ hlength) other
    by_cases hother : cell = other
    · subst hother
      rw [Function.update_self] at hregular
      rw [List.countP_cons_of_pos (by simp [hcell]),
        List.countP_cons_of_pos (by simp [hcell]), hregular]
      omega
    · rw [Function.update_of_ne (Ne.symm hother)] at hregular
      rw [List.countP_cons_of_neg (by simp [hcell, hother]),
        List.countP_cons_of_neg (by simp [hcell, hother]), hregular]
  free := by
    intro hlength
    rw [List.filter_cons_of_neg (by simp [hcell]),
      List.filter_cons_of_neg (by simp [hcell]),
      hchosen.free (Nat.le_of_succ_le_succ hlength)]

end Chosen

variable (cfg ctx) in
theorem closeLoop_chosen (counts : BucketCell → ℕ) (result : List Id)
    (candidates : List (CloseCandidate Id Addr Key)) :
    ∃ chosen, closeLoop cfg ctx counts result candidates =
        result ++ chosen.map (·.channel.id) ∧
      Chosen cfg ctx counts (cfg.closePerTick - result.length) candidates
        chosen := by
  induction candidates generalizing counts result with
  | nil =>
      refine ⟨[], by simp [closeLoop], List.Sublist.refl [], by simp, by simp,
        by simp, fun _ => rfl⟩
  | cons candidate rest ih =>
      rw [closeLoop]
      split
      · next hfull =>
          rw [Nat.sub_eq_zero_of_le hfull]
          exact ⟨[], by simp, Chosen.none_left _⟩
      · next hplace =>
          have hplaces : cfg.closePerTick - result.length =
              cfg.closePerTick -
                (result ++ [candidate.channel.id]).length + 1 := by
            rw [List.length_append, List.length_singleton]
            omega
          cases hcell : floorCell ctx candidate with
          | none =>
              obtain ⟨chosen, hloop, hchosen⟩ :=
                ih counts (result ++ [candidate.channel.id])
              rw [hplaces]
              exact ⟨candidate :: chosen, by simp [hloop],
                hchosen.take_free hcell⟩
          | some cell =>
              simp only
              split
              · next hfloor =>
                  obtain ⟨chosen, hloop, hchosen⟩ := ih counts result
                  exact ⟨chosen, hloop, hchosen.pass hcell hfloor⟩
              · next hfloor =>
                  obtain ⟨chosen, hloop, hchosen⟩ :=
                    ih (Function.update counts cell (counts cell - 1))
                      (result ++ [candidate.channel.id])
                  rw [hplaces]
                  exact ⟨candidate :: chosen, by simp [hloop],
                    hchosen.take_regular hcell hfloor⟩

/-- Drained channels which come first are chosen, while there are places. -/
theorem closeLoop_free {counts : BucketCell → ℕ} {result : List Id}
    {drained rest : List (CloseCandidate Id Addr Key)}
    (hcells : ∀ candidate ∈ drained, floorCell ctx candidate = none)
    (hplaces : result.length + drained.length ≤ cfg.closePerTick) :
    closeLoop cfg ctx counts result (drained ++ rest) =
      closeLoop cfg ctx counts (result ++ drained.map (·.channel.id)) rest := by
  induction drained generalizing result with
  | nil => simp
  | cons candidate others ih =>
      rw [List.length_cons] at hplaces
      rw [List.cons_append, closeLoop,
        if_neg (by omega), hcells candidate List.mem_cons_self]
      dsimp only
      rw [ih (fun other hother => hcells other (List.mem_cons_of_mem _ hother))
        (by rw [List.length_append, List.length_singleton]; omega)]
      simp

/-- Regular channels of a cell which come first are chosen, while the cell is
above the floor and there are places. -/
theorem closeLoop_regular {cell : BucketCell} {counts : BucketCell → ℕ}
    {result : List Id} {regular rest : List (CloseCandidate Id Addr Key)}
    (hcells : ∀ candidate ∈ regular, floorCell ctx candidate = some cell)
    (hfloor : regular.length ≤ counts cell - cfg.kFloor)
    (hplaces : result.length + regular.length ≤ cfg.closePerTick) :
    ∃ counts', closeLoop cfg ctx counts result (regular ++ rest) =
      closeLoop cfg ctx counts' (result ++ regular.map (·.channel.id))
        rest := by
  induction regular generalizing counts result with
  | nil => exact ⟨counts, by simp⟩
  | cons candidate others ih =>
      rw [List.length_cons] at hplaces hfloor
      obtain ⟨counts', hloop⟩ := @ih
        (Function.update counts cell (counts cell - 1))
        (result ++ [candidate.channel.id])
        (fun other hother => hcells other (List.mem_cons_of_mem _ hother))
        (by rw [Function.update_self]; omega)
        (by rw [List.length_append, List.length_singleton]; omega)
      refine ⟨counts', ?_⟩
      rw [List.cons_append, closeLoop, if_neg (by omega),
        hcells candidate List.mem_cons_self]
      dsimp only
      rw [if_neg (by omega), hloop]
      simp

/-! ## What is left of a cell -/

/-- A part of a list without repeated keys, and the rest of it. -/
theorem countP_add_countP_chosen {Item Label : Type} [DecidableEq Label]
    {key : Item → Label} {items chosen : List Item}
    (hnodup : (items.map key).Nodup) (hchosen : chosen.Subperm items)
    (kind : Item → Bool) :
    (items.countP fun item => kind item && key item ∉ chosen.map key) +
      chosen.countP kind = items.countP kind := by
  obtain ⟨sublist, hperm, hsublist⟩ := hchosen
  obtain ⟨others, hall⟩ := hsublist.exists_perm_append
  have hitems : items.Perm (chosen ++ others) :=
    hall.trans (hperm.append_right others)
  have hsplit : (chosen.map key ++ others.map key).Nodup := by
    rw [← List.map_append]
    exact (hitems.map key).nodup_iff.mp hnodup
  have hdisjoint := (List.nodup_append.mp hsplit).2.2
  rw [hitems.countP_eq, hitems.countP_eq, List.countP_append,
    List.countP_append]
  have hnone : (chosen.countP fun item =>
      kind item && key item ∉ chosen.map key) = 0 := by
    rw [List.countP_eq_zero]
    intro item hitem
    simp [List.mem_map_of_mem hitem]
  have hrest : (others.countP fun item =>
      kind item && key item ∉ chosen.map key) = others.countP kind := by
    apply List.countP_congr
    intro item hitem
    have hnot : key item ∉ chosen.map key := by
      intro hmem
      exact hdisjoint _ hmem _ (List.mem_map_of_mem hitem) rfl
    simp [hnot]
  omega

variable (ctx) in
/-- The channels of a cell, counted in the bucket view or among the
candidates. -/
theorem countP_cells (cell : BucketCell) (kind : Id → Bool) :
    (ctx.bucketView.cells.entries.countP fun entry =>
        entry.2 = cell ∧ kind entry.1) =
      ctx.closeCandidates.countP fun candidate =>
        decide (cellOf ctx candidate = some cell) &&
          kind candidate.channel.id := by
  have hleft : ((ctx.bucketView.cells.entries.filter fun entry =>
      entry.2 = cell).map Sigma.fst).Nodup :=
    ctx.bucketView.cells.nodupKeys.sublist List.filter_sublist
  have hright : ((ctx.closeCandidates.filter fun candidate =>
      cellOf ctx candidate = some cell).map (·.channel.id)).Nodup :=
    ctx.channelsDistinct.sublist
      (List.filter_sublist.map
        fun candidate : CloseCandidate Id Addr Key => candidate.channel.id)
  have hperm := (List.perm_ext_iff_of_nodup hleft hright).mpr (by
    intro id
    simp only [List.mem_map, List.mem_filter, decide_eq_true_eq]
    constructor
    · rintro ⟨entry, ⟨hentry, rfl⟩, rfl⟩
      have hlookup : ctx.bucketView.cells.lookup entry.1 = some entry.2 :=
        AList.mem_lookup_iff.mpr hentry
      have hopen := ctx.cellsOpen entry.1
        (AList.lookup_isSome.mp (by rw [hlookup]; rfl))
      obtain ⟨candidate, hcandidate, hid⟩ := List.mem_map.mp hopen
      refine ⟨candidate, ⟨hcandidate, ?_⟩, hid⟩
      rw [cellOf, BucketView.cellFor, hid, hlookup]
    · rintro ⟨candidate, ⟨hcandidate, hcell⟩, rfl⟩
      exact ⟨⟨candidate.channel.id, cell⟩,
        ⟨AList.mem_lookup_iff.mp hcell, rfl⟩, rfl⟩)
  have hcount := hperm.countP_eq kind
  rw [List.countP_map, List.countP_map, List.countP_filter,
    List.countP_filter] at hcount
  convert hcount using 2
  · funext entry
    simp [and_comm]
  · funext candidate
    simp [Bool.and_comm]

variable (ctx) in
theorem cellCount_eq (cell : BucketCell) :
    ctx.bucketView.cellCount cell = simulatedCounts ctx cell := by
  have hcount := countP_cells ctx cell fun _ => true
  simpa [BucketView.cellCount, simulatedCounts] using hcount

variable (ctx) in
theorem floorCell_eq_some_iff {cell : BucketCell}
    (hknown : cell.isKnown = true) (candidate : CloseCandidate Id Addr Key) :
    floorCell ctx candidate = some cell ↔
      isDrained ctx candidate = false ∧ cellOf ctx candidate = some cell := by
  unfold floorCell
  cases isDrained ctx candidate with
  | true => simp
  | false =>
      simp only [Bool.false_eq_true, if_false, true_and,
        Option.filter_eq_some_iff]
      exact ⟨fun h => h.1, fun h => ⟨h, hknown⟩⟩

variable (ctx) in
/-- A channel of a known cell is drained or held back for the cell. -/
theorem countP_cellOf {cell : BucketCell} (hknown : cell.isKnown = true)
    (candidates : List (CloseCandidate Id Addr Key)) :
    candidates.countP (fun candidate => cellOf ctx candidate = some cell) =
      candidates.countP (floorCell ctx · = some cell) +
        candidates.countP fun candidate =>
          isDrained ctx candidate && cellOf ctx candidate = some cell := by
  induction candidates with
  | nil => rfl
  | cons candidate rest ih =>
      have hcell := floorCell_eq_some_iff ctx hknown candidate
      simp only [List.countP_cons, ih, hcell]
      cases isDrained ctx candidate <;>
        by_cases hin : cellOf ctx candidate = some cell <;>
          simp [hin] <;> omega

variable {ranked : List (CloseCandidate Id Addr Key)}

/-- What is closed is one of the candidates, once. -/
theorem subperm_of_ranked (hranked : ranked.Perm (closeWorthy cfg ctx)) :
    ranked.Subperm ctx.closeCandidates :=
  hranked.subperm.trans
    ((List.filter_sublist).trans List.filter_sublist).subperm

variable (cfg ctx) in
theorem rankedCloses_perm :
    (rankedCloses cfg ctx).Perm (closeWorthy cfg ctx) :=
  List.perm_insertionSort _ _

/-- The chosen channels and those which stay make up a cell. -/
theorem occupantsAfter_add_chosen {cell : BucketCell}
    {chosen : List (CloseCandidate Id Addr Key)}
    (hchosen : chosen.Subperm ctx.closeCandidates) :
    occupantsAfter ctx (chosen.map (·.channel.id)) cell +
        chosen.countP (fun candidate => cellOf ctx candidate = some cell) =
      ctx.bucketView.cellCount cell := by
  have hcount := countP_cells ctx cell
    fun id => decide (id ∉ chosen.map (·.channel.id))
  have hsplit := countP_add_countP_chosen ctx.channelsDistinct hchosen
    fun candidate => decide (cellOf ctx candidate = some cell)
  rw [cellCount_eq, simulatedCounts, ← hsplit]
  simpa [occupantsAfter] using hcount

variable (cfg) in
/-- Every drained channel is worth closing. -/
theorem mem_closeWorthy_of_isDrained {candidate : CloseCandidate Id Addr Key}
    (hcandidate : candidate ∈ ctx.closeCandidates)
    (hdrained : isDrained ctx candidate = true) :
    candidate ∈ closeWorthy cfg ctx := by
  have hbalance : candidate.channel.balance ≤
      ctx.closure.closeWhenDrainedBelow := of_decide_eq_true hdrained
  apply List.mem_filter.mpr
  constructor
  · apply List.mem_filter.mpr
    exact ⟨hcandidate, by simp [shouldClose, hbalance]⟩
  · simp [passesFloor, hdrained]

variable (cfg ctx) in
theorem closeWorthy_countP_drained (cell : BucketCell) :
    (closeWorthy cfg ctx).countP (fun candidate =>
        isDrained ctx candidate && cellOf ctx candidate = some cell) =
      drainedIn ctx cell := by
  rw [closeWorthy, List.filter_filter, List.countP_filter, drainedIn]
  apply List.countP_congr
  intro candidate hcandidate
  by_cases hdrained : isDrained ctx candidate = true
  · have hworthy := mem_closeWorthy_of_isDrained cfg hcandidate hdrained
    rw [closeWorthy, List.filter_filter] at hworthy
    have hkept := (List.mem_filter.mp hworthy).2
    simp only [hkept, Bool.and_true]
  · simp [hdrained]

/-- A regular channel of a cell is closed only through the cell's count. -/
theorem exists_regular_iff {cell : BucketCell} (hknown : cell.isKnown = true)
    {chosen : List (CloseCandidate Id Addr Key)}
    (hchosen : chosen.Subperm ctx.closeCandidates) :
    (∃ candidate ∈ ctx.closeCandidates, isDrained ctx candidate = false ∧
        cellOf ctx candidate = some cell ∧
        candidate.channel.id ∈ chosen.map (·.channel.id)) ↔
      0 < chosen.countP (floorCell ctx · = some cell) := by
  rw [List.countP_pos_iff]
  constructor
  · intro hregular
    obtain ⟨candidate, hcandidate, hdrained, hcell, hmem⟩ := hregular
    obtain ⟨closed, hclosed, hid⟩ := List.mem_map.mp hmem
    have hsame : closed = candidate :=
      List.inj_on_of_nodup_map ctx.channelsDistinct
        (hchosen.subset hclosed) hcandidate hid
    rw [hsame] at hclosed
    exact ⟨candidate, hclosed, decide_eq_true
      ((floorCell_eq_some_iff ctx hknown candidate).mpr ⟨hdrained, hcell⟩)⟩
  · intro hregular
    obtain ⟨candidate, hmem, hfloor⟩ := hregular
    have hcell := (floorCell_eq_some_iff ctx hknown candidate).mp
      (of_decide_eq_true hfloor)
    exact ⟨candidate, hchosen.subset hmem, hcell.1, hcell.2,
      List.mem_map_of_mem hmem⟩

/-! ## The floor of a tick's closes -/

variable (cfg ctx) in
theorem closesOf_chosen (ranked : List (CloseCandidate Id Addr Key)) :
    ∃ chosen, closesOf cfg ctx ranked = chosen.map (·.channel.id) ∧
      Chosen cfg ctx (simulatedCounts ctx) cfg.closePerTick ranked chosen := by
  obtain ⟨chosen, hloop, hchosen⟩ :=
    closeLoop_chosen cfg ctx (simulatedCounts ctx) [] ranked
  exact ⟨chosen, by simpa [closesOf] using hloop, hchosen⟩

/-- The drained and the regular closes of a cell, and what is left of it. -/
theorem occupantsAfter_add_kinds {cell : BucketCell}
    (hknown : cell.isKnown = true)
    {chosen : List (CloseCandidate Id Addr Key)}
    (hchosen : chosen.Subperm ctx.closeCandidates) :
    occupantsAfter ctx (chosen.map (·.channel.id)) cell +
        (chosen.countP (floorCell ctx · = some cell) +
          chosen.countP fun candidate =>
            isDrained ctx candidate && cellOf ctx candidate = some cell) =
      ctx.bucketView.cellCount cell := by
  rw [← countP_cellOf ctx hknown]
  exact occupantsAfter_add_chosen hchosen

theorem keepsFloor_of_covers (hcovers : FloorCoversDrained cfg ctx)
    (hranked : ranked.Perm (closeWorthy cfg ctx)) :
    KeepsFloor cfg ctx (closesOf cfg ctx ranked) := by
  obtain ⟨chosen, hcloses, hchosen⟩ := closesOf_chosen cfg ctx ranked
  have hcandidates := hchosen.sublist.subperm.trans (subperm_of_ranked hranked)
  rw [hcloses]
  intro cell hknown hregular
  have hpositive := (exists_regular_iff hknown hcandidates).mp hregular
  have hbound := hchosen.bound cell
  rw [← cellCount_eq] at hbound
  have hworthy :
      chosen.countP (floorCell ctx · = some cell) ≤ regularIn cfg ctx cell := by
    rw [regularIn, ← hranked.countP_eq]
    exact hchosen.sublist.countP_le
  have hdrained : (chosen.countP fun candidate =>
      isDrained ctx candidate && cellOf ctx candidate = some cell) ≤
        drainedIn ctx cell := by
    rw [← closeWorthy_countP_drained cfg, ← hranked.countP_eq]
    exact hchosen.sublist.countP_le
  have hbudget : (chosen.countP fun candidate =>
      cellOf ctx candidate = some cell) ≤ cfg.closePerTick :=
    List.countP_le_length.trans hchosen.few
  rw [countP_cellOf ctx hknown] at hbudget
  have hcover := hcovers cell hknown (by omega) (by omega)
  have hleft := occupantsAfter_add_kinds hknown hcandidates
  omega

/-- When the tick may close every candidate, the order makes no difference. -/
theorem covers_of_keepsFloor
    (hplaces : ctx.closeCandidates.length ≤ cfg.closePerTick)
    (hranked : ranked.Perm (closeWorthy cfg ctx))
    (hkeeps : KeepsFloor cfg ctx (closesOf cfg ctx ranked)) :
    FloorCoversDrained cfg ctx := by
  obtain ⟨chosen, hcloses, hchosen⟩ := closesOf_chosen cfg ctx ranked
  have hcandidates := hchosen.sublist.subperm.trans (subperm_of_ranked hranked)
  rw [hcloses] at hkeeps
  have hall : ranked.length ≤ cfg.closePerTick :=
    (subperm_of_ranked hranked).length_le.trans hplaces
  intro cell hknown hworthy habove
  have hregular := hchosen.regular hall cell
  rw [← cellCount_eq, hranked.countP_eq, ← regularIn] at hregular
  have hdrained : (chosen.countP fun candidate =>
      isDrained ctx candidate && cellOf ctx candidate = some cell) =
        drainedIn ctx cell := by
    have hfree := congrArg (List.countP fun candidate =>
      isDrained ctx candidate && cellOf ctx candidate = some cell)
        (hchosen.free hall)
    have hkind : ∀ candidate : CloseCandidate Id Addr Key,
        (isDrained ctx candidate && cellOf ctx candidate = some cell &&
            floorCell ctx candidate = none) =
          (isDrained ctx candidate && cellOf ctx candidate = some cell) := by
      intro candidate
      cases hstate : isDrained ctx candidate <;> simp [floorCell, hstate]
    simp only [List.countP_filter, hkind] at hfree
    rw [hfree, hranked.countP_eq, closeWorthy_countP_drained]
  have hfloor := hkeeps cell hknown
    ((exists_regular_iff hknown hcandidates).mpr (by omega))
  have hleft := occupantsAfter_add_kinds hknown hcandidates
  omega

/-- Channels which are worth closing come first in some order. -/
theorem exists_ranked {first : List (CloseCandidate Id Addr Key)}
    (hfirst : first.Subperm (closeWorthy cfg ctx)) :
    ∃ others, (first ++ others).Perm (closeWorthy cfg ctx) := by
  obtain ⟨sublist, hperm, hsublist⟩ := hfirst
  obtain ⟨others, hall⟩ := hsublist.exists_perm_append
  exact ⟨others, (hperm.symm.append_right others).trans hall.symm⟩

variable (cfg ctx) in
def regularOf (cell : BucketCell) : List (CloseCandidate Id Addr Key) :=
  (closeWorthy cfg ctx).filter (floorCell ctx · = some cell)

variable (cfg ctx) in
def drainedOf (cell : BucketCell) : List (CloseCandidate Id Addr Key) :=
  (closeWorthy cfg ctx).filter fun candidate =>
    isDrained ctx candidate && cellOf ctx candidate = some cell

theorem length_regularOf (cell : BucketCell) :
    (regularOf cfg ctx cell).length = regularIn cfg ctx cell :=
  List.countP_eq_length_filter.symm

theorem length_drainedOf (cell : BucketCell) :
    (drainedOf cfg ctx cell).length = drainedIn ctx cell := by
  rw [← closeWorthy_countP_drained cfg]
  exact List.countP_eq_length_filter.symm

/-- The regular channels of a cell and its drained ones are different ones. -/
theorem regularOf_append_drainedOf_subperm {cell : BucketCell}
    (hknown : cell.isKnown = true) :
    (regularOf cfg ctx cell ++ drainedOf cfg ctx cell).Subperm
      (closeWorthy cfg ctx) := by
  have hdrained : (drainedOf cfg ctx cell).Sublist
      ((closeWorthy cfg ctx).filter
        fun candidate => !decide (floorCell ctx candidate = some cell)) := by
    apply List.monotone_filter_right
    intro candidate hcandidate
    rw [Bool.and_eq_true] at hcandidate
    rw [Bool.not_eq_true', decide_eq_false_iff_not,
      floorCell_eq_some_iff ctx hknown, hcandidate.1]
    simp
  exact (hdrained.append_left _).subperm.trans
    (List.filter_append_perm _ _).subperm

/-- When the channels of a cell rank before all others, the regular ones before
the drained ones, as many are closed as the tick has places for. -/
theorem covers_of_keepsFloor_everyOrder
    (hkeeps : ∀ ranked : List (CloseCandidate Id Addr Key),
      ranked.Perm (closeWorthy cfg ctx) →
      KeepsFloor cfg ctx (closesOf cfg ctx ranked)) :
    FloorCoversDrained cfg ctx := by
  intro cell hknown hworthy habove
  by_contra hbreached
  have hregularLength := @length_regularOf _ _ _ _ cfg ctx cell
  have hdrainedLength := @length_drainedOf _ _ _ _ cfg ctx cell
  obtain ⟨regularCount, hregularCount⟩ : ∃ count, count =
      min (min (regularIn cfg ctx cell)
        (ctx.bucketView.cellCount cell - cfg.kFloor)) cfg.closePerTick :=
    ⟨_, rfl⟩
  obtain ⟨drainedCount, hdrainedCount⟩ : ∃ count, count =
      min (drainedIn ctx cell) (cfg.closePerTick - regularCount) := ⟨_, rfl⟩
  obtain ⟨regular, hregular⟩ : ∃ regular,
      regular = (regularOf cfg ctx cell).take regularCount := ⟨_, rfl⟩
  obtain ⟨drained, hdrained⟩ : ∃ drained,
      drained = (drainedOf cfg ctx cell).take drainedCount := ⟨_, rfl⟩
  have hregularCells : ∀ candidate ∈ regular,
      floorCell ctx candidate = some cell := by
    intro candidate hmem
    rw [hregular] at hmem
    exact of_decide_eq_true
      (List.mem_filter.mp (List.mem_of_mem_take hmem)).2
  have hdrainedCells : ∀ candidate ∈ drained,
      isDrained ctx candidate = true ∧ cellOf ctx candidate = some cell := by
    intro candidate hmem
    rw [hdrained] at hmem
    have hkept := (List.mem_filter.mp (List.mem_of_mem_take hmem)).2
    simpa using hkept
  have hregularTaken : regular.length = regularCount := by
    rw [hregular, List.length_take]
    omega
  have hdrainedTaken : drained.length = drainedCount := by
    rw [hdrained, List.length_take]
    omega
  have hfirst : (regular ++ drained).Subperm (closeWorthy cfg ctx) := by
    rw [hregular, hdrained]
    exact ((List.take_sublist _ _).append (List.take_sublist _ _)).subperm.trans
      (regularOf_append_drainedOf_subperm hknown)
  obtain ⟨others, hranked⟩ := exists_ranked hfirst
  -- Both are closed, and then something of the others.
  obtain ⟨counts, hloop⟩ := @closeLoop_regular _ _ _ _ cfg ctx cell
    (simulatedCounts ctx) [] regular (drained ++ others) hregularCells
    (by rw [← cellCount_eq]; omega) (by simp only [List.length_nil]; omega)
  have hfree : ∀ candidate ∈ drained, floorCell ctx candidate = none := by
    intro candidate hmem
    simp [floorCell, (hdrainedCells candidate hmem).1]
  rw [closeLoop_free hfree (by
    simp only [List.nil_append, List.length_map]
    omega)] at hloop
  obtain ⟨chosen, hrest, hchosen⟩ := closeLoop_chosen cfg ctx counts
    ([] ++ regular.map (·.channel.id) ++ drained.map (·.channel.id)) others
  have hcloses : closesOf cfg ctx (regular ++ drained ++ others) =
      (regular ++ drained ++ chosen).map (·.channel.id) := by
    rw [closesOf, List.append_assoc, hloop, hrest]
    simp
  have hcandidates : (regular ++ drained ++ chosen).Subperm
      ctx.closeCandidates :=
    (hchosen.sublist.append_left _).subperm.trans (subperm_of_ranked hranked)
  have hall : (regular ++ drained).countP
      (fun candidate => cellOf ctx candidate = some cell) =
        (regular ++ drained).length := by
    rw [List.countP_eq_length]
    intro candidate hmem
    rw [decide_eq_true_eq]
    rcases List.mem_append.mp hmem with hin | hin
    · exact ((floorCell_eq_some_iff ctx hknown candidate).mp
        (hregularCells candidate hin)).2
    · exact (hdrainedCells candidate hin).2
  have hpositive : 0 < (regular ++ drained ++ chosen).countP
      (floorCell ctx · = some cell) := by
    rw [List.countP_append, List.countP_append,
      List.countP_eq_length.mpr
        fun candidate hmem => decide_eq_true (hregularCells candidate hmem)]
    omega
  have hfloor := hkeeps _ hranked cell hknown
    (hcloses ▸ (exists_regular_iff hknown hcandidates).mpr hpositive)
  have hleft := @occupantsAfter_add_chosen _ _ _ _ ctx cell _ hcandidates
  rw [hcloses] at hfloor
  rw [List.countP_append, hall, List.length_append] at hleft
  omega

variable (cfg ctx) in
/-- The floor is kept where it covers the drained channels.  Elsewhere some
order of the scores breaks it, and every order when the tick may close every
candidate. -/
theorem selectCloses_keepsFloor :
    (FloorCoversDrained cfg ctx →
      KeepsFloor cfg ctx (selectCloses cfg ctx)) ∧
    (FloorCoversDrained cfg ctx ↔
      ∀ ranked : List (CloseCandidate Id Addr Key),
        ranked.Perm (closeWorthy cfg ctx) →
        KeepsFloor cfg ctx (closesOf cfg ctx ranked)) ∧
    (ctx.closeCandidates.length ≤ cfg.closePerTick →
      (KeepsFloor cfg ctx (selectCloses cfg ctx) ↔
        FloorCoversDrained cfg ctx)) := by
  have hselect : FloorCoversDrained cfg ctx →
      KeepsFloor cfg ctx (selectCloses cfg ctx) :=
    fun hcovers => keepsFloor_of_covers hcovers (rankedCloses_perm cfg ctx)
  refine ⟨hselect, ⟨?_, covers_of_keepsFloor_everyOrder⟩, ?_⟩
  · exact fun hcovers _ hranked => keepsFloor_of_covers hcovers hranked
  · exact fun hplaces =>
      ⟨covers_of_keepsFloor hplaces (rankedCloses_perm cfg ctx), hselect⟩

end

/-! ## A cell with a drained channel -/

/-- A floor of one, and four closes a tick. -/
def floorOfOne : MultiObjectiveSelectorConfig where
  weights := ⟨0, 0, 0, 0, 0, 0, 0⟩
  openPerTick := 4
  closePerTick := 4
  kFloor := 1
  hysteresisGap := 0

def probedChannel (id : ℕ) (balance : HoprBalance) (score : ℚ) :
    CloseCandidate ℕ ℕ ℕ where
  channel := ⟨id, id, balance, .open⟩
  offchainKey := some id
  edgeInfo := ⟨some score, 60, none, none, none⟩
  ticketScore := none

def sharedCell : BucketCell := ⟨.fast, .v4Prefix #v[10, 0, 0]⟩

/-- Channels which all lie in one known cell. -/
def sharedCellContext (channels : List (CloseCandidate ℕ ℕ ℕ))
    (hdistinct : (channels.map (·.channel.id)).Nodup) :
    SelectorContext ℕ ℕ ℕ where
  eligibility := ⟨1 / 2, 1, 0, false, true, 1⟩
  closure := ⟨HoprBalance.zero, 1 / 4, 3600⟩
  deficit := 0
  openCandidates := []
  closeCandidates := channels
  startEpochElapsed := 600
  bucketView := ⟨⟨channels.map fun candidate =>
    ⟨candidate.channel.id, sharedCell⟩, by
      simpa [List.NodupKeys, List.keys, Function.comp_def] using hdistinct⟩⟩
  stakeView := fun _ => 0
  forwardingView := fun _ => 0
  channelsDistinct := hdistinct
  cellsOpen := by
    intro id hid
    rw [AList.mem_keys] at hid
    simpa [AList.keys, List.keys, Function.comp_def] using hid

/-- A channel to an unreliable peer, and a drained one. -/
def besideDrained : SelectorContext ℕ ℕ ℕ :=
  sharedCellContext
    [probedChannel 0 (.saturating 7) (1 / 10),
      probedChannel 1 HoprBalance.zero (1 / 10)]
    (by decide)

/-- The same channels, and one to a reliable peer. -/
def besideReliable : SelectorContext ℕ ℕ ℕ :=
  sharedCellContext
    [probedChannel 0 (.saturating 7) (1 / 10),
      probedChannel 1 HoprBalance.zero (1 / 10),
      probedChannel 2 (.saturating 7) (9 / 10)]
    (by decide)

/-- A floor of one, and one close a tick. -/
def oneClose : MultiObjectiveSelectorConfig :=
  { floorOfOne with closePerTick := 1 }

/-- The reliable channel stays when the others are closed, and the drained one
when a tick closes one channel only. -/
theorem selectCloses_keepsFloor_besideReliable :
    selectCloses floorOfOne besideReliable = [0, 1] ∧
      KeepsFloor floorOfOne besideReliable
        (selectCloses floorOfOne besideReliable) ∧
      selectCloses oneClose besideDrained = [0] ∧
      KeepsFloor oneClose besideDrained
        (selectCloses oneClose besideDrained) := by
  have honly : ∀ (channels : List (CloseCandidate ℕ ℕ ℕ))
      (hdistinct : (channels.map (·.channel.id)).Nodup) (cell : BucketCell),
      0 < (sharedCellContext channels hdistinct).bucketView.cellCount cell →
      cell = sharedCell := by
    intro channels hdistinct cell hcount
    by_contra hother
    have hzero : (sharedCellContext channels hdistinct).bucketView.cellCount
        cell = 0 := by
      simp [sharedCellContext, BucketView.cellCount, Ne.symm hother]
    omega
  refine ⟨by decide +kernel, ?_, by decide +kernel, ?_⟩
  · apply (selectCloses_keepsFloor floorOfOne besideReliable).1
    intro cell hknown hregular habove
    rw [honly _ _ cell (Nat.zero_lt_of_lt habove)]
    decide +kernel
  · apply (selectCloses_keepsFloor oneClose besideDrained).1
    intro cell hknown hregular habove
    rw [honly _ _ cell (Nat.zero_lt_of_lt habove)]
    decide +kernel

/-- The drained channel is closed along with the last other one of the cell. -/
theorem selectCloses_emptiesCell :
    ¬ ∀ (cfg : MultiObjectiveSelectorConfig) (ctx : SelectorContext ℕ ℕ ℕ),
      KeepsFloor cfg ctx (selectCloses cfg ctx) := by
  intro hkeeps
  have hfloor := hkeeps floorOfOne besideDrained sharedCell (by decide)
    ⟨probedChannel 0 (.saturating 7) (1 / 10), by decide +kernel⟩
  revert hfloor
  decide +kernel

end HoprStrategy.ChannelLifecycle.MultiObjective
