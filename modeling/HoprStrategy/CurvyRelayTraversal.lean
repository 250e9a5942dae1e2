import HoprStrategy.CurvySdkTraversal

/-!
# Traversal of the relayed path

The settling loop keeps to the guard and ends within its fuel: each turn
which does not settle the journal marks its last attempt, drops it, or proves
a replacement, and after a replacement the next turn is the last one.
-/

namespace HoprStrategy.Curvy

open Library SdkWorld

variable {Fr : Type} [DecidableEq Fr] {config : SdkConfig Fr}
  {distinct : Prop} {world : SdkWorld Fr} {α β : Type}

/-- Only the relay journal and what booking it changes have moved, and the
journal still names no other allocations. -/
structure RelayMoved (ids : List PixAddressId)
    (before after : SdkWorld Fr) : Prop where
  phase : after.phase = .settled
  memory : ∃ funding pending attempts, after.memory =
    { before.memory with
      funding := funding
      pending := pending
      relayAggregations := attempts }
  records : ∀ id, id ∉ ids → after.records.find id = before.records.find id
  names : ∀ attempt ∈ after.memory.relayAggregations,
    attempt.allocationIds ⊆ ids
  history : before.history <:+ after.history

/-- The journal names no other allocations. -/
def Names (ids : List PixAddressId) (world : SdkWorld Fr) : Prop :=
  ∀ attempt ∈ world.memory.relayAggregations, attempt.allocationIds ⊆ ids

omit [DecidableEq Fr] in
theorem RelayMoved.of_quiet {ids : List PixAddressId}
    {before after : SdkWorld Fr} (hquiet : Quiet before after)
    (hphase : before.phase = .settled) (hnames : Names ids before) :
    RelayMoved ids before after where
  phase := hquiet.settled hphase
  memory := ⟨_, _, _, hquiet.memory⟩
  records := fun _ _ => by rw [hquiet.records]
  names := by rw [hquiet.memory]; exact hnames
  history := hquiet.history

omit [DecidableEq Fr] in
theorem RelayMoved.trans {ids : List PixAddressId}
    {first second third : SdkWorld Fr} (hfirst : RelayMoved ids first second)
    (hsecond : RelayMoved ids second third) :
    RelayMoved ids first third where
  phase := hsecond.phase
  memory := by
    rcases hfirst.memory with ⟨_, _, _, hmemory⟩
    rcases hsecond.memory with ⟨funding, pending, attempts, hlast⟩
    exact ⟨funding, pending, attempts, by rw [hlast, hmemory]⟩
  records := fun id hid =>
    (hsecond.records id hid).trans (hfirst.records id hid)
  names := hsecond.names
  history := hfirst.history.trans hsecond.history

omit [DecidableEq Fr] in
theorem RelayMoved.after_quiet {ids : List PixAddressId}
    {first second third : SdkWorld Fr} (hquiet : Quiet first second)
    (hmoved : RelayMoved ids second third) : RelayMoved ids first third where
  phase := hmoved.phase
  memory := by
    rcases hmoved.memory with ⟨funding, pending, attempts, hlast⟩
    exact ⟨funding, pending, attempts, by rw [hlast, hquiet.memory]⟩
  records := fun id hid => by rw [hmoved.records id hid, hquiet.records]
  names := hmoved.names
  history := hquiet.history.trans hmoved.history

omit [DecidableEq Fr] in
theorem RelayMoved.trans_quiet {ids : List PixAddressId}
    {first second third : SdkWorld Fr} (hmoved : RelayMoved ids first second)
    (hquiet : Quiet second third) : RelayMoved ids first third :=
  hmoved.trans (.of_quiet hquiet hmoved.phase hmoved.names)

omit [DecidableEq Fr] in
theorem RelayMoved.names_quiet {ids : List PixAddressId}
    {first second third : SdkWorld Fr} (hmoved : RelayMoved ids first second)
    (hquiet : Quiet second third) : Names ids third :=
  (hmoved.trans_quiet hquiet).names

omit [DecidableEq Fr] in
theorem RelayMoved.committed {ids : List PixAddressId} {update : Update}
    {funding pending : List StoredNote}
    {attempts : List StoredRelayAggregation}
    {allocations : List StoredAllocation} {remove : List PixAddressId}
    (hallocations : allocations.map StoredAllocation.id ⊆ ids)
    (hremove : remove ⊆ ids)
    (hnames : ∀ attempt ∈ attempts, attempt.allocationIds ⊆ ids) :
    RelayMoved ids world (world.committed update
      { world.memory with
        funding := funding
        pending := pending
        relayAggregations := attempts } allocations remove) where
  phase := rfl
  memory := ⟨funding, pending, attempts, rfl⟩
  records := fun _ hid => AllocationTable.update_find_of_not_mem
    (fun h => hid (hremove h)) fun h => hid (hallocations h)
  names := hnames
  history := List.suffix_cons _ _

/-! ## Preparing a proof -/

theorem unchangedAllocations_reads (hphase : world.phase = .settled)
    (records : List StoredAllocation) :
    Reads config distinct (SdkM.unchangedAllocations records)
      (fun _ _ => ∀ record ∈ records, world.records.find record.id = some record)
      world := by
  induction records generalizing world with
  | nil => exact reads_pure (List.forall_mem_nil _)
  | cons record rest ih =>
      apply (allocation_reads hphase (by simp) record.id).andThen
      rintro stored first hfirst rfl
      apply reads_require.andThen
      intro _ second hsecond hstored
      have hquiet := hfirst.trans hsecond
      apply (ih (hquiet.settled hphase)).mono
      intro _ _ _ hrest
      rw [hquiet.records] at hrest
      exact List.forall_mem_cons.mpr ⟨hstored, hrest⟩

theorem checkReplacement_reads (hphase : world.phase = .settled)
    {previous : Option StoredRelayAggregation}
    {request : PixAggregationRequest Fr} {endpoints : CurvyChainEndpoints}
    {inputs : List StoredNote} {records : List StoredAllocation} :
    Reads config distinct
      (SdkM.checkReplacement previous request endpoints inputs records)
      (fun _ _ => ∀ attempt, previous = some attempt →
        attempt.rebuild = true ∧
        SdkM.replaces attempt request endpoints inputs
          (records.map StoredAllocation.id) = true ∧
        ∀ record ∈ records, world.records.find record.id = some record) world := by
  cases previous with
  | none => exact reads_pure (by simp)
  | some attempt =>
      apply reads_require.andThen
      intro _ first hfirst hrebuild
      apply reads_require.andThen
      intro _ second hsecond hreplaces
      have hquiet := hfirst.trans hsecond
      apply (unchangedAllocations_reads (hquiet.settled hphase) _).mono
      rintro _ _ _ hrecords _ ⟨⟩
      rw [hquiet.records] at hrecords
      exact ⟨hrebuild, hreplaces, hrecords⟩

/-- An attempt as it is journalled. -/
structure FreshAttempt (attempt : StoredRelayAggregation) : Prop where
  unmarked : attempt.rebuild = false
  circuit : attempt.circuit ≠ none

theorem uuid_reads (hphase : world.phase = .settled) :
    Reads config distinct (.call .uuid .pure : SdkM Fr String)
      (fun intent after => LastReported after.history .uuid intent) world :=
  reads_call .uuid hphase rfl

omit [DecidableEq Fr] in
theorem FirstSpend.of_quiet {before after : SdkWorld Fr}
    {inputs : List (OwnedNote Fr)} {records : List StoredAllocation}
    (hspend : FirstSpend config distinct before inputs records)
    (hquiet : Quiet before after) :
    FirstSpend config distinct after inputs records where
  relay := by rw [hquiet.memory]; exact hspend.relay
  operator := by rw [hquiet.memory]; exact hspend.operator
  selected := by rw [hquiet.memory]; exact hspend.selected
  prepared := hspend.prepared
  fresh := fun h => by
    have hfresh := hspend.fresh h
    simp only [FreshRecords, hquiet.memory, hquiet.records]
    exact hfresh

omit [DecidableEq Fr] in
theorem Names.append {ids : List PixAddressId}
    {attempt : StoredRelayAggregation} (hnames : Names ids world)
    (hattempt : attempt.allocationIds ⊆ ids) :
    ∀ other ∈ world.memory.relayAggregations ++ [attempt],
      other.allocationIds ⊆ ids := by
  intro other hother
  rcases List.mem_append.mp hother with hother | hother
  · exact hnames other hother
  · rw [List.mem_singleton] at hother
    exact hother ▸ hattempt

omit [DecidableEq Fr] in
theorem Names.of_quiet {ids : List PixAddressId}
    {before after : SdkWorld Fr} (hnames : Names ids before)
    (hquiet : Quiet before after) : Names ids after := by
  unfold Names
  rw [hquiet.memory]
  exact hnames

omit [DecidableEq Fr] in
theorem replaces_iff {previous : StoredRelayAggregation}
    {request : PixAggregationRequest Fr} {endpoints : CurvyChainEndpoints}
    {inputs : List StoredNote} {allocationIds : List PixAddressId} :
    SdkM.replaces previous request endpoints inputs allocationIds = true ↔
      previous.inputs = inputs ∧ previous.allocationIds = allocationIds ∧
        previous.spendKey = request.spendKey ∧
        previous.chainId = endpoints.chainId ∧
        eqIgnoreAsciiCase previous.aggregator endpoints.aggregator = true := by
  simp [SdkM.replaces, and_assoc]

theorem prepareRelayAggregation_obeys (hphase : world.phase = .settled)
    {request : PixAggregationRequest Fr} {endpoints : CurvyChainEndpoints}
    {inputs : List (OwnedNote Fr)} {records : List StoredAllocation}
    {ids : List PixAddressId} (hnames : Names ids world)
    (hproved : Proved (sinceSave world.history) inputs request)
    (hfirst : world.memory.relayAggregations = [] →
      records.map StoredAllocation.id ⊆ ids ∧
        FirstSpend config distinct world inputs records) :
    Obeyed config distinct
      (SdkM.prepareRelayAggregation config request endpoints inputs records)
      (fun _ after => RelayMoved ids world after ∧
        ∃ attempt, FreshAttempt attempt ∧
          after.memory.relayAggregations =
            world.memory.relayAggregations ++ [attempt])
      (fun _ after => Halted after) world := by
  unfold SdkM.prepareRelayAggregation
  apply obeys_readState hphase
  apply (checkReplacement_reads hphase).chain hphase
  intro _ first hquiet₁ hphase₁ hreplaces
  apply reads_require.chain hphase₁
  intro _ second hquiet₂ hphase₂ hlength
  apply (uuid_reads hphase₂).chain hphase₂
  intro intent third hquiet₃ hphase₃ hintent
  have hquiet := (hquiet₁.trans hquiet₂).trans hquiet₃
  have hmemory := hquiet.memory
  have hids : records.map StoredAllocation.id ⊆ ids := by
    cases hlast : world.memory.relayAggregations.getLast? with
    | none => exact (hfirst (List.getLast?_eq_none_iff.mp hlast)).1
    | some previous =>
        rw [← (replaces_iff.mp (hreplaces previous hlast).2.1).2.1]
        exact hnames previous (List.mem_of_getLast? hlast)
  rw [← hmemory]
  apply obeys_commitLast hphase₃ rfl
  · refine .prepareRelay hintent (hproved.mono hquiet.unsaved)
      (by rw [hmemory]; exact hlength) ?_
    rw [hmemory]
    cases hlast : world.memory.relayAggregations.getLast? with
    | none =>
        exact (hfirst (List.getLast?_eq_none_iff.mp hlast)).2.of_quiet hquiet
    | some previous =>
        rcases hreplaces previous hlast with ⟨hrebuild, hreplaces, hrecords⟩
        exact ⟨hrebuild, hreplaces, by rw [hquiet.records]; exact hrecords⟩
  · constructor
    · apply RelayMoved.after_quiet hquiet
      apply RelayMoved.committed hids (List.nil_subset _)
      rw [hmemory]
      exact hnames.append hids
    · rw [hmemory]
      exact ⟨_, ⟨rfl, Option.some_ne_none _⟩, rfl⟩
  · exact fun _ _ h => h.halted hphase₃

theorem rebuildRelayAggregation_obeys (hphase : world.phase = .settled)
    {ids : List PixAddressId} (hnames : Names ids world)
    (hattempts : world.memory.relayAggregations ≠ []) :
    Obeyed config distinct (SdkM.rebuildRelayAggregation config)
      (fun _ after => RelayMoved ids world after ∧
        ∃ attempt, FreshAttempt attempt ∧
          after.memory.relayAggregations =
            world.memory.relayAggregations ++ [attempt])
      (fun _ after => Halted after) world := by
  unfold SdkM.rebuildRelayAggregation
  apply obeys_readState hphase
  split
  · exact Or.inl hphase
  · apply reads_ofExcept.chain hphase
    intro inputs w₁ hquiet₁ hphase₁ _
    apply (preparedAllocations_reads hphase₁ (by simp) _).chain hphase₁
    intro records w₂ hquiet₂ hphase₂ _
    apply reads_ofExcept.chain hphase₂
    intro allocations w₃ hquiet₃ hphase₃ _
    apply (client_reads hphase₃).chain hphase₃
    intro endpoints w₄ hquiet₄ hphase₄ _
    apply reads_require.chain hphase₄
    intro _ w₅ hquiet₅ hphase₅ _
    apply (token_reads hphase₅).chain hphase₅
    intro token w₆ hquiet₆ hphase₆ _
    apply (relayFeeRecipient_reads hphase₆ _ _).chain hphase₆
    intro relayFee w₇ hquiet₇ hphase₇ _
    apply (feeRecipient_reads hphase₇).chain hphase₇
    intro feeRecipient w₈ hquiet₈ hphase₈ _
    apply (buildPixAggregation_reads hphase₈ _ _ _ _).chain hphase₈
    intro request w₉ hquiet₉ hphase₉ hproved
    have hquiet := ((((((((hquiet₁.trans hquiet₂).trans hquiet₃).trans
      hquiet₄).trans hquiet₅).trans hquiet₆).trans hquiet₇).trans
      hquiet₈).trans hquiet₉)
    apply (prepareRelayAggregation_obeys hphase₉ (hnames.of_quiet hquiet)
      hproved fun h => absurd (hquiet.memory ▸ h) hattempts).mono
    · rintro _ after ⟨hmoved, hattempt⟩
      rw [hquiet.memory] at hattempt
      exact ⟨hmoved.after_quiet hquiet, hattempt⟩
    · exact fun _ _ h => h

/-! ## Saving and settling -/

/-- The world after the last attempt was rewritten. -/
def SdkWorld.rewrote (world : SdkWorld Fr) (cause : AttemptUpdate)
    (rewritten : StoredRelayAggregation) : SdkWorld Fr :=
  world.committed (.saveRelayAttempt cause)
    { world.memory with
      relayAggregations := world.memory.relayAggregations.set
        (world.memory.relayAggregations.length - 1) rewritten } [] []

omit [DecidableEq Fr] in
theorem rewrote_getLast (cause : AttemptUpdate)
    {attempt rewritten : StoredRelayAggregation}
    (hlast : world.memory.relayAggregations.getLast? = some attempt) :
    (world.rewrote cause rewritten).memory.relayAggregations.getLast? =
      some rewritten := by
  rcases List.getLast?_eq_some_iff.mp hlast with ⟨older, holder⟩
  simp [SdkWorld.rewrote, SdkWorld.committed, holder]

omit [DecidableEq Fr] in
@[simp] theorem rewrote_length {cause : AttemptUpdate}
    {rewritten : StoredRelayAggregation} :
    (world.rewrote cause rewritten).memory.relayAggregations.length =
      world.memory.relayAggregations.length := by
  simp [SdkWorld.rewrote, SdkWorld.committed]

omit [DecidableEq Fr] in
theorem rewrote_moved {ids : List PixAddressId} (cause : AttemptUpdate)
    {rewritten : StoredRelayAggregation}
    (hrewritten : rewritten.allocationIds ⊆ ids) (hnames : Names ids world) :
    RelayMoved ids world (world.rewrote cause rewritten) := by
  apply RelayMoved.committed (List.nil_subset _) (List.nil_subset _)
  intro attempt hattempt
  rcases List.mem_or_eq_of_mem_set hattempt with hattempt | rfl
  · exact hnames attempt hattempt
  · exact hrewritten

theorem saveRelayAttempt_obeys (hphase : world.phase = .settled)
    {cause : AttemptUpdate} {index : ℕ}
    {attempt rewritten : StoredRelayAggregation}
    (hindex : index = world.memory.relayAggregations.length - 1)
    (hlast : world.memory.relayAggregations.getLast? = some attempt)
    (hunmarked : attempt.rebuild = false)
    (hstep : AttemptStep world.history
      world.memory.relayAggregations.length attempt cause rewritten) :
    Obeyed config distinct (SdkM.saveRelayAttempt cause index rewritten)
      (fun _ after => after = world.rewrote cause rewritten)
      (fun _ after => Halted after) world := by
  subst hindex
  apply obeys_readState hphase
  apply obeys_commitLast hphase rfl
  · exact .saveRelayAttempt hlast hunmarked hstep
  · rfl
  · exact fun _ _ h => h.halted hphase

omit [DecidableEq Fr] in
/-- A booking completes the records of the ids it was given. -/
theorem CompletedRecords.map_id {ids : List PixAddressId}
    {completed : List StoredAllocation}
    (hcompleted : CompletedRecords world ids completed) :
    completed.map StoredAllocation.id = ids := by
  rcases hcompleted with ⟨records, hrecords, rfl⟩
  rw [List.map_map]
  induction hrecords with
  | nil => rfl
  | cons hhead _ ih =>
      have hkeyed := world.records.keyed _ _ hhead
      rw [List.map_cons, ih]
      exact congrArg (· :: _) hkeyed

omit [DecidableEq Fr] in
theorem CompletedRecords.of_quiet {before after : SdkWorld Fr}
    {ids : List PixAddressId} {completed : List StoredAllocation}
    (hcompleted : CompletedRecords before ids completed)
    (hquiet : Quiet before after) : CompletedRecords after ids completed := by
  unfold CompletedRecords
  rw [hquiet.records]
  exact hcompleted

/-- The journal is settled. -/
structure Settled (ids : List PixAddressId) (before after : SdkWorld Fr) :
    Prop extends RelayMoved ids before after where
  settled : after.memory.relayAggregations = []

theorem bookRelay_obeys (hphase : world.phase = .settled) {index : ℕ}
    {attempt : StoredRelayAggregation} {ids : List PixAddressId}
    (hnames : Names ids world)
    (hattempt : world.memory.relayAggregations[index]? = some attempt)
    (hattempted : attempt.attempted = true)
    (hknown : OutputsKnown config world.history attempt.emitted)
    (hfinal : world.memory.relayAggregations.length > 1 →
      OutputsFinalized config world.history attempt.emitted) :
    Obeyed config distinct (SdkM.finishRelayAggregation config (some index))
      (fun _ after => Settled ids world after)
      (fun _ after => Halted after) world := by
  unfold SdkM.finishRelayAggregation
  apply obeys_readState hphase
  apply reads_require.chain hphase
  intro _ w₁ hquiet₁ hphase₁ _
  simp only [Option.getD_some, hattempt]
  apply reads_ofExcept.chain hphase₁
  intro change w₂ hquiet₂ hphase₂ hchange
  apply (completedAllocations_reads hphase₂ (by simp) _).chain hphase₂
  intro completed w₃ hquiet₃ hphase₃ hcompleted
  have hquiet := (hquiet₁.trans hquiet₂).trans hquiet₃
  have hmemory := hquiet.memory
  have hids : attempt.allocationIds ⊆ ids :=
    hnames attempt (List.mem_of_getElem? hattempt)
  rw [← hmemory]
  apply obeys_commit hphase₃ rfl
  · refine .bookRelay (by rw [hmemory]; exact hattempt) hattempted
      (hknown.mono hquiet.history) (fun h => ?_) hchange ?_
    · rw [hmemory] at h
      exact (hfinal h).mono hquiet.history
    · exact hcompleted.of_quiet hquiet₃
  · refine ⟨RelayMoved.after_quiet hquiet ?_, rfl⟩
    apply RelayMoved.committed _ (List.nil_subset _) (List.forall_mem_nil _)
    rw [hcompleted.map_id]
    exact hids
  · exact fun _ _ h => h.halted hphase₃

theorem releaseRelay_obeys (hphase : world.phase = .settled)
    {attempt : StoredRelayAggregation} {ids : List PixAddressId}
    (hnames : Names ids world)
    (hattempts : world.memory.relayAggregations = [attempt])
    (hunmarked : attempt.rebuild = false)
    (hdead : Refused world.history attempt.intent false ∨
      ∃ text, Awaited world.history attempt (.error (.failed text))) :
    Obeyed config distinct (SdkM.finishRelayAggregation config none)
      (fun _ after => Settled ids world after)
      (fun _ after => Halted after) world := by
  unfold SdkM.finishRelayAggregation
  apply obeys_readState hphase
  apply obeys_require hphase
  intro _
  simp only [Option.getD_none, hattempts, List.getElem?_cons_zero]
  apply obeys_commit hphase rfl (.releaseRelay hattempts hunmarked hdead)
  · refine ⟨?_, rfl⟩
    apply RelayMoved.committed (List.nil_subset _) _ (List.forall_mem_nil _)
    exact hnames attempt (by simp [hattempts])
  · exact fun _ _ h => h.halted hphase

theorem dropRejectedAttempt_obeys (hphase : world.phase = .settled)
    {attempt : StoredRelayAggregation} {ids : List PixAddressId}
    (hnames : Names ids world)
    (hlast : world.memory.relayAggregations.getLast? = some attempt)
    (hattempts : world.memory.relayAggregations.length ≠ 1)
    (hrefused : Refused world.history attempt.intent false) :
    Obeyed config distinct (SdkM.dropRejectedAttempt)
      (fun _ after => RelayMoved ids world after ∧
        after.memory.relayAggregations =
          world.memory.relayAggregations.dropLast)
      (fun _ after => Halted after) world := by
  apply obeys_readState hphase
  apply obeys_commitLast hphase rfl
  · exact .dropRejectedAttempt hlast hattempts hrefused
  · refine ⟨?_, rfl⟩
    apply RelayMoved.committed (List.nil_subset _) (List.nil_subset _)
    exact fun other hother => hnames other (List.mem_of_mem_dropLast hother)
  · exact fun _ _ h => h.halted hphase

/-! ## The winner -/

theorem relayOutputsKnown_reads (hphase : world.phase = .settled)
    (attempt : StoredRelayAggregation) :
    Reads config distinct (SdkM.relayOutputsKnown config attempt)
      (fun known after => known = true → attempt.attempted = true ∧
        OutputsKnown config after.history attempt.emitted) world := by
  unfold SdkM.relayOutputsKnown
  split
  · apply (notesKnown_reads hphase _).mono
    exact fun _ _ _ h hknown => ⟨‹_›, h hknown⟩
  · exact reads_pure (by simp)

theorem relayWinnerFrom_reads (hphase : world.phase = .settled) (index : ℕ)
    (attempts : List StoredRelayAggregation) :
    Reads config distinct (SdkM.relayWinnerFrom config index attempts)
      (fun result after => ∀ winner attempt,
        result = some (winner, attempt) → index ≤ winner ∧
          attempts[winner - index]? = some attempt ∧
          attempt.attempted = true ∧
          OutputsKnown config after.history attempt.emitted) world := by
  induction attempts generalizing index world with
  | nil => exact reads_pure (by simp)
  | cons attempt rest ih =>
      apply (relayOutputsKnown_reads hphase attempt).andThen
      intro known first hfirst hfound
      split
      · rename_i hknown
        apply reads_pure
        rintro winner other ⟨⟩
        refine ⟨le_rfl, ?_, hfound hknown⟩
        simp
      · apply (ih (hfirst.settled hphase) (index + 1)).mono
        intro result last _ hrest winner other hresult
        rcases hrest winner other hresult with ⟨hle, hget, hother⟩
        refine ⟨by omega, ?_, hother⟩
        have hsub : winner - index = winner - (index + 1) + 1 := by omega
        rw [hsub, List.getElem?_cons_succ]
        exact hget

theorem relayWinner_reads (hphase : world.phase = .settled)
    (attempts : List StoredRelayAggregation) :
    Reads config distinct (SdkM.relayWinner config attempts)
      (fun result after => ∀ winner attempt,
        result = some (winner, attempt) →
          attempts[winner]? = some attempt ∧ attempt.attempted = true ∧
          OutputsKnown config after.history attempt.emitted) world :=
  (relayWinnerFrom_reads hphase 0 attempts).mono
    fun _ _ _ h winner attempt hresult => (h winner attempt hresult).2

/-! ## The arms of the loop -/

theorem relayStatus_reads (hphase : world.phase = .settled)
    (requestId : String) :
    Reads config distinct (SdkM.relayStatus requestId)
      (fun reply after => LastReported after.history
        (.relayStatus requestId) reply) world :=
  reads_call (.relayStatus requestId) hphase rfl

theorem relayByIntent_reads (hphase : world.phase = .settled)
    (intent : String) (chainId : ℕ) :
    Reads config distinct (SdkM.relayByIntent intent chainId)
      (fun reply after => LastReported after.history
        (.relayByIntent intent chainId) reply) world :=
  reads_call (.relayByIntent intent chainId) hphase rfl

/-- What the lookup of an attempt says about it. -/
def LookedUp (history : List (SdkEvent Fr)) (pending : StoredRelayAggregation) :
    Except RelayError (Option RelaySubmission) → Prop
  | .ok (some submission) => FoundSubmission history pending submission
  | .ok none => pending.requestId = none ∧
      (pending.attempted = true → LastReported history
        (.relayByIntent pending.intent pending.chainId) (.ok none))
  | .error error =>
      (∃ requestId, pending.requestId = some requestId ∧
          Reported history (.relayStatus requestId) (.error error)) ∨
        LastReported history (.relayByIntent pending.intent pending.chainId)
          (.error error)

theorem lookupRelay_reads (hphase : world.phase = .settled)
    (pending : StoredRelayAggregation) :
    Reads config distinct (SdkM.lookupRelay pending)
      (fun result after => LookedUp after.history pending result) world := by
  unfold SdkM.lookupRelay
  split
  · rename_i requestId hrequest
    apply (relayStatus_reads hphase requestId).andThen
    intro status first hfirst hstatus
    split
    · rename_i lost
      apply (relayByIntent_reads (hfirst.settled hphase) _ _).andThen
      intro found second hsecond hfound
      split
      · exact reads_pure (Or.inr (Or.inl hfound))
      · exact reads_pure (Or.inl ⟨requestId, hrequest,
          hstatus.reported.mono hsecond.history⟩)
      · exact reads_pure (Or.inr hfound)
    · exact reads_pure (Or.inl ⟨requestId, hrequest, hstatus.reported⟩)
    · exact reads_pure (Or.inl ⟨requestId, hrequest, hstatus⟩)
  · rename_i hrequest
    split
    · apply (relayByIntent_reads hphase _ _).mono
      intro result after _ hresult
      rcases result with error | _ | submission
      · exact Or.inr hresult
      · exact ⟨hrequest, fun _ => hresult⟩
      · exact Or.inr (Or.inl hresult)
    · exact reads_pure ⟨hrequest, fun h => absurd h ‹_›⟩

/-- How far the journal is from being settled. -/
def rank (world : SdkWorld Fr) : ℕ :=
  match world.memory.relayAggregations.getLast? with
  | none => 0
  | some attempt => world.memory.relayAggregations.length +
      if attempt.rebuild then 0 else 1

/-- The loop may go round again: the journal is closer to being settled. -/
structure Advanced (ids : List PixAddressId) (before after : SdkWorld Fr) :
    Prop extends RelayMoved ids before after where
  advanced : rank after < rank before

omit [DecidableEq Fr] in
theorem rank_rewrote {cause : AttemptUpdate}
    {attempt rewritten : StoredRelayAggregation}
    (hlast : world.memory.relayAggregations.getLast? = some attempt)
    (hunmarked : attempt.rebuild = false)
    (hmarked : rewritten.rebuild = true) :
    rank (world.rewrote cause rewritten) < rank world := by
  simp [rank, hlast, rewrote_getLast _ hlast, hunmarked, hmarked]

omit [DecidableEq Fr] in
theorem rank_dropped {after : SdkWorld Fr} {attempt : StoredRelayAggregation}
    (hlast : world.memory.relayAggregations.getLast? = some attempt)
    (hunmarked : attempt.rebuild = false)
    (hdropped : after.memory.relayAggregations =
      world.memory.relayAggregations.dropLast) :
    rank after < rank world := by
  have hpos : 0 < world.memory.relayAggregations.length :=
    List.length_pos_of_mem (List.mem_of_getLast? hlast)
  unfold rank
  rw [hlast, hdropped, List.length_dropLast]
  simp only [hunmarked]
  split
  · simp
  · split
    · simp
    · simp
      omega

omit [DecidableEq Fr] in
theorem Advanced.after_quiet {ids : List PixAddressId}
    {first second third : SdkWorld Fr}
    (hadvanced : Advanced ids second third) (hquiet : Quiet first second) :
    Advanced ids first third := by
  refine ⟨hadvanced.toRelayMoved.after_quiet hquiet, ?_⟩
  have hrank : rank second = rank first := by
    simp only [rank, hquiet.memory]
  exact hrank ▸ hadvanced.advanced

theorem restartUnless_obeys {rebuilt : Bool} {error : RelayError}
    {post : SdkM.Turn α → SdkWorld Fr → Prop} (hphase : world.phase = .settled)
    (hpost : rebuilt = false → post .restart world) :
    Obeyed config distinct (SdkM.restartUnless rebuilt error) post
      (fun _ after => Halted after) world := by
  unfold SdkM.restartUnless
  split
  · exact Or.inl hphase
  · exact hpost (by simpa using ‹¬ rebuilt = true›)

/-- The end of an arm which marks the last attempt. -/
theorem mark_obeys (hphase : world.phase = .settled) {rebuilt : Bool}
    {error : RelayError} {cause : AttemptUpdate} {index : ℕ}
    {attempt : StoredRelayAggregation} {ids : List PixAddressId}
    {post : SdkM.Turn α → SdkWorld Fr → Prop} (hnames : Names ids world)
    (hindex : index = world.memory.relayAggregations.length - 1)
    (hlast : world.memory.relayAggregations.getLast? = some attempt)
    (hunmarked : attempt.rebuild = false)
    (hstep : AttemptStep world.history
      world.memory.relayAggregations.length attempt cause
      { attempt with rebuild := true })
    (hpost : ∀ after, rebuilt = false → Advanced ids world after →
      post .restart after) :
    Obeyed config distinct
      (do SdkM.saveRelayAttempt cause index { attempt with rebuild := true }
          SdkM.restartUnless rebuilt error) post
      (fun _ after => Halted after) world := by
  apply Program.Obeys.seq
    (saveRelayAttempt_obeys hphase hindex hlast hunmarked hstep)
  · exact fun _ _ h => h
  · rintro _ _ rfl
    apply restartUnless_obeys rfl
    intro hrebuilt
    apply hpost _ hrebuilt
    refine ⟨rewrote_moved cause ?_ hnames, rank_rewrote hlast hunmarked rfl⟩
    exact hnames attempt (List.mem_of_getLast? hlast)

theorem lookupArm_obeys (hphase : world.phase = .settled) {rebuilt : Bool}
    {index : ℕ} {pending : StoredRelayAggregation}
    {ids : List PixAddressId} (hnames : Names ids world)
    (hindex : index = world.memory.relayAggregations.length - 1)
    (hlast : world.memory.relayAggregations.getLast? = some pending)
    (hunmarked : pending.rebuild = false) :
    Obeyed config distinct (SdkM.lookupArm rebuilt index pending)
      (fun turn after => match turn with
        | .proceed known => Quiet world after ∧
            LookedUp after.history pending (.ok known)
        | .restart => rebuilt = false ∧ Advanced ids world after)
      (fun _ after => Halted after) world := by
  apply (lookupRelay_reads hphase pending).chain hphase
  intro result first hquiet hphase₁ hresult
  split
  · exact ⟨hquiet, hresult⟩
  · rename_i error
    split
    · rename_i hpermits
      apply mark_obeys hphase₁ (hnames.of_quiet hquiet)
      · rw [hquiet.memory]
        exact hindex
      · rw [hquiet.memory]
        exact hlast
      · exact hunmarked
      · exact .lookupRefused hpermits hresult
      · exact fun after hrebuilt hadvanced =>
          ⟨hrebuilt, hadvanced.after_quiet hquiet⟩
    · exact Or.inl hphase₁

/-- The relayer refused the POST just made. -/
theorem refusedArm_obeys (hphase : world.phase = .settled) {rebuilt : Bool}
    {attempts index : ℕ} {wasAttempted : Bool}
    {pending : StoredRelayAggregation} {error : RelayError}
    {ids : List PixAddressId} (hnames : Names ids world)
    (hattempts : attempts = world.memory.relayAggregations.length)
    (hindex : index = world.memory.relayAggregations.length - 1)
    (hlast : world.memory.relayAggregations.getLast? = some pending)
    (hunmarked : pending.rebuild = false)
    (hrefused : Refused world.history pending.intent wasAttempted)
    {post : SdkM.Turn (StoredRelayAggregation × RelaySubmission) →
      SdkWorld Fr → Prop}
    (hpost : ∀ after, rebuilt = false → Advanced ids world after →
      post .restart after) :
    Obeyed config distinct
      (SdkM.refusedArm config rebuilt attempts index wasAttempted pending
        error) post (fun _ after => Halted after) world := by
  unfold SdkM.refusedArm
  split
  · rename_i honly
    rcases honly with ⟨hfirst, hone⟩
    have hattempt : world.memory.relayAggregations = [pending] := by
      rcases List.getLast?_eq_some_iff.mp hlast with ⟨older, holder⟩
      rw [hone, holder] at hattempts
      simp at hattempts
      rw [holder, hattempts]
      rfl
    have hwas : wasAttempted = false := by simpa using hfirst
    apply Program.Obeys.seq (releaseRelay_obeys hphase hnames hattempt
      hunmarked (Or.inl (hwas ▸ hrefused)))
    · exact fun _ _ h => h
    · exact fun _ _ h => Or.inl h.phase
  · split
    · rename_i hwas
      subst hwas
      apply mark_obeys hphase hnames hindex hlast hunmarked
        (.refusedRepost hrefused) hpost
    · rename_i honly hwas
      have hwas : wasAttempted = false := by simpa using hwas
      subst hwas
      apply Program.Obeys.seq (dropRejectedAttempt_obeys hphase hnames hlast
        (fun h => honly ⟨hwas, hattempts.trans h⟩) hrefused)
      · exact fun _ _ h => h
      · rintro _ after ⟨hmoved, hdropped⟩
        apply restartUnless_obeys hmoved.phase
        exact fun hrebuilt => hpost after hrebuilt
          ⟨hmoved, rank_dropped hlast hunmarked hdropped⟩

/-- The attempt was posted and the relayer holds it. -/
structure Posted (ids : List PixAddressId) (before after : SdkWorld Fr)
    (posted : StoredRelayAggregation) (submission : RelaySubmission) : Prop
    extends RelayMoved ids before after where
  last : after.memory.relayAggregations.getLast? = some posted
  length : after.memory.relayAggregations.length =
    before.memory.relayAggregations.length
  unmarked : posted.rebuild = false
  found : FoundSubmission after.history posted submission

omit [DecidableEq Fr] in
theorem Posted.rank_eq {ids : List PixAddressId} {before after : SdkWorld Fr}
    {pending posted : StoredRelayAggregation} {submission : RelaySubmission}
    (hposted : Posted ids before after posted submission)
    (hlast : before.memory.relayAggregations.getLast? = some pending)
    (hunmarked : pending.rebuild = false) : rank after = rank before := by
  simp [rank, hlast, hposted.last, hposted.length, hunmarked,
    hposted.unmarked]

theorem postArm_obeys (hphase : world.phase = .settled) {rebuilt : Bool}
    {attempts index : ℕ} {wasAttempted : Bool}
    {posting : StoredRelayAggregation} {circuit : CircuitRef}
    {ids : List PixAddressId} {state : SdkState}
    {rest : List (SdkEvent Fr)} (hnames : Names ids world)
    (hattempts : attempts = world.memory.relayAggregations.length)
    (hindex : index = world.memory.relayAggregations.length - 1)
    (hlast : world.memory.relayAggregations.getLast? = some posting)
    (hunmarked : posting.rebuild = false)
    (hattempted : posting.attempted = true)
    (hrequest : posting.requestId = none)
    (hhistory : world.history =
      ⟨.saveUpdate (.saveRelayAttempt (.posting wasAttempted)) state [] [],
        .ok ()⟩ :: rest) :
    Obeyed config distinct
      (SdkM.postArm config rebuilt attempts index wasAttempted posting circuit)
      (fun turn after => match turn with
        | .proceed (posted, submission) =>
            Posted ids world after posted submission
        | .restart => rebuilt = false ∧ Advanced ids world after)
      (fun _ after => Halted after) world := by
  have hguard : Guard config distinct world
      (.relaySubmit (posting.body circuit)) :=
    ⟨hphase, fun _ => ⟨posting, circuit, wasAttempted, state, rest, hlast,
      hunmarked, hattempted, hrequest, rfl, hhistory⟩⟩
  refine obeys_external hguard (fun _ => rfl) fun reply _ => ?_
  have hquiet : Quiet world
      (world.record (.relaySubmit (posting.body circuit)) reply) :=
    .record world rfl
  match reply with
  | .ok answer =>
      exact ⟨.of_quiet hquiet hphase hnames, hlast, rfl, hunmarked,
        Or.inr (Or.inr ⟨hrequest, _, answer, rfl, rfl, rfl⟩)⟩
  | .error (.rejected text) =>
      change Obeyed config distinct (SdkM.refusedArm config rebuilt attempts
        index wasAttempted posting (.rejected text)) _ _ _
      apply refusedArm_obeys (hquiet.settled hphase)
        (hnames.of_quiet hquiet) hattempts hindex hlast hunmarked
      · exact ⟨_, text, state, rest, rfl, by rw [← hhistory]; rfl⟩
      · exact fun after hrebuilt hadvanced =>
          ⟨hrebuilt, hadvanced.after_quiet hquiet⟩
  | .error (.missingRequest _) => exact Or.inl hphase
  | .error (.accessDenied _) => exact Or.inl hphase
  | .error (.rateLimited _) => exact Or.inl hphase
  | .error (.transport _) => exact Or.inl hphase
  | .error (.failed _) => exact Or.inl hphase
  | .error (.timeout _ _ _ _) => exact Or.inl hphase

omit [DecidableEq Fr] in
theorem rank_rewrote_unmarked {cause : AttemptUpdate}
    {attempt rewritten : StoredRelayAggregation}
    (hlast : world.memory.relayAggregations.getLast? = some attempt)
    (hunmarked : attempt.rebuild = false)
    (hrewritten : rewritten.rebuild = false) :
    rank (world.rewrote cause rewritten) = rank world := by
  simp [rank, hlast, rewrote_getLast _ hlast, hunmarked, hrewritten]

theorem submitArm_obeys (hphase : world.phase = .settled) {rebuilt : Bool}
    {attempts index : ℕ} {pending : StoredRelayAggregation}
    {ids : List PixAddressId} (hnames : Names ids world)
    (hattempts : attempts = world.memory.relayAggregations.length)
    (hindex : index = world.memory.relayAggregations.length - 1)
    (hlast : world.memory.relayAggregations.getLast? = some pending)
    (hunmarked : pending.rebuild = false)
    (hcircuit : rebuilt = true → pending.circuit ≠ none)
    (hlookup : LookedUp world.history pending (.ok none)) :
    Obeyed config distinct
      (SdkM.submitArm config rebuilt attempts index pending)
      (fun turn after => match turn with
        | .proceed (posted, submission) =>
            Posted ids world after posted submission
        | .restart => rebuilt = false ∧ Advanced ids world after)
      (fun _ after => Halted after) world := by
  have hids := hnames pending (List.mem_of_getLast? hlast)
  unfold SdkM.submitArm
  split
  · rename_i hmissing
    apply Program.Obeys.seq (saveRelayAttempt_obeys hphase hindex hlast
      hunmarked (.missingCircuit hmissing))
    · exact fun _ _ h => h
    · rintro _ _ rfl
      refine ⟨?_, rewrote_moved .missingCircuit hids hnames,
        rank_rewrote hlast hunmarked rfl⟩
      by_contra h
      exact hcircuit (by simpa using h) hmissing
  · rename_i circuit hsome
    apply Program.Obeys.seq (saveRelayAttempt_obeys hphase hindex hlast
      hunmarked (.posting hlookup.1 hlookup.2))
    · exact fun _ _ h => h
    · rintro _ after rfl
      have hmoved := rewrote_moved (.posting pending.attempted)
        (show StoredRelayAggregation.allocationIds
          { pending with attempted := true } ⊆ ids from hids) hnames
      apply (postArm_obeys rfl hmoved.names _ _
        (rewrote_getLast _ hlast) hunmarked rfl hlookup.1 rfl).mono
      · intro turn after hturn
        cases turn with
        | proceed answer =>
            exact ⟨hmoved.trans hturn.toRelayMoved, hturn.last,
              hturn.length.trans rewrote_length, hturn.unmarked, hturn.found⟩
        | restart =>
            refine ⟨hturn.1, hmoved.trans hturn.2.toRelayMoved, ?_⟩
            exact hturn.2.advanced.trans_eq
              (rank_rewrote_unmarked hlast hunmarked hunmarked)
      · exact fun _ _ h => h
      · exact hattempts.trans rewrote_length.symm
      · exact hindex.trans (congrArg (· - 1) rewrote_length.symm)

end HoprStrategy.Curvy
