import HoprStrategy.CurvyRelayLoop

/-!
# Traversal of operator submission

An attempt of the operator journal is journalled, broadcast and booked within
one call, or left for the next call to settle.  The aggregation a former
version left behind is settled the same way.
-/

namespace HoprStrategy.Curvy

open Library SdkWorld

variable {Fr : Type} [DecidableEq Fr] {config : SdkConfig Fr}
  {distinct : Prop} {world : SdkWorld Fr} {α β : Type}

/-- Only the journals, and what booking them changes, have moved. -/
structure Moved (ids : List PixAddressId) (before after : SdkWorld Fr) :
    Prop where
  phase : after.phase = .settled
  memory : ∃ funding pending relay operator, after.memory =
    { before.memory with
      funding := funding
      pending := pending
      relayAggregations := relay
      operatorAggregations := operator }
  records : ∀ id, id ∉ ids → after.records.find id = before.records.find id
  history : before.history <:+ after.history

omit [DecidableEq Fr] in
theorem Moved.of_quiet {before after : SdkWorld Fr}
    (hquiet : Quiet before after) (hphase : before.phase = .settled)
    (ids : List PixAddressId) : Moved ids before after where
  phase := hquiet.settled hphase
  memory := ⟨_, _, _, _, hquiet.memory⟩
  records := fun _ _ => by rw [hquiet.records]
  history := hquiet.history

omit [DecidableEq Fr] in
theorem Moved.of_tidied {before after : SdkWorld Fr}
    (htidied : Tidied before after) (ids : List PixAddressId) :
    Moved ids before after where
  phase := htidied.phase
  memory := by
    rcases htidied.memory with ⟨pending, hmemory⟩
    exact ⟨_, pending, _, _, hmemory⟩
  records := fun _ _ => by rw [htidied.records]
  history := htidied.history

omit [DecidableEq Fr] in
theorem RelayMoved.moved {ids : List PixAddressId}
    {before after : SdkWorld Fr} (hmoved : RelayMoved ids before after) :
    Moved ids before after where
  phase := hmoved.phase
  memory := by
    rcases hmoved.memory with ⟨funding, pending, relay, hmemory⟩
    exact ⟨funding, pending, relay, _, hmemory⟩
  records := hmoved.records
  history := hmoved.history

omit [DecidableEq Fr] in
theorem Moved.trans {ids : List PixAddressId}
    {first second third : SdkWorld Fr} (hfirst : Moved ids first second)
    (hsecond : Moved ids second third) : Moved ids first third where
  phase := hsecond.phase
  memory := by
    rcases hfirst.memory with ⟨_, _, _, _, hmemory⟩
    rcases hsecond.memory with ⟨funding, pending, relay, operator, hlast⟩
    exact ⟨funding, pending, relay, operator, by rw [hlast, hmemory]⟩
  records := fun id hid =>
    (hsecond.records id hid).trans (hfirst.records id hid)
  history := hfirst.history.trans hsecond.history

omit [DecidableEq Fr] in
theorem Moved.committed {ids : List PixAddressId} {update : Update}
    {funding pending : List StoredNote}
    {relay : List StoredRelayAggregation}
    {operator : List StoredOperatorAggregation}
    {allocations : List StoredAllocation} {remove : List PixAddressId}
    (hallocations : allocations.map StoredAllocation.id ⊆ ids)
    (hremove : remove ⊆ ids) :
    Moved ids world (world.committed update
      { world.memory with
        funding := funding
        pending := pending
        relayAggregations := relay
        operatorAggregations := operator } allocations remove) where
  phase := rfl
  memory := ⟨funding, pending, relay, operator, rfl⟩
  records := fun _ hid => AllocationTable.update_find_of_not_mem
    (fun h => hid (hremove h)) fun h => hid (hallocations h)
  history := List.suffix_cons _ _

/-- The operator journal names no other allocations. -/
def OperatorNames (ids : List PixAddressId) (world : SdkWorld Fr) : Prop :=
  ∀ attempt ∈ world.memory.operatorAggregations, attempt.allocationIds ⊆ ids

omit [DecidableEq Fr] in
theorem competesWith_iff {previous attempt : StoredOperatorAggregation} :
    SdkM.competesWith previous attempt = true ↔
      previous.inputs = attempt.inputs ∧
        previous.allocationIds = attempt.allocationIds ∧
        previous.chainId = attempt.chainId ∧
        eqIgnoreAsciiCase previous.aggregator attempt.aggregator = true := by
  simp [SdkM.competesWith, and_assoc]

/-! ## Journalling and booking -/

/-- The operator journal settled, and the relay journal untouched. -/
structure OperatorSettled (ids : List PixAddressId)
    (before after : SdkWorld Fr) : Prop extends Moved ids before after where
  relay : after.memory.relayAggregations = before.memory.relayAggregations
  settled : after.memory.operatorAggregations = []

omit [DecidableEq Fr] in
theorem OperatorSettled.after_quiet {ids : List PixAddressId}
    {first second third : SdkWorld Fr}
    (hsettled : OperatorSettled ids second third)
    (hquiet : Quiet first second) (hphase : first.phase = .settled) :
    OperatorSettled ids first third where
  toMoved := (Moved.of_quiet hquiet hphase ids).trans hsettled.toMoved
  relay := by rw [hsettled.relay, hquiet.memory]
  settled := hsettled.settled

omit [DecidableEq Fr] in
theorem OperatorSettled.tidied {ids : List PixAddressId}
    {first second third : SdkWorld Fr}
    (hsettled : OperatorSettled ids first second)
    (htidied : Tidied second third) : OperatorSettled ids first third where
  toMoved := hsettled.toMoved.trans (.of_tidied htidied ids)
  relay := by
    rcases htidied.memory with ⟨pending, hmemory⟩
    rw [hmemory]
    exact hsettled.relay
  settled := by
    rcases htidied.memory with ⟨pending, hmemory⟩
    rw [hmemory]
    exact hsettled.settled

theorem bookOperator_obeys (hphase : world.phase = .settled) {index : ℕ}
    {attempt : StoredOperatorAggregation} {ids : List PixAddressId}
    (hids : attempt.allocationIds ⊆ ids)
    (hattempt : world.memory.operatorAggregations[index]? = some attempt)
    (hwinner : OutputsKnown config world.history attempt.emitted ∨
      ∃ endpoints request inputs records ledger,
        attempt = SdkM.operatorAttempt config endpoints request inputs
          records ∧
        Reported world.history (.submitPixAggregation request) (.ok ledger))
    (hfinal : world.memory.operatorAggregations.length > 1 →
      OutputsFinalized config world.history attempt.emitted) :
    Obeyed config distinct (SdkM.finishOperatorAggregation config (some index))
      (fun _ after => OperatorSettled ids world after)
      (fun _ after => Halted after) world := by
  apply obeys_readState hphase
  simp only [Option.getD_some, hattempt]
  apply reads_ofExcept.chain hphase
  intro change first hfirst hphase₁ hchange
  apply (completedAllocations_reads hphase₁ (by simp) _).chain hphase₁
  intro completed second hsecond hphase₂ hcompleted
  have hquiet := hfirst.trans hsecond
  have hmemory := hquiet.memory
  rw [← hmemory]
  apply obeys_commitLast hphase₂ rfl
  · refine .bookOperator (by rw [hmemory]; exact hattempt) ?_ ?_ hchange
      (hcompleted.of_quiet hsecond)
    · rcases hwinner with hknown |
        ⟨endpoints, request, inputs, records, ledger, rfl, hledger⟩
      · exact Or.inl (hknown.mono hquiet.history)
      · exact Or.inr ⟨endpoints, request, inputs, records, ledger, rfl,
          hledger.mono hquiet.history⟩
    · intro h
      rw [hmemory] at h
      exact (hfinal h).mono hquiet.history
  · apply OperatorSettled.after_quiet _ hquiet hphase
    refine ⟨?_, rfl, rfl⟩
    apply Moved.committed _ (List.nil_subset _)
    rw [hcompleted.map_id]
    exact hids
  · exact fun _ _ h => h.halted hphase₂

theorem dropOperatorAttempt_obeys (hphase : world.phase = .settled)
    {endpoints : CurvyChainEndpoints} {request : PixAggregationRequest Fr}
    {inputs : List (OwnedNote Fr)} {records : List StoredAllocation}
    {older : List StoredOperatorAggregation} {message : String}
    (hattempts : world.memory.operatorAggregations = older ++
      [SdkM.operatorAttempt config endpoints request inputs records])
    (hfailed : LastReported world.history (.submitPixAggregation request)
      (.error ⟨message, false⟩)) :
    Obeyed config distinct
      (SdkM.dropOperatorAttempt config older.length)
      (fun _ after => after.phase = .settled) (fun _ after => Halted after)
      world := by
  have hevidence : ∃ endpoints' request' inputs' records' message',
      SdkM.operatorAttempt config endpoints request inputs records =
        SdkM.operatorAttempt config endpoints' request' inputs' records' ∧
      LastReported world.history (.submitPixAggregation request')
        (.error ⟨message', false⟩) :=
    ⟨endpoints, request, inputs, records, message, rfl, hfailed⟩
  apply obeys_readState hphase
  split
  · rename_i hone
    have holder : older = [] := by
      rw [hattempts] at hone
      simpa using hone
    rw [holder, List.nil_append] at hattempts
    apply obeys_readState hphase
    simp only [Option.getD_none, hattempts, List.getElem?_cons_zero]
    apply obeys_commitLast hphase rfl (.releaseOperator hattempts hevidence)
    · rfl
    · exact fun _ _ h => h.halted hphase
  · rename_i hmany
    have hlength : older.length =
        world.memory.operatorAggregations.length - 1 := by
      simp [hattempts]
    rw [hlength]
    apply obeys_commitLast hphase rfl
    · refine .dropOperatorAttempt ?_ hmany hevidence
      rw [hattempts, List.getLast?_concat]
    · rfl
    · exact fun _ _ h => h.halted hphase

theorem prepareOperatorAggregation_obeys (hphase : world.phase = .settled)
    {endpoints : CurvyChainEndpoints} {request : PixAggregationRequest Fr}
    {inputs : List (OwnedNote Fr)} {records : List StoredAllocation}
    {ids : List PixAddressId}
    (hids : records.map StoredAllocation.id ⊆ ids)
    (hproved : Proved (sinceSave world.history) inputs request)
    (hrelay : world.memory.relayAggregations = [])
    (hfirst : world.memory.operatorAggregations = [] →
      FirstSpend config distinct world inputs records)
    (hstored : world.memory.operatorAggregations ≠ [] →
      ∀ record ∈ records, world.records.find record.id = some record) :
    Obeyed config distinct
      (SdkM.prepareOperatorAggregation
        (SdkM.operatorAttempt config endpoints request inputs records) records)
      (fun index after => Moved ids world after ∧
        after.memory.relayAggregations = [] ∧
        index = world.memory.operatorAggregations.length ∧
        after.memory.operatorAggregations =
          world.memory.operatorAggregations ++
            [SdkM.operatorAttempt config endpoints request inputs records])
      (fun _ after => Halted after) world := by
  apply obeys_readState hphase
  apply obeys_require hphase
  intro hcompetes
  apply obeys_require hphase
  intro hlength
  apply obeys_commit hphase rfl
  · refine .prepareOperator hproved hrelay hlength ?_
    cases hlast : world.memory.operatorAggregations.getLast? with
    | none => exact hfirst (List.getLast?_eq_none_iff.mp hlast)
    | some previous =>
        rw [hlast] at hcompetes
        exact ⟨hcompetes,
          hstored (List.ne_nil_of_mem (List.mem_of_getLast? hlast))⟩
  · exact ⟨Moved.committed hids (List.nil_subset _), hrelay, rfl, rfl⟩
  · exact fun _ _ h => h.halted hphase

theorem submitOperatorAggregation_obeys (hphase : world.phase = .settled)
    {endpoints : CurvyChainEndpoints} {request : PixAggregationRequest Fr}
    {inputs : List (OwnedNote Fr)} {records : List StoredAllocation}
    {ids : List PixAddressId}
    (hids : records.map StoredAllocation.id ⊆ ids)
    (hproved : Proved (sinceSave world.history) inputs request)
    (hrelay : world.memory.relayAggregations = [])
    (hfirst : world.memory.operatorAggregations = [] →
      FirstSpend config distinct world inputs records)
    (hstored : world.memory.operatorAggregations ≠ [] →
      ∀ record ∈ records, world.records.find record.id = some record) :
    Obeyed config distinct
      (SdkM.submitOperatorAggregation config endpoints request inputs records)
      (fun _ after => OperatorSettled ids world after)
      (fun _ after => Halted after) world := by
  apply Program.Obeys.seq (prepareOperatorAggregation_obeys hphase hids
    hproved hrelay hfirst hstored) fun _ _ h => h
  rintro _ first ⟨hmoved, hrelay₁, rfl, happend⟩
  have hlast : first.memory.operatorAggregations.getLast? =
      some (SdkM.operatorAttempt config endpoints request inputs records) := by
    rw [happend, List.getLast?_concat]
  have hguard : Guard config distinct first (.submitPixAggregation request) :=
    ⟨hmoved.phase, endpoints, inputs, records, _, hlast, rfl⟩
  refine obeys_external hguard (fun _ => rfl) fun reply _ => ?_
  have hquiet : Quiet first
      (first.record (.submitPixAggregation request) reply) :=
    .record first rfl
  have hphase₂ := hquiet.settled hmoved.phase
  match reply with
  | .ok ledger =>
      apply (confirmWinner_reads hphase₂ _ _).chain hphase₂
      intro _ third hthird hphase₃ hfinal
      have hmemory := (hquiet.trans hthird).memory
      apply Program.Obeys.seq (bookOperator_obeys hphase₃
        (show (SdkM.operatorAttempt config endpoints request inputs
          records).allocationIds ⊆ ids from hids) _ _ _) fun _ _ h => h
      · intro _ last hsettled
        have hsettled := hsettled.after_quiet (hquiet.trans hthird)
          hmoved.phase
        refine ⟨hmoved.trans hsettled.toMoved, ?_, hsettled.settled⟩
        rw [hsettled.relay, hrelay₁, hrelay]
      · rw [hmemory, happend]
        simp
      · refine Or.inr ⟨endpoints, request, inputs, records, ledger, rfl, ?_⟩
        exact Reported.mono List.mem_cons_self hthird.history
      · intro hmany
        apply hfinal
        rw [hmemory, happend] at hmany
        simpa using hmany
  | .error failure =>
      change Obeyed config distinct
        (if failure.ambiguous = true then .throw (.sdk failure.message)
          else do
            SdkM.dropOperatorAttempt config
              world.memory.operatorAggregations.length
            .throw (.sdk failure.message)) _ _ _
      split
      · exact Or.inl hphase₂
      · rename_i hdefinite
        rcases failure with ⟨message, ambiguous⟩
        simp only [Bool.not_eq_true] at hdefinite
        subst hdefinite
        apply Program.Obeys.seq (dropOperatorAttempt_obeys hphase₂ happend
          rfl) fun _ _ h => h
        exact fun _ _ h => Or.inl h

/-! ## Settling the operator journal -/

theorem operatorWinnerFrom_reads (hphase : world.phase = .settled)
    (index : ℕ) (attempts : List StoredOperatorAggregation) :
    Reads config distinct (SdkM.operatorWinnerFrom config index attempts)
      (fun result after => ∀ winner attempt,
        result = some (winner, attempt) → index ≤ winner ∧
          attempts[winner - index]? = some attempt ∧
          OutputsKnown config after.history attempt.emitted) world := by
  induction attempts generalizing index world with
  | nil => exact reads_pure (by simp)
  | cons attempt rest ih =>
      apply (notesKnown_reads hphase attempt.emitted).andThen
      intro known first hfirst hfound
      split
      · rename_i hknown
        apply reads_pure
        rintro winner other ⟨⟩
        refine ⟨le_rfl, ?_, hfound hknown⟩
        simp
      · apply (ih (hfirst.settled hphase) (index + 1)).mono
        intro result last _ hrest winner other hresult
        rcases hrest winner other hresult with ⟨hle, hget, hother⟩
        refine ⟨by omega, ?_, hother⟩
        have hsub : winner - index = winner - (index + 1) + 1 := by omega
        rw [hsub, List.getElem?_cons_succ]
        exact hget

theorem retryOperatorAggregation_obeys (hphase : world.phase = .settled)
    {ids : List PixAddressId} (hnames : OperatorNames ids world)
    (hrelay : world.memory.relayAggregations = [])
    (hattempts : world.memory.operatorAggregations ≠ []) :
    Obeyed config distinct (SdkM.retryOperatorAggregation config)
      (fun _ after => OperatorSettled ids world after)
      (fun _ after => Halted after) world := by
  apply obeys_readState hphase
  split
  · exact Or.inl hphase
  rename_i pending hlast
  have hids := hnames pending (List.mem_of_getLast? hlast)
  apply reads_ofExcept.chain hphase
  intro inputs w₁ hquiet₁ hphase₁ _
  apply (preparedAllocations_reads hphase₁ (by simp) _).chain hphase₁
  intro records w₂ hquiet₂ hphase₂ hrecords
  apply reads_ofExcept.chain hphase₂
  intro allocations w₃ hquiet₃ hphase₃ _
  apply (client_reads hphase₃).chain hphase₃
  intro endpoints w₄ hquiet₄ hphase₄ _
  apply (feeRecipient_reads hphase₄).chain hphase₄
  intro feeRecipient w₅ hquiet₅ hphase₅ _
  apply (buildPixAggregation_reads hphase₅ _ _ _ _).chain hphase₅
  intro request w₆ hquiet₆ hphase₆ hproved
  have hquiet := ((((hquiet₁.trans hquiet₂).trans hquiet₃).trans
    hquiet₄).trans hquiet₅).trans hquiet₆
  have hmemory := hquiet.memory
  rw [hquiet₁.records] at hrecords
  have hkeyed : ∀ record ∈ records, record.id ∈ pending.allocationIds ∧
      world.records.find record.id = some record := by
    intro record hrecord
    rcases exists_of_forall₂ hrecords.flip hrecord with ⟨id, hid, hfind⟩
    have hkey := world.records.keyed _ _ hfind
    exact ⟨hkey ▸ hid, hkey.symm ▸ hfind⟩
  apply Program.Obeys.seq (submitOperatorAggregation_obeys hphase₆ _ hproved
    (by rw [hmemory]; exact hrelay) _ _) fun _ _ h => h
  · intro ledger w₇ hsettled
    apply Program.Obeys.seq (recoverPending_obeys hsettled.phase)
      fun _ _ h => h
    exact fun _ _ htidied => (hsettled.after_quiet hquiet hphase).tidied
      htidied
  · intro id hid
    rcases List.mem_map.mp hid with ⟨record, hrecord, rfl⟩
    exact hids (hkeyed record hrecord).1
  · rw [hmemory]
    exact fun h => absurd h hattempts
  · intro _ record hrecord
    rw [hquiet.records]
    exact (hkeyed record hrecord).2

theorem reconcileOperatorAggregation_obeys (hphase : world.phase = .settled)
    {ids : List PixAddressId} (hnames : OperatorNames ids world)
    (hrelay : world.memory.relayAggregations = []) :
    Obeyed config distinct (SdkM.reconcileOperatorAggregation config)
      (fun _ after => OperatorSettled ids world after)
      (fun _ after => Halted after) world := by
  apply obeys_readState hphase
  dsimp only
  split
  · rename_i hempty
    exact ⟨Moved.of_quiet (Quiet.refl world) hphase ids, rfl,
      List.isEmpty_iff.mp hempty⟩
  rename_i hsome
  apply (client_reads hphase).chain hphase
  intro endpoints w₁ hquiet₁ hphase₁ _
  apply obeys_require hphase₁
  intro _
  apply (operatorWinnerFrom_reads hphase₁ 0 _).chain hphase₁
  intro winner w₂ hquiet₂ hphase₂ hwinner
  have hquiet := hquiet₁.trans hquiet₂
  rcases winner with _ | ⟨winner, attempt⟩
  · apply obeys_require hphase₂
    intro _
    have hnames₂ : OperatorNames ids w₂ := by
      unfold OperatorNames
      rw [hquiet.memory]
      exact hnames
    apply Program.Obeys.seq (retryOperatorAggregation_obeys hphase₂ hnames₂
      _ _) fun _ _ h => h
    · exact fun _ _ hsettled => hsettled.after_quiet hquiet hphase
    · rw [hquiet.memory]
      exact hrelay
    · rw [hquiet.memory]
      simpa using hsome
  · rcases hwinner winner attempt rfl with ⟨_, hattempt, hknown⟩
    apply (confirmWinner_reads hphase₂ _ _).chain hphase₂
    intro _ w₃ hquiet₃ hphase₃ hfinal
    have hquiet := hquiet.trans hquiet₃
    rw [← hquiet.memory] at hattempt hfinal
    have hids := hnames attempt (by
      rw [← hquiet.memory]
      exact List.mem_of_getElem? hattempt)
    apply Program.Obeys.seq (bookOperator_obeys hphase₃ hids hattempt
      (Or.inl (hknown.mono hquiet₃.history)) hfinal) fun _ _ h => h
    intro _ w₄ hsettled
    apply Program.Obeys.seq (recoverPending_obeys hsettled.phase)
      fun _ _ h => h
    exact fun _ _ htidied =>
      (hsettled.after_quiet hquiet hphase).tidied htidied

/-! ## The legacy ambiguous aggregation -/

theorem anyObserved_reads (hphase : world.phase = .settled)
    (notes : List (OwnedNote Fr)) :
    Reads config distinct (SdkM.anyObserved config notes) (fun _ _ => True)
      world := by
  induction notes generalizing world with
  | nil => exact reads_pure trivial
  | cons note rest ih =>
      apply (noteStatus_reads hphase _).andThen
      intro status first hfirst _
      split
      · exact reads_pure trivial
      · exact ih (hfirst.settled hphase)

/-- Memory is ahead of the disk while the records are read, so a failure
leaves the change in memory alone. -/
theorem completions_obeys (hphase : world.phase = .mutated)
    {ids : List PixAddressId}
    (hids : ids ⊆ world.memory.ambiguousAllocationIds) :
    Obeyed config distinct
      (SdkM.preparedAllocations (.completion .bookAmbiguous) ids)
      (fun records after => Quiet world after ∧ List.Forall₂
        (fun id record => world.records.find id = some record) ids records ∧
        ∀ id ∈ ids, CompletionRead after.history id)
      (fun _ after => after.phase = .lost) world := by
  induction ids generalizing world with
  | nil => exact ⟨Quiet.refl world, List.Forall₂.nil, List.forall_mem_nil _⟩
  | cons id rest ih =>
      refine Program.obeys_call
        (Or.inr ⟨hphase, rfl, hids List.mem_cons_self⟩) ?_
      rintro reply after ⟨hpermits, rfl⟩
      have hstranded : ∀ reply : Except String (Option StoredAllocation),
          (world.stranded.record
            (.allocation (.completion .bookAmbiguous) id) reply).phase =
              .lost := by
        intro reply
        simp [SdkWorld.record, stranded, hphase]
      rcases reply with error | _ | record
      · exact hstranded _
      · exact hstranded _
      · have hquiet : Quiet world (world.record (.allocation
            (.completion .bookAmbiguous) id) (.ok (some record))) :=
          .record world rfl
        have hfind : world.records.find id = some record := by
          rcases hpermits with h | ⟨error, h⟩
          · exact (Except.ok.inj h).symm
          · cases h
        apply Program.Obeys.seq (ih (hquiet.phase.trans hphase)
          fun _ h => hids (List.mem_cons_of_mem _ h)) fun _ _ h => h
        rintro records last ⟨hlast, hrecords, hread⟩
        rw [hquiet.records] at hrecords
        refine ⟨hquiet.trans hlast, List.Forall₂.cons hfind hrecords, ?_⟩
        have hfirst : CompletionRead last.history id :=
          ⟨record, Reported.mono List.mem_cons_self hlast.history⟩
        exact List.forall_mem_cons.mpr ⟨hfirst, hread⟩

theorem completedAllocations_obeys (hphase : world.phase = .mutated)
    {ids : List PixAddressId}
    (hids : ids ⊆ world.memory.ambiguousAllocationIds) :
    Obeyed config distinct (SdkM.completedAllocations .bookAmbiguous ids)
      (fun completed after => Quiet world after ∧
        CompletedRecords world ids completed ∧
        ∀ id ∈ ids, CompletionRead after.history id)
      (fun _ after => after.phase = .lost) world :=
  Program.Obeys.seq (completions_obeys hphase hids) (fun _ _ h => h)
    fun records _ h => ⟨h.1, ⟨records, h.2.1, rfl⟩, h.2.2⟩

/-- Nothing of the journals has changed. -/
structure JournalsKept (before after : SdkWorld Fr) : Prop where
  phase : after.phase = .settled
  relay : after.memory.relayAggregations = before.memory.relayAggregations
  operator : after.memory.operatorAggregations =
    before.memory.operatorAggregations

omit [DecidableEq Fr] in
theorem JournalsKept.of_quiet {before after : SdkWorld Fr}
    (hquiet : Quiet before after) (hphase : before.phase = .settled) :
    JournalsKept before after :=
  ⟨hquiet.settled hphase, by rw [hquiet.memory], by rw [hquiet.memory]⟩

omit [DecidableEq Fr] in
theorem JournalsKept.tidied {first second third : SdkWorld Fr}
    (hkept : JournalsKept first second) (htidied : Tidied second third) :
    JournalsKept first third := by
  rcases htidied.memory with ⟨pending, hmemory⟩
  exact ⟨htidied.phase, by rw [hmemory]; exact hkept.relay,
    by rw [hmemory]; exact hkept.operator⟩

theorem bookAmbiguous_obeys (hphase : world.phase = .settled)
    (hambiguous : world.memory.ambiguousAllocation = true)
    (inputs : List StoredNote) (change : StoredNote)
    (emitted : List StoredNote) {ids : List PixAddressId}
    (hids : ids ⊆ world.memory.ambiguousAllocationIds) :
    Obeyed config distinct (SdkM.bookAmbiguous inputs change emitted ids)
      (fun _ after => JournalsKept world after) (fun _ after => Halted after)
      world := by
  apply obeys_readState hphase
  refine Program.obeys_call (Or.inr (Or.inl
    ⟨hphase, .bookAmbiguous hambiguous⟩)) ?_
  rintro _ first ⟨_, rfl⟩
  have hmutated : (world.after (.writeState
      { world.memory with
        funding := world.memory.fundingAfter inputs [change]
        pending := world.memory.pending ++ emitted
        ambiguousAllocation := false
        ambiguousInputs := []
        ambiguousChange := none
        ambiguousEmitted := [] }) ()).phase = .mutated := by
    simp [SdkWorld.after, assigned, hphase]
  apply Program.Obeys.seq (completedAllocations_obeys hmutated hids)
    fun _ _ h => Or.inr h
  rintro completed second ⟨hquiet, hrecords, hread⟩
  have hphase₂ : second.phase = .mutated := hquiet.phase.trans hmutated
  refine Program.obeys_call (Or.inr (Or.inr ⟨hphase₂, ?_⟩)) ?_
  · rw [hquiet.memory]
    rfl
  rintro _ third ⟨_, rfl⟩
  refine Program.obeys_call (Or.inl ⟨?_, rfl, rfl, rfl, ids, ?_, hread⟩) ?_
  · simp [SdkWorld.after, assigned, hphase₂]
  · unfold CompletedRecords at hrecords ⊢
    simp only [SdkWorld.after, assigned, hquiet.records]
    exact hrecords
  rintro reply last ⟨_, rfl⟩
  cases (reply : Except String Unit) with
  | error error =>
      refine Or.inr ?_
      simp [SdkWorld.after, assigned, hphase₂, stranded, SdkWorld.record]
  | ok value =>
      refine ⟨?_, rfl, rfl⟩
      simp [SdkWorld.after, assigned, hphase₂, saved, SdkWorld.record]

theorem reconcileAmbiguousAllocation_obeys (hphase : world.phase = .settled) :
    Obeyed config distinct (SdkM.reconcileAmbiguousAllocation config)
      (fun _ after => JournalsKept world after) (fun _ after => Halted after)
      world := by
  apply (client_reads hphase).chain hphase
  intro _ first hfirst hphase₁ _
  have hkept := JournalsKept.of_quiet hfirst hphase
  apply obeys_readState hphase₁
  split
  · exact hkept
  rename_i hambiguous
  split
  · exact hkept
  split
  · exact hkept
  rename_i change hchange
  apply reads_ofExcept.chain hphase₁
  intro notes second hsecond hphase₂ _
  apply (anyObserved_reads hphase₂ notes).chain hphase₂
  intro observed third hthird hphase₃ _
  have hquiet := (hfirst.trans hsecond).trans hthird
  have hmemory := (hsecond.trans hthird).memory
  split
  · rw [← hmemory] at hambiguous
    apply Program.Obeys.seq (bookAmbiguous_obeys hphase₃
      (by simpa using hambiguous) _ _ _
      (by rw [← hmemory]; exact List.Subset.refl _)) fun _ _ h => h
    intro _ fourth hbooked
    apply Program.Obeys.seq (recoverPending_obeys hbooked.phase)
      fun _ _ h => h
    intro _ last htidied
    have hlast := hbooked.tidied htidied
    exact ⟨hlast.phase, by rw [hlast.relay, hquiet.memory],
      by rw [hlast.operator, hquiet.memory]⟩
  · exact JournalsKept.of_quiet hquiet hphase

end HoprStrategy.Curvy
