import HoprStrategy.CurvyOperatorTraversal

/-!
# Traversal of allocation and withdrawal

Every chunk starts with both journals settled and ends that way.  Its records
are those of the batch's pre-check, as long as the batch names no id twice.
-/

namespace HoprStrategy.Curvy

open Library SdkWorld

variable {Fr : Type} [DecidableEq Fr] {config : SdkConfig Fr}
  {distinct : Prop} {world : SdkWorld Fr} {α β : Type}

/-! ## The pre-check -/

/-- The deposit may be prepared: it is new, or a preparation of it was cut
short. -/
def Preparable (records : AllocationTable) (journalled : List PixAddressId)
    (deposit : Deposit) : Prop :=
  records.find deposit.id = none ∨
    ∃ existing, records.find deposit.id = some existing ∧
      existing.matches deposit = true ∧ existing.stage = .prepared ∧
      deposit.id ∉ journalled

theorem precheckDeposits_reads (hphase : world.phase = .settled)
    (journalled : List PixAddressId) (deposits : List Deposit) :
    Reads config distinct (SdkM.precheckDeposits journalled deposits)
      (fun result _ => result.1.Sublist deposits ∧
        (∀ deposit ∈ result.1, Preparable world.records journalled deposit) ∧
        (result.2 = false → ∀ deposit ∈ deposits, ∀ record,
          world.records.find deposit.id = some record →
            record.stage = .prepared))
      world := by
  induction deposits generalizing world with
  | nil =>
      exact reads_pure ⟨List.Sublist.slnil, List.forall_mem_nil _,
        fun _ => List.forall_mem_nil _⟩
  | cons deposit rest ih =>
      apply (allocation_reads hphase (by simp) deposit.id).andThen
      rintro found first hfirst rfl
      have hphase₁ := hfirst.settled hphase
      have hrest := ih hphase₁
      rw [hfirst.records] at hrest
      cases hfound : world.records.find deposit.id with
      | none =>
          apply hrest.andThen
          rintro ⟨pending, completed⟩ second _ ⟨hsublist, hprepared, hopen⟩
          refine reads_pure ⟨hsublist.cons_cons deposit,
            List.forall_mem_cons.mpr ⟨Or.inl hfound, hprepared⟩, fun h =>
            List.forall_mem_cons.mpr ⟨?_, hopen h⟩⟩
          intro record hrecord
          rw [hfound] at hrecord
          cases hrecord
      | some existing =>
          apply reads_require.andThen
          intro _ second hsecond hmatches
          have hrest := ih (hsecond.settled hphase₁)
          rw [hsecond.records, hfirst.records] at hrest
          cases hstage : existing.stage with
          | completed =>
              apply hrest.andThen
              rintro ⟨pending, completed⟩ third _ ⟨hsublist, hprepared, _⟩
              exact reads_pure ⟨hsublist.cons deposit, hprepared,
                by rintro ⟨⟩⟩
          | prepared =>
              apply reads_require.andThen
              intro _ third hthird hjournalled
              have hrest := ih (hthird.settled (hsecond.settled hphase₁))
              rw [hthird.records, hsecond.records, hfirst.records] at hrest
              apply hrest.andThen
              rintro ⟨pending, completed⟩ last _ ⟨hsublist, hprepared, hopen⟩
              rw [world.records.keyed _ _ hfound] at hjournalled
              refine reads_pure ⟨hsublist.cons_cons deposit,
                List.forall_mem_cons.mpr
                  ⟨Or.inr ⟨existing, hfound, hmatches, hstage, hjournalled⟩,
                    hprepared⟩, fun h =>
                List.forall_mem_cons.mpr ⟨?_, hopen h⟩⟩
              intro record hrecord
              rw [hfound] at hrecord
              cases hrecord
              exact hstage

/-! ## One chunk -/

theorem chunkRelayFee_reads (hphase : world.phase = .settled)
    (endpoints : CurvyChainEndpoints) :
    Reads config distinct (SdkM.chunkRelayFee config endpoints)
      (fun _ _ => True) world := by
  unfold SdkM.chunkRelayFee
  split
  · split
    · apply (token_reads hphase).andThen
      intro token first hfirst _
      exact relayFeeRecipient_reads (hfirst.settled hphase) _ _
    · exact reads_throw
  · exact reads_pure trivial

theorem proveChunk_reads (hphase : world.phase = .settled)
    (endpoints : CurvyChainEndpoints) (chunk : List Deposit) :
    Reads config distinct (SdkM.proveChunk config endpoints chunk)
      (fun result after =>
        Proved (sinceSave after.history) result.1 result.2 ∧
        ∃ minimum, SdkM.selectFunding config world.memory.funding minimum =
          .ok result.1) world := by
  apply (chunkRelayFee_reads hphase endpoints).andThen
  intro relayFee w₁ hquiet₁ _
  have hphase₁ := hquiet₁.settled hphase
  apply (feeRecipient_reads hphase₁).andThen
  intro feeRecipient w₂ hquiet₂ _
  apply reads_ofExcept.andThen
  intro allocations w₃ hquiet₃ _
  apply reads_ofExcept.andThen
  intro total w₄ hquiet₄ _
  have hphase₄ := ((hquiet₂.trans hquiet₃).trans hquiet₄).settled hphase₁
  apply (token_reads hphase₄).andThen
  intro token w₅ hquiet₅ _
  have hphase₅ := hquiet₅.settled hphase₄
  apply (reads_fallible (.pixMinimumInput token total) (fun reply => reply) _
    hphase₅ rfl).andThen
  intro minimum w₆ hquiet₆ _
  have hphase₆ := hquiet₆.settled hphase₅
  have hmemory := (((((hquiet₁.trans hquiet₂).trans hquiet₃).trans
    hquiet₄).trans hquiet₅).trans hquiet₆).memory
  apply obeys_readState hphase₆
  apply reads_ofExcept.andThen
  intro funding w₇ hquiet₇ hselected
  rw [hmemory] at hselected
  apply (buildPixAggregation_reads (hquiet₇.settled hphase₆) _ _ _ _).andThen
  exact fun request w₈ _ hproved =>
    reads_pure ⟨hproved, minimum, hselected⟩

/-- Both journals are settled again. -/
structure Allocated (ids : List PixAddressId) (before after : SdkWorld Fr) :
    Prop extends Moved ids before after where
  relay : after.memory.relayAggregations = []
  operator : after.memory.operatorAggregations = []

omit [DecidableEq Fr] in
theorem Allocated.after_moved {ids : List PixAddressId}
    {first second third : SdkWorld Fr} (hmoved : Moved ids first second)
    (hallocated : Allocated ids second third) : Allocated ids first third :=
  ⟨hmoved.trans hallocated.toMoved, hallocated.relay, hallocated.operator⟩

omit [DecidableEq Fr] in
theorem Allocated.tidied {ids : List PixAddressId}
    {first second third : SdkWorld Fr} (hallocated : Allocated ids first second)
    (htidied : Tidied second third) : Allocated ids first third := by
  rcases htidied.memory with ⟨pending, hmemory⟩
  exact ⟨hallocated.toMoved.trans (.of_tidied htidied ids),
    by rw [hmemory]; exact hallocated.relay,
    by rw [hmemory]; exact hallocated.operator⟩

omit [DecidableEq Fr] in
theorem map_new_id (chunk : List Deposit) :
    (chunk.map StoredAllocation.new).map StoredAllocation.id =
      chunk.map Deposit.id := by
  rw [List.map_map]
  rfl

theorem allocateChunk_obeys (hphase : world.phase = .settled)
    (endpoints : CurvyChainEndpoints) {chunk : List Deposit}
    (hrelay : world.memory.relayAggregations = [])
    (hoperator : world.memory.operatorAggregations = [])
    (hfresh : distinct → FreshRecords world (chunk.map StoredAllocation.new)) :
    Obeyed config distinct (SdkM.allocateChunk config endpoints chunk)
      (fun _ after => Allocated (chunk.map Deposit.id) world after)
      (fun _ after => Halted after) world := by
  apply (proveChunk_reads hphase endpoints chunk).chain hphase
  rintro ⟨funding, request⟩ first hquiet hphase₁ ⟨hproved, hselected⟩
  have hmemory := hquiet.memory
  have hspend : FirstSpend config distinct first funding
      (chunk.map StoredAllocation.new) := by
    refine FirstSpend.of_quiet ⟨hrelay, hoperator, hselected, ?_, hfresh⟩
      hquiet
    intro record hrecord
    rcases List.mem_map.mp hrecord with ⟨deposit, _, rfl⟩
    rfl
  have hids : (chunk.map StoredAllocation.new).map StoredAllocation.id ⊆
      chunk.map Deposit.id := by
    rw [map_new_id]
    exact List.Subset.refl _
  rw [← hmemory] at hrelay hoperator
  have hmoved := Moved.of_quiet hquiet hphase (chunk.map Deposit.id)
  dsimp only
  split
  · have hnames : Names (chunk.map Deposit.id) first := by
      unfold Names
      rw [hrelay]
      exact List.forall_mem_nil _
    apply Program.Obeys.seq (prepareRelayAggregation_obeys hphase₁ hnames
      hproved fun _ => ⟨hids, hspend⟩) fun _ _ h => h
    rintro _ second ⟨hprepared, _⟩
    apply Program.Obeys.seq (Program.obeys_mapError
      (reconcileRelayAggregation_obeys hprepared.phase hprepared.names))
      fun _ _ h => h
    intro _ third hsettled
    have hmoved₃ := hprepared.trans hsettled.toRelayMoved
    have hallocated : Allocated (chunk.map Deposit.id) first third := by
      refine ⟨hmoved₃.moved, hsettled.settled, ?_⟩
      rcases hmoved₃.memory with ⟨_, _, _, hmemory₃⟩
      rw [hmemory₃]
      exact hoperator
    apply (recoverPending_obeys hsettled.phase).mono
    · exact fun _ _ htidied =>
        (hallocated.tidied htidied).after_moved hmoved
    · exact fun _ _ h => h
  · apply Program.Obeys.seq (submitOperatorAggregation_obeys hphase₁ hids
      hproved hrelay (fun _ => hspend) fun h => absurd hoperator h)
      fun _ _ h => h
    intro receipts second hsettled
    have hallocated : Allocated (chunk.map Deposit.id) first second :=
      ⟨hsettled.toMoved, hsettled.relay.trans hrelay, hsettled.settled⟩
    apply Program.Obeys.seq (recoverPending_obeys hsettled.phase)
      fun _ _ h => h
    exact fun _ _ htidied => (hallocated.tidied htidied).after_moved hmoved

/-! ## The batch -/

/-- The deposits still to be funded are as the pre-check left them. -/
structure Prechecked (distinct : Prop) (deposits : List Deposit)
    (world : SdkWorld Fr) : Prop where
  phase : world.phase = .settled
  relay : world.memory.relayAggregations = []
  operator : world.memory.operatorAggregations = []
  nodup : distinct → (deposits.map Deposit.id).Nodup
  preparable : distinct → ∀ deposit ∈ deposits,
    Preparable world.records world.memory.ambiguousAllocationIds deposit

omit [DecidableEq Fr] in
theorem journalledIds_of_settled {state : SdkState}
    (hrelay : state.relayAggregations = [])
    (hoperator : state.operatorAggregations = []) :
    state.journalledIds = state.ambiguousAllocationIds := by
  simp [SdkState.journalledIds, hrelay, hoperator]

omit [DecidableEq Fr] in
theorem Prechecked.freshRecords {chunk rest : List Deposit}
    (hchecked : Prechecked distinct (chunk ++ rest) world)
    (hdistinct : distinct) :
    FreshRecords world (chunk.map StoredAllocation.new) := by
  constructor
  · rw [map_new_id]
    have hnodup := hchecked.nodup hdistinct
    rw [List.map_append] at hnodup
    exact (List.nodup_append.mp hnodup).1
  · intro record hrecord
    rcases List.mem_map.mp hrecord with ⟨deposit, hdeposit, rfl⟩
    refine ⟨rfl, ?_⟩
    rw [journalledIds_of_settled hchecked.relay hchecked.operator]
    rcases hchecked.preparable hdistinct deposit
      (List.mem_append_left _ hdeposit) with hnone |
        ⟨existing, hfound, _, hstage, hjournalled⟩
    · exact Or.inl hnone
    · exact Or.inr ⟨existing, hfound, hstage, hjournalled⟩

omit [DecidableEq Fr] in
theorem Prechecked.after_chunk {chunk rest : List Deposit}
    {before after : SdkWorld Fr}
    (hchecked : Prechecked distinct (chunk ++ rest) before)
    (hallocated : Allocated (chunk.map Deposit.id) before after) :
    Prechecked distinct rest after where
  phase := hallocated.phase
  relay := hallocated.relay
  operator := hallocated.operator
  nodup hdistinct := by
    have hnodup := hchecked.nodup hdistinct
    rw [List.map_append] at hnodup
    exact (List.nodup_append.mp hnodup).2.1
  preparable hdistinct deposit hdeposit := by
    have hnodup := hchecked.nodup hdistinct
    rw [List.map_append] at hnodup
    have hother : deposit.id ∉ chunk.map Deposit.id := fun h =>
      (List.nodup_append.mp hnodup).2.2 _ h _ (List.mem_map_of_mem hdeposit)
        rfl
    rcases hallocated.memory with ⟨_, _, _, _, hmemory⟩
    have hpreparable := hchecked.preparable hdistinct deposit
      (List.mem_append_right _ hdeposit)
    rw [hmemory]
    unfold Preparable
    rw [hallocated.records deposit.id hother]
    exact hpreparable

omit [DecidableEq Fr] in
theorem Prechecked.tidied {deposits : List Deposit}
    {before after : SdkWorld Fr}
    (hchecked : Prechecked distinct deposits before)
    (htidied : Tidied before after) : Prechecked distinct deposits after := by
  rcases htidied.memory with ⟨pending, hmemory⟩
  refine ⟨htidied.phase, ?_, ?_, hchecked.nodup, ?_⟩
  · rw [hmemory]
    exact hchecked.relay
  · rw [hmemory]
    exact hchecked.operator
  · rw [hmemory, htidied.records]
    exact hchecked.preparable

theorem allocateChunks_obeys (endpoints : CurvyChainEndpoints)
    {pieces : List (List Deposit)} (submitted : Bool)
    (hchecked : Prechecked distinct pieces.flatten world) :
    Obeyed config distinct
      (SdkM.allocateChunks config endpoints submitted pieces)
      (fun _ after => after.phase = .settled) (fun _ after => Halted after)
      world := by
  induction pieces generalizing submitted world with
  | nil => exact hchecked.phase
  | cons chunk rest ih =>
      rw [List.flatten_cons] at hchecked
      apply Program.Obeys.seq (Program.obeys_mapError
        (allocateChunk_obeys hchecked.phase endpoints hchecked.relay
          hchecked.operator hchecked.freshRecords)) fun _ _ h => h
      intro receipts first hallocated
      apply Program.Obeys.seq (ih true (hchecked.after_chunk hallocated))
        fun _ _ h => h
      exact fun _ _ hphase => hphase

theorem ambiguousResolved_obeys (hphase : world.phase = .settled)
    (ambiguous : Bool) :
    Obeyed config distinct (SdkM.ambiguousResolved config ambiguous)
      (fun _ after => JournalsKept world after) (fun _ after => Halted after)
      world := by
  unfold SdkM.ambiguousResolved
  split
  · exact reconcileAmbiguousAllocation_obeys hphase
  · exact JournalsKept.of_quiet (Quiet.refl world) hphase

omit [DecidableEq Fr] in
theorem OperatorNames.all (world : SdkWorld Fr) :
    OperatorNames
      (world.memory.operatorAggregations.flatMap (·.allocationIds)) world :=
  fun _ hattempt _ hid => List.mem_flatMap.mpr ⟨_, hattempt, hid⟩

namespace SdkM

/-- `allocate_all` up to its check. -/
def settleJournals (config : SdkConfig Fr) : SdkM Fr CurvyChainEndpoints := do
  let endpoints ← client
  let _ ← (reconcileRelayAggregation config).mapError tagAfterSubmission
  let state ← readState
  let resolved ← ambiguousResolved config state.ambiguousAllocation
  .require (resolved = true) .ambiguousAllocation
  (reconcileOperatorAggregation config).mapError tagAfterSubmission
  return endpoints

/-- `allocate_all` from its check on. -/
def allocateChecked (config : SdkConfig Fr) (deposits : List Deposit)
    (endpoints : CurvyChainEndpoints) : SdkM Fr (List TxLedger) := do
  let state ← readState
  let (pending, completedEarlier) ←
    precheckDeposits state.journalledIds deposits
  let receipts ← recoverPending config
  let more ← allocateChunks config endpoints
    (!receipts.isEmpty || completedEarlier)
    (chunks maxAllocationsPerProof pending)
  return receipts ++ more

omit [DecidableEq Fr] in
theorem allocateAll_eq (config : SdkConfig Fr) (deposits : List Deposit) :
    allocateAll config deposits =
      (settleJournals config).bind (allocateChecked config deposits) := by
  simp only [settleJournals, Program.bind_eq, Program.bind_assoc,
    Program.pure_eq]
  rfl

end SdkM

/-- Both journals are settled before the deposits are checked. -/
theorem settleJournals_obeys (hphase : world.phase = .settled) :
    Obeyed config distinct (SdkM.settleJournals config)
      (fun _ after => after.phase = .settled ∧
        after.memory.relayAggregations = [] ∧
        after.memory.operatorAggregations = [])
      (fun _ after => Halted after) world := by
  apply (client_reads hphase).chain hphase
  intro endpoints w₁ hquiet₁ hphase₁ _
  apply Program.Obeys.seq (Program.obeys_mapError
    (reconcileRelayAggregation_obeys hphase₁ (Names.all w₁)))
    fun _ _ h => h
  intro _ w₂ hsettled₂
  apply obeys_readState hsettled₂.phase
  apply Program.Obeys.seq (ambiguousResolved_obeys hsettled₂.phase _)
    fun _ _ h => h
  intro resolved w₃ hkept₃
  apply obeys_require hkept₃.phase
  intro _
  apply Program.Obeys.seq (Program.obeys_mapError
    (reconcileOperatorAggregation_obeys hkept₃.phase (OperatorNames.all w₃)
      (hkept₃.relay.trans hsettled₂.settled))) fun _ _ h => h
  intro _ w₄ hsettled₄
  exact ⟨hsettled₄.phase,
    hsettled₄.relay.trans (hkept₃.relay.trans hsettled₂.settled),
    hsettled₄.settled⟩

theorem allocateAll_obeys (hphase : world.phase = .settled)
    {deposits : List Deposit}
    (hnodup : distinct → (deposits.map Deposit.id).Nodup) :
    Obeyed config distinct (SdkM.allocateAll config deposits)
      (fun _ after => after.phase = .settled) (fun _ after => Halted after)
      world := by
  rw [SdkM.allocateAll_eq]
  apply Program.Obeys.seq (settleJournals_obeys hphase) fun _ _ h => h
  rintro endpoints w₄ ⟨hphase₄, hrelay₄, hoperator₄⟩
  apply obeys_readState hphase₄
  apply (precheckDeposits_reads hphase₄ _ deposits).chain hphase₄
  rintro ⟨pending, completed⟩ w₅ hquiet₅ hphase₅
    ⟨hsublist, hpreparable, _⟩
  rw [journalledIds_of_settled hrelay₄ hoperator₄] at hpreparable
  have hchecked : Prechecked distinct pending w₅ := by
    refine ⟨hphase₅, ?_, ?_, fun h => ?_, fun _ => ?_⟩
    · rw [hquiet₅.memory]
      exact hrelay₄
    · rw [hquiet₅.memory]
      exact hoperator₄
    · exact (hnodup h).sublist (hsublist.map Deposit.id)
    · rw [hquiet₅.records, hquiet₅.memory]
      exact hpreparable
  apply Program.Obeys.seq (recoverPending_obeys hphase₅) fun _ _ h => h
  intro receipts w₆ htidied₆
  apply Program.Obeys.seq (allocateChunks_obeys endpoints _ _)
    fun _ _ h => h
  · exact fun _ _ hphase => hphase
  · rw [chunks_flatten]
    exact hchecked.tidied htidied₆

theorem allocate_obeys (hphase : world.phase = .settled)
    {deposits : List Deposit}
    (hnodup : distinct → (deposits.map Deposit.id).Nodup) :
    Obeyed config distinct (SdkM.allocate config deposits)
      (fun _ after => after.phase = .settled) (fun _ after => Halted after)
      world := by
  apply Program.Obeys.seq (allocateAll_obeys hphase hnodup) fun _ _ h => h
  exact fun _ _ hphase => hphase

/-! ## Withdrawal -/

/-- The intent is journalled. -/
def IntentJournalled (intent : String) (world : SdkWorld Fr) : Prop :=
  ∃ stored ∈ world.memory.relayIntents, stored.intent = intent

section

variable (hphase : world.phase = .settled)

include hphase

theorem journalIntent_obeys (intent action spendKey : String) :
    Obeyed config distinct (SdkM.journalIntent intent action spendKey)
      (fun _ after => after.phase = .settled ∧ IntentJournalled intent after)
      (fun _ after => Halted after) world := by
  apply obeys_readState hphase
  apply obeys_mutateLast hphase rfl .journalIntent
  · exact ⟨rfl, ⟨intent, action, spendKey⟩,
      List.mem_append_right _ (List.mem_singleton_self _), rfl⟩
  · exact fun _ _ h => Or.inr h

theorem clearIntent_obeys {intent : String}
    (hintent : IntentJournalled intent world) :
    Obeyed config distinct (SdkM.clearIntent intent)
      (fun _ after => after.phase = .settled) (fun _ after => Halted after)
      world := by
  apply obeys_readState hphase
  apply obeys_mutateLast hphase rfl (.clearIntent hintent)
  · rfl
  · exact fun _ _ h => Or.inr h

theorem acceptedSubmission_obeys {intent : String}
    (hintent : IntentJournalled intent world) (chainId : ℕ)
    (submitted : Except RelayError RelaySubmission) :
    Obeyed config distinct
      (SdkM.acceptedSubmission intent chainId submitted)
      (fun _ after => Quiet world after) (fun _ after => Halted after)
      world := by
  cases submitted with
  | ok submission => exact Quiet.refl world
  | error error =>
      apply (relayByIntent_reads hphase intent chainId).chain hphase
      intro found first hfirst hphase₁ _
      split
      · exact hfirst
      · apply Program.Obeys.seq (clearIntent_obeys hphase₁ _) fun _ _ h => h
        · exact fun _ _ hphase => Or.inl hphase
        · unfold IntentJournalled
          rw [hfirst.memory]
          exact hintent
      · exact Or.inl hphase₁

theorem relaySubmit_obeys (chainId : ℕ) (request : PixWithdrawalRequest) :
    Obeyed config distinct (SdkM.relaySubmit chainId request)
      (fun _ after => after.phase = .settled) (fun _ after => Halted after)
      world := by
  apply (uuid_reads hphase).chain hphase
  intro intent first hfirst hphase₁ _
  apply Program.Obeys.seq (journalIntent_obeys hphase₁ intent _ _)
    fun _ _ h => h
  rintro _ second ⟨hphase₂, hintent⟩
  apply (reads_call (.relaySubmit ⟨.withdrawal, chainId, request.maxInputs,
    request.circuit, request.proof, request.publicSignals,
    request.requestKey, request.spendKey, intent⟩)
    ⟨hphase₂, by rintro ⟨⟩⟩ rfl).chain hphase₂
  intro submitted third hthird hphase₃ _
  have hintent₃ : IntentJournalled intent third := by
    unfold IntentJournalled
    rw [hthird.memory]
    exact hintent
  apply Program.Obeys.seq (acceptedSubmission_obeys hphase₃ hintent₃ chainId
    (submitted.map RelayAnswer.submission)) fun _ _ h => h
  intro submission fourth hfourth
  have hphase₄ := hfourth.settled hphase₃
  apply (reads_call (.awaitInclusion submission) hphase₄ rfl).chain
    hphase₄
  intro landed fifth hfifth hphase₅ _
  split
  · apply clearIntent_obeys hphase₅
    unfold IntentJournalled
    rw [hfifth.memory, hfourth.memory]
    exact hintent₃
  · exact Or.inl hphase₅

theorem withdrawChunk_obeys (endpoints : CurvyChainEndpoints)
    (destination : String) (chunk : List (OwnedNote Fr)) :
    Obeyed config distinct
      (SdkM.withdrawChunk config endpoints destination chunk)
      (fun _ after => after.phase = .settled) (fun _ after => Halted after)
      world := by
  apply (reads_fallible (.buildPixWithdrawal chunk destination)
    (fun reply => reply) _ hphase rfl).chain hphase
  intro request first hfirst hphase₁ _
  split
  · apply obeys_require hphase₁
    intro _
    apply Program.Obeys.seq (relaySubmit_obeys hphase₁ _ request)
      fun _ _ h => h
    exact fun _ _ hphase => hphase
  · apply (reads_fallible (.submitPixWithdrawal request) (fun reply => reply)
      _ hphase₁ rfl).chain hphase₁
    exact fun _ _ _ hphase₂ _ => hphase₂

theorem withdrawChunks_obeys (endpoints : CurvyChainEndpoints)
    (destination : String) (spent : List Fr) (withdrawn : ℕ)
    (pieces : List (List (OwnedNote Fr))) :
    Obeyed config distinct
      (SdkM.withdrawChunks config endpoints destination spent withdrawn pieces)
      (fun _ after => after.phase = .settled) (fun _ after => Halted after)
      world := by
  induction pieces generalizing spent withdrawn world with
  | nil => exact hphase
  | cons chunk rest ih =>
      apply Program.Obeys.seq
        (withdrawChunk_obeys hphase endpoints destination chunk)
        fun _ _ h => h
      exact fun _ _ hphase₁ => ih hphase₁ _ _

theorem withdraw_obeys (selected : Except SdkError (List (OwnedNote Fr)))
    (destination : String) :
    Obeyed config distinct (SdkM.withdraw config selected destination)
      (fun _ after => after.phase = .settled) (fun _ after => Halted after)
      world := by
  apply reads_ofExcept.chain hphase
  intro notes first hfirst hphase₁ _
  apply (client_reads hphase₁).chain hphase₁
  intro endpoints second hsecond hphase₂ _
  apply Program.Obeys.seq (withdrawChunks_obeys hphase₂ endpoints destination
    _ _ _) fun _ _ h => h
  exact fun _ _ hphase => hphase

end

end HoprStrategy.Curvy
