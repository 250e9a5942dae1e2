import HoprStrategy.CurvyAllocationOnce
import HoprStrategy.CurvyRefundTraversal

/-!
# Shielding and allocating under watch

`ensureFunded` never submits an aggregation of its own: the relay journal
names no allocation it did not name before.  An allocation which has settled
the journals fails fund-free only in proving its first chunk, before anything
is prepared.
-/

namespace HoprStrategy.Curvy

open Library Watched

variable {Fr : Type} {terms : Terms} {loose : Prop} {α β : Type}

/-! ## Shielding -/

theorem submitReconcilingNonceConflicts_watched (call : Bytes)
    {alreadyExecuted : SdkM Fr Bool}
    (hexecuted : Watched terms loose alreadyExecuted fun _ => True)
    (retries : ℕ) :
    Watched terms loose
      (SdkM.submitReconcilingNonceConflicts call alreadyExecuted retries)
      fun _ => True := by
  induction retries with
  | zero => exact of_throw (Or.inr rfl)
  | succ retries ih =>
      apply (of_fallible .transactionCount (fun reply => reply)
        (fun _ => trivial) (fun _ _ => rfl) fun _ _ _ _ => by exact rfl).bind
      intro nonce _
      apply (of_reply (.sendModuleCall call nonce) (fun _ => trivial)
        fun _ _ => rfl).bind
      intro sent _
      split
      · exact of_pure trivial
      · split
        · apply (of_reply (.noncePolls nonce) (fun _ => trivial)
            fun _ _ => rfl).bind
          intro polls _
          apply (of_raise (fun _ _ => trivial)
            fun _ _ => Or.inr (by exact rfl)).bind
          intro settled _
          apply (of_require (by exact rfl)).bind
          intro _ _
          apply hexecuted.bind
          intro executed _
          split
          · exact of_pure trivial
          · exact ih
        · exact of_throw (Or.inr rfl)

theorem shieldLanded_watched (config : SdkConfig Fr) (note : OwnedNote Fr) :
    Watched terms loose (SdkM.shieldLanded config note) fun _ => True :=
  of_fallible (.noteStatus (config.codec.noteId note))
    (fun reply => Except.map (fun status => decide (status = 1 ∨ status = 2))
      reply) (fun _ => trivial) (fun _ _ => rfl) fun _ _ _ _ => rfl

theorem parseAddress_watched (config : SdkConfig Fr) (what address : String) :
    Watched terms loose (SdkM.parseAddress config what address)
      fun _ => True := by
  unfold SdkM.parseAddress
  split
  · exact of_pure trivial
  · exact of_throw (Or.inr rfl)

theorem checkVaultToken_watched (config : SdkConfig Fr)
    (endpoints : CurvyChainEndpoints) :
    Watched terms loose (SdkM.checkVaultToken config endpoints)
      fun _ => True := by
  apply token_watched.bind
  intro token _
  split
  · apply (of_fallible (.vaultToken token) (fun reply => reply)
      (fun _ => trivial) (fun _ _ => rfl) fun _ _ _ _ => by exact rfl).bind
    intro vaultToken _
    exact (of_require (by exact rfl)).mono (fun _ _ => trivial) id
  · exact of_pure trivial

theorem shieldRouterChecked_watched (config : SdkConfig Fr)
    (endpoints : CurvyChainEndpoints) :
    Watched terms loose (SdkM.shieldRouterChecked config endpoints)
      fun _ => True := by
  have hrouter : SteadyResult (SdkM.requireShieldRouter endpoints) := by
    unfold SdkM.requireShieldRouter
    split
    · exact .of_ok _
    · exact .of_error rfl
  apply (of_ofExcept hrouter).bind
  intro router _
  apply (parseAddress_watched config _ _).bind
  intro _ _
  exact (checkVaultToken_watched config endpoints).bind fun _ _ =>
    of_pure trivial

theorem shieldRouter_watched (config : SdkConfig Fr)
    (endpoints : CurvyChainEndpoints) (router : Option String) :
    Watched terms loose (SdkM.shieldRouter config endpoints router)
      fun _ => True := by
  cases router with
  | none => exact shieldRouterChecked_watched config endpoints
  | some router => exact of_pure trivial

theorem observeDirectShield_watched (config : SdkConfig Fr)
    (note : OwnedNote Fr) (attempts : ℕ) :
    Watched terms loose (SdkM.observeDirectShield config note attempts)
      fun _ => True := by
  induction attempts with
  | zero => exact of_throw (Or.inr rfl)
  | succ attempts ih =>
      apply (noteStatus_watched _).bind
      intro status _
      split
      · exact of_pure trivial
      · exact ih

/-- A change of the locked state which is saved afterwards. -/
theorem mutate_watched {update : Update} {next : SdkState}
    (hupdate : update.releases = false) (hnext : terms.Admits next) :
    Watched terms loose
      (do SdkM.writeState next
          SdkM.save update next : SdkM Fr Unit) fun _ => True :=
  (of_writeState hnext).bind fun _ _ => of_save hupdate hnext

theorem sendDirectShield_watched (config : SdkConfig Fr)
    (endpoints : CurvyChainEndpoints) (gross : ℕ) (note : OwnedNote Fr)
    (router : Option String) :
    Watched terms loose
      (SdkM.sendDirectShield config endpoints gross note router)
      fun _ => True := by
  apply (shieldRouter_watched config endpoints router).bind
  intro _ _
  apply (parseAddress_watched config _ _).bind
  intro _ _
  apply (parseAddress_watched config _ _).bind
  intro _ _
  apply (of_sdk (.shieldCalldata note gross) (fun reply => reply)
    (fun _ => trivial) (fun _ _ => rfl) rfl (by rintro _ _ rfl; rfl)).bind
  intro calldata _
  apply (of_fallible (.encodeRouterShield endpoints gross calldata)
    (fun reply => reply) (fun _ => trivial) (fun _ _ => rfl)
    fun _ _ _ _ => by exact rfl).bind
  intro call _
  apply (submitReconcilingNonceConflicts_watched call
    (shieldLanded_watched config note) _).bind
  exact fun _ _ => observeDirectShield_watched config note _

theorem directShieldNote_watched (config : SdkConfig Fr)
    (endpoints : CurvyChainEndpoints) (gross : ℕ) :
    Watched terms loose (SdkM.directShieldNote config endpoints gross)
      fun _ => True := by
  apply of_readState
  intro state _
  split
  · apply (of_require (by exact rfl)).bind
    intro _ _
    apply (of_ofExcept (toOwned_steady config.codec _)).bind
    exact fun _ _ => of_pure trivial
  · apply (shieldRouterChecked_watched config endpoints).bind
    intro router _
    apply token_watched.bind
    intro token _
    apply (of_sdk (.prepareDirectShield gross token) (fun reply => reply)
      (fun _ => trivial) (fun _ _ => rfl) rfl (by rintro _ _ rfl; rfl)).bind
    intro note _
    apply of_readState
    intro state hstate
    refine (of_writeState ?_).bind fun _ _ => ?_
    · exact hstate
    · exact (of_save rfl (by exact hstate)).bind fun _ _ => of_pure trivial

theorem portalShield_watched (config : SdkConfig Fr) (gross : ℕ)
    (recovery : String) :
    Watched terms loose (SdkM.portalShield config gross recovery)
      fun _ => True := by
  apply of_readState
  intro state _
  split
  · exact (of_require (by exact rfl)).bind fun _ _ => of_pure trivial
  · apply token_watched.bind
    intro token _
    apply (of_sdk (.prepareDeposit gross token recovery) (fun reply => reply)
      (fun _ => trivial) (fun _ _ => rfl) rfl (by rintro _ _ rfl; rfl)).bind
    intro prepared _
    apply of_readState
    intro state hstate
    refine (of_writeState ?_).bind fun _ _ => ?_
    · exact hstate
    · exact (of_save rfl (by exact hstate)).bind fun _ _ => of_pure trivial

theorem fundedPortal_watched (config : SdkConfig Fr)
    (endpoints : CurvyChainEndpoints) (gross : ℕ) (portal : String) :
    Watched terms loose (SdkM.fundedPortal config endpoints gross portal)
      fun _ => True := by
  apply (erc20Balance_watched _ _).bind
  intro balance _
  split
  · apply (parseAddress_watched config _ _).bind
    intro _ _
    apply (of_fallible (.fundPortal portal gross) (fun reply => reply)
      (fun _ => trivial) (fun _ _ => rfl) fun _ _ _ _ => by exact rfl).bind
    exact fun _ _ => erc20Balance_watched _ _
  · exact of_pure trivial

theorem fundShield_watched (config : SdkConfig Fr)
    (endpoints : CurvyChainEndpoints) (gross : ℕ) (shield : StoredShield) :
    Watched terms loose (SdkM.fundShield config endpoints gross shield)
      fun _ => True := by
  unfold SdkM.fundShield
  split
  · exact of_pure trivial
  · apply (fundedPortal_watched config endpoints gross _).bind
    intro balance _
    apply (of_require (by exact rfl)).bind
    intro _ _
    apply of_readState
    exact fun state hstate => mutate_watched rfl (by exact hstate)

section

variable [DecidableEq Fr]

theorem bookDirectShield_watched (config : SdkConfig Fr) (note : OwnedNote Fr)
    (observed : ℕ) :
    Watched terms loose (SdkM.bookDirectShield config note observed)
      fun _ => True := by
  apply of_readState
  intro state hstate
  apply (of_ofExcept (alreadyFunding_steady config _ note)).bind
  intro already _
  exact mutate_watched rfl (by exact hstate)

theorem directShield_watched (config : SdkConfig Fr) (gross : ℕ) :
    Watched terms loose (SdkM.directShield config gross) fun _ => True := by
  apply (of_require (by exact rfl)).bind
  intro _ _
  apply client_watched.bind
  intro endpoints _
  apply (directShieldNote_watched config endpoints gross).bind
  rintro ⟨note, router⟩ _
  apply (noteStatus_watched _).bind
  intro status _
  split
  · apply (bookDirectShield_watched config note status).bind
    exact fun _ _ => recoverPending_watched config
  · apply (sendDirectShield_watched config endpoints gross note router).bind
    intro observed _
    apply (bookDirectShield_watched config note observed).bind
    exact fun _ _ => recoverPending_watched config

theorem bookShield_watched (config : SdkConfig Fr) (note : OwnedNote Fr)
    (observed : ℕ) :
    Watched terms loose (SdkM.bookShield config note observed)
      fun _ => True := by
  apply of_readState
  intro state hstate
  apply (of_ofExcept (alreadyFunding_steady config _ note)).bind
  intro already _
  exact mutate_watched rfl (by exact hstate)

theorem shieldThroughPortal_watched (config : SdkConfig Fr)
    (endpoints : CurvyChainEndpoints) (gross : ℕ) (recovery : String) :
    Watched terms loose
      (SdkM.shieldThroughPortal config endpoints gross recovery)
      fun _ => True := by
  apply (portalShield_watched config gross recovery).bind
  intro shield _
  apply (of_ofExcept (preparedDeposit_steady config shield)).bind
  intro prepared _
  apply (noteStatus_watched _).bind
  intro status _
  split
  · apply (bookShield_watched config _ status).bind
    exact fun _ _ => recoverPending_watched config
  · apply (fundShield_watched config endpoints gross shield).bind
    intro _ _
    apply (of_sdk (.shieldPreparedDeposit prepared) (fun reply => reply)
      (fun _ => trivial) (fun _ _ => rfl) rfl (by rintro _ _ rfl; rfl)).bind
    intro entry _
    apply (bookShield_watched config _ status).bind
    intro _ _
    exact (recoverPending_watched config).bind fun _ _ => of_pure trivial

/-- The refusal of a replacement is passed on as it is. -/
theorem ensureFunded_watched (config : SdkConfig Fr) (gross : HoprBalance)
    (recovery : String) (hloose : terms.refuses → loose) :
    Watched terms loose (SdkM.ensureFunded config gross recovery)
      fun _ => True := by
  have hshield : Watched terms loose
      (SdkM.shield config gross.wei recovery) fun _ => True := by
    apply client_watched.bind
    intro endpoints _
    apply (reconcileRelayAggregation_watched config hloose).bind
    intro _ _
    apply (recoverPending_watched config).bind
    intro _ _
    apply of_readState
    intro state _
    split
    · exact of_pure trivial
    · split
      · exact directShield_watched config _
      · exact shieldThroughPortal_watched config endpoints _ recovery
  apply (of_require (by exact rfl)).bind
  intro _ _
  exact hshield.bind fun _ _ => of_pure trivial

end

/-! ## Operator submission -/

section

variable (hnamed : ∀ id, terms.named id)

include hnamed

theorem Terms.admits_all (state : SdkState) : terms.Admits state :=
  fun _ _ id _ => hnamed id

theorem bookOperator_watched (config : SdkConfig Fr) (index : ℕ) :
    Watched terms loose (SdkM.finishOperatorAggregation config (some index))
      fun _ => True := by
  apply of_readState
  intro state hstate
  dsimp only
  split
  · exact of_pure trivial
  · apply (of_ofExcept (bookedChange_steady config _)).bind
    intro change _
    apply (completedAllocations_watched _ _).bind
    intro completed _
    exact commit_watched rfl hstate fun _ _ => hnamed _

/-- The SDK reported the submission as definitively failed. -/
theorem dropOperatorAttempt_meets (config : SdkConfig Fr) (index : ℕ)
    {error : SdkError} (herror : Steady error) {holds : α → Prop} :
    (SdkM.dropOperatorAttempt config index >>= fun _ =>
      (.throw error : SdkM Fr α)).Meets (watch terms)
      (fun value => ReturnsAt (holds value)) (FailsAt loose)
      (.watching (some error)) := by
  apply Program.Meets.bind
  refine Program.meets_call trivial fun state hexpects => ?_
  change Program.Meets _ _ _ (if state.operatorAggregations.length = 1 then _
    else _) _
  split
  · refine Program.meets_call trivial fun current _ => ?_
    dsimp only [Program.bind]
    split
    · exact .watching (Or.inr herror)
    · refine Program.meets_call ⟨Terms.admits_all hnamed _,
        List.forall_mem_nil _, fun _ => ⟨error, rfl, herror⟩⟩
        fun reply hexpects => ?_
      rcases (reply : Except String Unit) with text | _
      · exact .watching (Or.inr (hexpects.1.steady (Or.inl rfl) rfl))
      · refine Program.meets_call (Terms.admits_all hnamed _) fun _ _ => ?_
        exact .released herror
  · have hdropped : Watched terms loose
        (do SdkM.save .dropOperatorAttempt { state with
              operatorAggregations := state.operatorAggregations.eraseIdx
                index }
            SdkM.writeState { state with
              operatorAggregations := state.operatorAggregations.eraseIdx
                index } : SdkM Fr Unit) fun _ => True :=
      commit_watched rfl hexpects.2 (List.forall_mem_nil _)
    apply (hdropped _).mono
    · rintro _ _ ⟨_⟩
      exact .watching (Or.inr herror)
    · exact fun _ _ h => h

theorem prepareOperatorAggregation_watched
    (attempt : StoredOperatorAggregation) (records : List StoredAllocation) :
    Watched terms loose
      (SdkM.prepareOperatorAggregation attempt records : SdkM Fr ℕ)
      fun _ => True := by
  apply of_readState
  intro state hstate
  apply (of_require (by exact rfl)).bind
  intro _ _
  apply (of_require (by exact rfl)).bind
  intro _ _
  refine (of_saveUpdate rfl ?_ fun _ _ => hnamed _).bind fun _ _ => ?_
  · exact hstate
  · refine (of_writeState ?_).bind fun _ _ => of_pure trivial
    exact hstate

theorem submitOperatorAggregation_watched (hsubmits : terms.submits)
    (config : SdkConfig Fr) (endpoints : CurvyChainEndpoints)
    (request : PixAggregationRequest Fr) (inputs : List (OwnedNote Fr))
    (records : List StoredAllocation) :
    Watched terms loose
      (SdkM.submitOperatorAggregation config endpoints request inputs records)
      fun _ => True := by
  apply (prepareOperatorAggregation_watched hnamed _ records).bind
  intro index _
  refine fun report => Program.meets_call hsubmits fun reply hexpects => ?_
  match reply with
  | .ok ledger =>
      refine (confirmWinner_watched config _ _).bind (fun _ _ => ?_) _
      exact (bookOperator_watched hnamed config index).bind fun _ _ =>
        of_pure trivial
  | .error ⟨message, true⟩ =>
      exact .watching (Or.inr (hexpects.1.steady (Or.inl rfl) rfl))
  | .error ⟨message, false⟩ =>
      exact dropOperatorAttempt_meets hnamed config index
        (hexpects.1.steady (Or.inl rfl) rfl)

omit hnamed in
theorem operatorWinnerFrom_watched (config : SdkConfig Fr) (index : ℕ)
    (attempts : List StoredOperatorAggregation) :
    Watched terms loose (SdkM.operatorWinnerFrom config index attempts)
      fun _ => True := by
  induction attempts generalizing index with
  | nil => exact of_pure trivial
  | cons attempt rest ih =>
      apply (notesKnown_watched config _).bind
      intro known _
      split
      · exact of_pure trivial
      · exact ih (index + 1)

theorem reconcileOperatorAggregation_watched (hsubmits : terms.submits)
    (config : SdkConfig Fr) :
    Watched terms True (SdkM.reconcileOperatorAggregation config)
      fun _ => True := by
  have hretry : Watched terms True (SdkM.retryOperatorAggregation config)
      fun _ => True := by
    apply of_readState
    intro state _
    split
    · exact of_throw (Or.inr rfl)
    · apply (of_ofExcept (.mapM (toOwned_steady config.codec))).bind
      intro inputs _
      apply (preparedAllocations_watched _ _).bind
      intro records _
      apply (of_ofExcept (.mapM (proverAllocation_steady config))).bind
      intro allocations _
      apply client_watched.bind
      intro endpoints _
      apply (feeRecipient_watched config).bind
      intro feeRecipient _
      apply (buildPixAggregation_watched _ _ _ _ fun _ => trivial).bind
      intro request _
      apply (submitOperatorAggregation_watched hnamed hsubmits config _ _ _
        _).bind
      intro ledger _
      exact (recoverPending_watched config).bind fun _ _ => of_pure trivial
  apply of_readState
  intro state _
  dsimp only
  split
  · exact of_pure trivial
  · apply client_watched.bind
    intro endpoints _
    apply (of_require (by exact rfl)).bind
    intro _ _
    apply (operatorWinnerFrom_watched config 0 _).bind
    intro found _
    split
    · apply (confirmWinner_watched config _ _).bind
      intro _ _
      apply (bookOperator_watched hnamed config _).bind
      intro _ _
      exact (recoverPending_watched config).bind fun _ _ => of_pure trivial
    · apply (of_require (by exact rfl)).bind
      intro _ _
      exact hretry.bind fun _ _ => of_pure trivial

/-! ## The legacy ambiguous aggregation -/

omit hnamed in
theorem anyObserved_watched (config : SdkConfig Fr)
    (notes : List (OwnedNote Fr)) :
    Watched terms loose (SdkM.anyObserved config notes) fun _ => True := by
  induction notes with
  | nil => exact of_pure trivial
  | cons note rest ih =>
      apply (noteStatus_watched _).bind
      intro status _
      split
      · exact of_pure trivial
      · exact ih

theorem bookAmbiguous_watched (inputs : List StoredNote)
    (change : StoredNote) (emitted : List StoredNote)
    (ids : List PixAddressId) :
    Watched terms loose
      (SdkM.bookAmbiguous inputs change emitted ids : SdkM Fr Unit)
      fun _ => True := by
  have hadmits := Terms.admits_all hnamed
  apply of_readState
  intro state _
  apply (of_writeState (hadmits _)).bind
  intro _ _
  apply (completedAllocations_watched _ _).bind
  intro completed _
  apply (of_writeState (hadmits _)).bind
  intro _ _
  exact of_saveUpdate rfl (hadmits _) fun _ _ => hnamed _

theorem ambiguousResolved_watched (config : SdkConfig Fr)
    (ambiguous : Bool) :
    Watched terms loose (SdkM.ambiguousResolved config ambiguous)
      fun _ => True := by
  unfold SdkM.ambiguousResolved
  split
  · apply client_watched.bind
    intro _ _
    apply of_readState
    intro state _
    split
    · exact of_pure trivial
    · split
      · exact of_pure trivial
      · split
        · exact of_pure trivial
        · apply (of_ofExcept (.mapM (toOwned_steady config.codec))).bind
          intro notes _
          apply (anyObserved_watched config notes).bind
          intro observed _
          split
          · apply (bookAmbiguous_watched hnamed _ _ _ _).bind
            intro _ _
            exact (recoverPending_watched config).bind fun _ _ =>
              of_pure trivial
          · exact of_pure trivial
  · exact of_pure trivial

/-! ## Allocation -/

/-- `allocate_chunk` from its proof on. -/
def SdkM.submitChunk (config : SdkConfig Fr) (endpoints : CurvyChainEndpoints)
    (chunk : List Deposit)
    (proved : List (OwnedNote Fr) × PixAggregationRequest Fr) :
    SdkM Fr (List TxLedger) := do
  let records := chunk.map StoredAllocation.new
  match config.submission with
  | .relayer =>
      prepareRelayAggregation config proved.2 endpoints proved.1 records
      let _ ← (reconcileRelayAggregation config).mapError tagAfterSubmission
      recoverPending config
  | .operator =>
      let receipts ← submitOperatorAggregation config endpoints proved.2
        proved.1 records
      let more ← recoverPending config
      return receipts ++ more

omit hnamed in
theorem SdkM.allocateChunk_eq (config : SdkConfig Fr)
    (endpoints : CurvyChainEndpoints) (chunk : List Deposit) :
    SdkM.allocateChunk config endpoints chunk =
      (SdkM.proveChunk config endpoints chunk).bind
        (SdkM.submitChunk config endpoints chunk) := rfl

omit hnamed in
theorem precheckDeposits_watched (journalled : List PixAddressId)
    (deposits : List Deposit) :
    Watched terms loose
      (SdkM.precheckDeposits journalled deposits : SdkM Fr _)
      fun _ => True := by
  induction deposits with
  | nil => exact of_pure trivial
  | cons deposit rest ih =>
      apply (allocation_watched _ deposit.id).bind
      intro found _
      cases found with
      | none => exact ih.bind fun _ _ => of_pure trivial
      | some existing =>
          apply (of_require (by exact rfl)).bind
          intro _ _
          cases existing.stage with
          | completed => exact ih.bind fun _ _ => of_pure trivial
          | prepared =>
              apply (of_require (by exact rfl)).bind
              exact fun _ _ => ih.bind fun _ _ => of_pure trivial

omit hnamed in
theorem proveChunk_watched (config : SdkConfig Fr)
    (endpoints : CurvyChainEndpoints) (chunk : List Deposit) :
    Watched terms True (SdkM.proveChunk config endpoints chunk)
      fun _ => True := by
  have hloose : ∀ {result : Except SdkError (List (OwnedNote Fr))},
      Watched terms True (SdkM.ofExcept result : SdkM Fr _)
        fun _ => True :=
    of_raise (fun _ _ => trivial) fun _ _ => Or.inl trivial
  have hfee : Watched terms True (SdkM.chunkRelayFee config endpoints)
      fun _ => True := by
    unfold SdkM.chunkRelayFee
    split
    · split
      · exact token_watched.bind fun _ _ => relayFeeRecipient_watched _ _
      · exact of_throw (Or.inr rfl)
    · exact of_pure trivial
  apply hfee.bind
  intro relayFee _
  apply (feeRecipient_watched config).bind
  intro feeRecipient _
  apply (of_ofExcept (.mapM (depositAllocation_steady config))).bind
  intro allocations _
  apply (of_raise (fun _ _ => trivial) fun _ _ => Or.inl trivial).bind
  intro total _
  apply token_watched.bind
  intro token _
  apply (of_sdk (.pixMinimumInput token total) (fun reply => reply)
    (fun _ => trivial) (fun _ _ => rfl) rfl (by rintro _ _ rfl; rfl)).bind
  intro minimum _
  apply of_readState
  intro state _
  apply hloose.bind
  intro funding _
  apply (buildPixAggregation_watched _ _ _ _ fun _ => trivial).bind
  exact fun _ _ => of_pure trivial

section

variable (hsubmits : terms.submits)

include hsubmits

/-- Once its proof is made no error of a chunk is loose. -/
theorem submitChunk_watched (config : SdkConfig Fr)
    (endpoints : CurvyChainEndpoints) (chunk : List Deposit)
    (proved : List (OwnedNote Fr) × PixAggregationRequest Fr) :
    Watched terms loose
      (SdkM.submitChunk config endpoints chunk proved) fun _ => True := by
  unfold SdkM.submitChunk
  dsimp only
  split
  · apply (prepareRelayAggregation_watched config _ _ _
      fun _ _ => hnamed _).bind
    intro _ _
    apply (reconcileRelayAggregation_watched config
      fun _ => trivial).tagged.bind
    exact fun _ _ => recoverPending_watched config
  · apply (submitOperatorAggregation_watched hnamed hsubmits config _ _ _
      _).bind
    intro receipts _
    exact (recoverPending_watched config).bind fun _ _ => of_pure trivial

theorem allocateChunk_watched (config : SdkConfig Fr)
    (endpoints : CurvyChainEndpoints) (chunk : List Deposit) :
    Watched terms True (SdkM.allocateChunk config endpoints chunk)
      fun _ => True :=
  (proveChunk_watched config endpoints chunk).bind fun proved _ =>
    submitChunk_watched hnamed hsubmits config endpoints chunk proved

/-- Once a chunk was submitted no error is loose. -/
theorem allocateChunks_watched (config : SdkConfig Fr)
    (endpoints : CurvyChainEndpoints) (pieces : List (List Deposit)) :
    Watched terms loose (SdkM.allocateChunks config endpoints true pieces)
      fun _ => True := by
  induction pieces with
  | nil => exact of_pure trivial
  | cons chunk rest ih =>
      apply (allocateChunk_watched hnamed hsubmits config endpoints
        chunk).tagged.bind
      intro receipts _
      exact ih.bind fun _ _ => of_pure trivial

theorem settleJournals_watched (config : SdkConfig Fr) :
    Watched terms loose (SdkM.settleJournals config) fun _ => True := by
  apply client_watched.bind
  intro endpoints _
  apply (reconcileRelayAggregation_watched config fun _ => trivial).tagged.bind
  intro _ _
  apply of_readState
  intro state _
  apply (ambiguousResolved_watched hnamed config _).bind
  intro resolved _
  apply (of_require (by exact rfl)).bind
  intro _ _
  apply (reconcileOperatorAggregation_watched hnamed hsubmits
    config).tagged.bind
  exact fun _ _ => of_pure trivial

theorem allocate_watched (config : SdkConfig Fr) (deposits : List Deposit) :
    Watched terms True (SdkM.allocate config deposits) fun _ => True := by
  have hchunks : ∀ endpoints pieces submitted, Watched terms True
      (SdkM.allocateChunks config endpoints submitted pieces)
      fun _ => True := by
    intro endpoints pieces
    induction pieces with
    | nil => exact fun _ => of_pure trivial
    | cons chunk rest ih =>
        intro submitted
        refine (Watched.mapError (allocateChunk_watched hnamed hsubmits config
          endpoints chunk) fun error herror => ?_).bind fun _ _ => ?_
        · split
          · exact herror
          · rfl
        · exact (ih true).bind fun _ _ => of_pure trivial
  have hall : Watched terms True (SdkM.allocateAll config deposits)
      fun _ => True := by
    rw [SdkM.allocateAll_eq]
    apply Watched.bind (settleJournals_watched hnamed hsubmits config)
    intro endpoints _
    apply of_readState
    intro state _
    apply (precheckDeposits_watched _ deposits).bind
    rintro ⟨pending, completedEarlier⟩ _
    apply (recoverPending_watched config).bind
    intro receipts _
    exact (hchunks endpoints _ _).bind fun _ _ => of_pure trivial
  exact hall.bind fun _ _ => of_pure trivial

end

end

end HoprStrategy.Curvy
