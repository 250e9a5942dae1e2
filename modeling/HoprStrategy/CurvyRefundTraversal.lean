import HoprStrategy.CurvyRefundMonitor

/-!
# The settling loop under watch

The calls, and every function of the settling loop, under the monitor of its
errors.  Only a relayed aggregation which is proved again may fail with the
SDK's refusal.
-/

namespace HoprStrategy.Curvy

open Library Watched

variable {Fr : Type} {terms : Terms} {loose : Prop} {α β : Type}

/-! ## Pure results -/

/-- The result fails with steady errors only. -/
def SteadyResult (result : Except SdkError α) : Prop :=
  ∀ error, result = .error error → Steady error

namespace SteadyResult

theorem of_ok (value : α) : SteadyResult (.ok value) := by
  rintro error ⟨⟩

theorem of_error {error : SdkError} (herror : Steady error) :
    SteadyResult (.error error : Except SdkError α) := by
  rintro _ ⟨⟩
  exact herror

theorem bind {result : Except SdkError α} {next : α → Except SdkError β}
    (hresult : SteadyResult result)
    (hnext : ∀ value, SteadyResult (next value)) :
    SteadyResult (result >>= next) := by
  cases result with
  | ok value => exact hnext value
  | error error => exact of_error (hresult error rfl)

theorem map {result : Except SdkError α} (f : α → β)
    (hresult : SteadyResult result) : SteadyResult (result.map f) := by
  cases result with
  | ok value => exact of_ok _
  | error error => exact of_error (hresult error rfl)

theorem mapError {E : Type} {result : Except E α} {toError : E → SdkError}
    (htoError : ∀ error, Steady (toError error)) :
    SteadyResult (result.mapError toError) := by
  cases result with
  | ok value => exact of_ok _
  | error error => exact of_error (htoError error)

theorem mapM {items : List α} {f : α → Except SdkError β}
    (hf : ∀ item, SteadyResult (f item)) : SteadyResult (items.mapM f) := by
  induction items with
  | nil => exact of_ok _
  | cons item rest ih =>
      rw [List.mapM_cons]
      exact (hf item).bind fun _ => ih.bind fun _ => of_ok _

theorem ite {condition : Prop} [Decidable condition]
    {left right : Except SdkError α} (hleft : SteadyResult left)
    (hright : SteadyResult right) :
    SteadyResult (if condition then left else right) := by
  split
  · exact hleft
  · exact hright

end SteadyResult

theorem storedField_steady (codec : NoteCodec Fr) (value name : String) :
    SteadyResult (storedField codec value name) :=
  .mapError fun _ => rfl

theorem toOwned_steady (codec : NoteCodec Fr) (note : StoredNote) :
    SteadyResult (note.toOwned codec) := by
  have hfield := storedField_steady codec
  unfold StoredNote.toOwned
  exact (hfield _ _).bind fun _ => (hfield _ _).bind fun _ =>
    (hfield _ _).bind fun _ => (hfield _ _).bind fun _ =>
    (hfield _ _).bind fun _ => (hfield _ _).bind fun _ =>
    (hfield _ _).bind fun _ => .of_ok _

theorem bookedChange_steady (config : SdkConfig Fr) (change : StoredNote) :
    SteadyResult (SdkM.bookedChange config change) :=
  (toOwned_steady config.codec change).map _

theorem proverAllocation_steady (config : SdkConfig Fr)
    (record : StoredAllocation) :
    SteadyResult (SdkM.proverAllocation config record) :=
  SteadyResult.bind (.mapError fun _ => rfl) fun _ =>
    .ite (.of_ok _) (.of_error (by exact rfl))

theorem depositAllocation_steady (config : SdkConfig Fr) (deposit : Deposit) :
    SteadyResult (SdkM.depositAllocation config deposit) := by
  have hrecipient : ∀ text : String, Steady (.invalidValue text) :=
    fun _ => rfl
  unfold SdkM.depositAllocation
  split
  · exact SteadyResult.bind (.mapError hrecipient) fun _ => .of_ok _
  · exact .of_error rfl

theorem alreadyFunding_steady [DecidableEq Fr] (config : SdkConfig Fr)
    (funding : List StoredNote) (note : OwnedNote Fr) :
    SteadyResult (SdkM.alreadyFunding config funding note) :=
  (SteadyResult.mapM (toOwned_steady config.codec)).map _

theorem preparedDeposit_steady (config : SdkConfig Fr)
    (shield : StoredShield) :
    SteadyResult (SdkM.StoredShield.preparedDeposit config shield) :=
  .ite ((toOwned_steady config.codec shield.note).map _) (.of_error rfl)

/-! ## Single calls -/

namespace Watched

theorem of_ofExcept {result : Except SdkError α}
    (hresult : SteadyResult result) :
    Watched terms loose (SdkM.ofExcept result : SdkM Fr α)
      fun value => result = .ok value :=
  of_raise (fun _ h => h) fun error h => Or.inr (hresult error h)

/-- A call whose reply is passed on. -/
theorem of_reply (call : SdkCall Fr)
    (hallows : ∀ report, Stage.allows terms (.watching report) call)
    (hnext : ∀ report reply, Stage.next (.watching report) call reply =
      .watching (call.report reply)) :
    Watched terms loose (.call call .pure : SdkM Fr call.Reply)
      fun _ => True :=
  of_call hallows hnext fun _ _ _ => of_pure trivial

/-- A call whose errors are all steady. -/
theorem of_fallible {E : Type} (call : SdkCall Fr) {toError : E → SdkError}
    (result : call.Reply → Except E α)
    (hallows : ∀ report, Stage.allows terms (.watching report) call)
    (hnext : ∀ report reply, Stage.next (.watching report) call reply =
      .watching (call.report reply))
    (hsteady : ∀ reply error, Worded terms.refuses call reply →
      result reply = .error error → Steady (toError error)) :
    Watched terms loose
      (.call call fun reply => .raise toError (result reply) : SdkM Fr α)
      fun _ => True :=
  of_call hallows hnext fun reply hworded _ =>
    of_raise (fun _ _ => trivial) fun error h =>
      Or.inr (hsteady reply error hworded h)

/-- A call of the SDK other than a proof. -/
theorem of_sdk (call : SdkCall Fr) (result : call.Reply → Except String α)
    (hallows : ∀ report, Stage.allows terms (.watching report) call)
    (hnext : ∀ report reply, Stage.next (.watching report) call reply =
      .watching (call.report reply))
    (hrefusal : call.mayRefuse = false)
    (hfailure : ∀ reply text, result reply = .error text →
      call.failure reply = some text) :
    Watched terms loose
      (.call call fun reply => .raise .sdk (result reply) : SdkM Fr α)
      fun _ => True :=
  of_fallible call result hallows hnext fun reply text hworded h =>
    hworded.steady (Or.inl hrefusal) (hfailure reply text h)

end Watched

theorem client_watched :
    Watched terms loose (SdkM.client : SdkM Fr _) fun _ => True :=
  of_fallible .client (fun reply => reply) (fun _ => trivial)
    (fun _ _ => rfl) fun _ error _ _ => by cases error <;> rfl

theorem token_watched :
    Watched terms loose (SdkM.token : SdkM Fr ℕ) fun _ => True :=
  of_fallible .token (fun reply => reply) (fun _ => trivial) (fun _ _ => rfl)
    fun _ _ _ _ => rfl

theorem noteStatus_watched (noteId : Fr) :
    Watched terms loose (SdkM.noteStatus noteId) fun _ => True :=
  of_sdk (.noteStatus noteId) (fun reply => reply)
    (fun _ => trivial) (fun _ _ => rfl) rfl (by rintro _ _ rfl; rfl)

theorem erc20Balance_watched (token holder : String) :
    Watched terms loose (SdkM.erc20Balance token holder : SdkM Fr ℕ)
      fun _ => True :=
  of_sdk (.erc20Balance token holder) (fun reply => reply)
    (fun _ => trivial) (fun _ _ => rfl) rfl (by rintro _ _ rfl; rfl)

theorem finalityCheckDue_watched :
    Watched terms loose (SdkM.finalityCheckDue : SdkM Fr Bool)
      fun _ => True :=
  of_reply .finalityCheckDue (fun _ => trivial) fun _ _ => rfl

theorem relayFeeRecipient_watched (chainId token : ℕ) :
    Watched terms loose (SdkM.relayFeeRecipient chainId token : SdkM Fr _)
      fun _ => True :=
  of_fallible (.relayFee chainId token) (fun reply => reply)
    (fun _ => trivial) (fun _ _ => rfl)
    fun _ error _ _ => by cases error <;> rfl

theorem feeRecipient_watched (config : SdkConfig Fr) :
    Watched terms loose (SdkM.feeRecipient config) fun _ => True := by
  unfold SdkM.feeRecipient
  split
  · exact of_pure trivial
  · split
    · exact of_fallible .protocolFeeCollector (fun reply => reply)
        (fun _ => trivial) (fun _ _ => rfl)
        fun _ error _ _ => by cases error <;> rfl
    · exact of_pure trivial

/-- The only call which may be refused. -/
theorem buildPixAggregation_watched (inputs : List (OwnedNote Fr))
    (allocations : List (ScanRecipient × ℕ))
    (relayFee : Option (Identity × ℕ)) (feeRecipient : Option Identity)
    (hloose : terms.refuses → loose) :
    Watched terms loose
      (SdkM.buildPixAggregation inputs allocations relayFee feeRecipient)
      fun _ => True := by
  refine of_call (fun _ => trivial) (fun _ _ => rfl) fun reply hworded _ => ?_
  refine of_raise (fun _ _ => trivial) ?_
  rintro text rfl
  by_cases hrefuses : terms.refuses
  · exact Or.inl (hloose hrefuses)
  · exact Or.inr (hworded.steady (Or.inr hrefuses) rfl)

theorem allocation_watched (reader : RecordReader) (id : PixAddressId) :
    Watched terms loose (SdkM.allocation reader id : SdkM Fr _)
      fun found => ∀ record, found = some record → record.id = id := by
  refine of_call (fun _ => trivial) (fun _ _ => rfl)
    fun reply hworded hkept => ?_
  refine of_raise ?_ ?_
  · rintro found rfl record rfl
    exact hkept
  · rintro text rfl
    exact Or.inr (hworded.steady (Or.inl rfl) rfl)

/-! ## Records and notes -/

theorem preparedAllocations_watched (reader : RecordReader)
    (ids : List PixAddressId) :
    Watched terms loose (SdkM.preparedAllocations reader ids : SdkM Fr _)
      fun records => records.map StoredAllocation.id = ids := by
  induction ids with
  | nil => exact of_pure rfl
  | cons id rest ih =>
      apply (allocation_watched reader id).bind
      intro found hfound
      cases found with
      | none => exact of_throw (Or.inr rfl)
      | some record =>
          apply ih.bind
          intro records hrecords
          apply of_pure
          rw [List.map_cons, hfound record rfl, hrecords]

theorem completedAllocations_watched (update : Update)
    (ids : List PixAddressId) :
    Watched terms loose (SdkM.completedAllocations update ids : SdkM Fr _)
      fun completed => completed.map StoredAllocation.id = ids := by
  apply (preparedAllocations_watched (.completion update) ids).bind
  intro records hrecords
  apply of_pure
  rw [← hrecords, List.map_map]
  rfl

theorem notesKnownFrom_watched (config : SdkConfig Fr)
    (notes : List StoredNote) :
    Watched terms loose (SdkM.notesKnownFrom config notes) fun _ => True := by
  induction notes with
  | nil => exact of_pure trivial
  | cons stored rest ih =>
      apply (of_ofExcept (toOwned_steady config.codec stored)).bind
      intro note _
      apply (noteStatus_watched _).bind
      intro status _
      split
      · exact ih
      · exact of_pure trivial

theorem notesKnown_watched (config : SdkConfig Fr)
    (notes : List StoredNote) :
    Watched terms loose (SdkM.notesKnown config notes) fun _ => True := by
  cases notes with
  | nil => exact of_pure trivial
  | cons stored rest =>
      exact client_watched.bind fun _ _ => notesKnownFrom_watched config _

theorem checkOutputsFinalized_watched (config : SdkConfig Fr)
    (emitted : List StoredNote) :
    Watched terms loose (SdkM.checkOutputsFinalized config emitted)
      fun _ => True := by
  apply client_watched.bind
  intro _ _
  apply (of_ofExcept (.mapM (toOwned_steady config.codec))).bind
  intro notes _
  apply finalityCheckDue_watched.bind
  intro due _
  apply (of_require (by exact rfl)).bind
  intro _ _
  refine of_call (fun _ => trivial) (fun _ _ => rfl) fun reply hworded _ => ?_
  rcases (reply : Except SnapshotFailure (Option (List String))) with
    (_ | message) | _ | leaves
  · exact of_throw (Or.inr rfl)
  · exact of_throw (Or.inr (hworded.steady (Or.inl rfl) rfl))
  · exact of_throw (Or.inr rfl)
  · exact (of_require (by exact rfl)).mono (fun _ _ => trivial) id

theorem confirmWinner_watched (config : SdkConfig Fr) (attempts : ℕ)
    (emitted : List StoredNote) :
    Watched terms loose (SdkM.confirmWinner config attempts emitted)
      fun _ => True := by
  unfold SdkM.confirmWinner
  split
  · exact checkOutputsFinalized_watched config emitted
  · exact of_pure trivial

/-! ## Pending notes -/

theorem uncommitted_watched (config : SdkConfig Fr)
    (notes : List (OwnedNote Fr)) :
    Watched terms loose (SdkM.uncommitted config notes) fun _ => True := by
  induction notes with
  | nil => exact of_pure trivial
  | cons note rest ih =>
      apply (noteStatus_watched _).bind
      intro status _
      exact ih.bind fun _ _ => of_pure trivial

theorem commitNotes_watched (ids : List Fr) :
    Watched terms loose (SdkM.commitNotes ids) fun _ => True := by
  unfold SdkM.commitNotes
  split
  · exact of_pure trivial
  · exact of_sdk (.commit ids) (fun reply => reply)
      (fun _ => trivial) (fun _ _ => rfl) rfl (by rintro _ _ rfl; rfl)

theorem commitChunks_watched (config : SdkConfig Fr)
    (chunks : List (List (OwnedNote Fr))) :
    Watched terms loose (SdkM.commitChunks config chunks) fun _ => True := by
  induction chunks with
  | nil => exact of_pure trivial
  | cons chunk rest ih =>
      apply (uncommitted_watched config chunk).bind
      intro ids _
      apply (commitNotes_watched ids).bind
      intro entries _
      exact ih.bind fun _ _ => of_pure trivial

theorem clearPending_watched {state : SdkState} (hstate : terms.Admits state)
    (value : α) :
    Watched terms loose
      (do SdkM.writeState { state with pending := [] }
          SdkM.save .clearPending { state with pending := [] }
          return value : SdkM Fr α) fun _ => True := by
  have hcleared : terms.Admits { state with pending := [] } := hstate
  apply (of_writeState hcleared).bind
  intro _ _
  exact (of_save rfl hcleared).bind fun _ _ => of_pure trivial

theorem recoverPending_watched (config : SdkConfig Fr) :
    Watched terms loose (SdkM.recoverPending config) fun _ => True := by
  unfold SdkM.recoverPending
  split
  · apply of_readState
    intro state hstate
    split
    · exact of_pure trivial
    · exact clearPending_watched hstate []
  · apply of_readState
    intro state _
    split
    · exact of_pure trivial
    · apply client_watched.bind
      intro _ _
      apply (of_ofExcept (.mapM (toOwned_steady config.codec))).bind
      intro notes _
      apply (commitChunks_watched config _).bind
      intro ledger _
      apply of_readState
      exact fun state hstate => clearPending_watched hstate ledger

/-! ## The relay journal -/

/-- The allocations of the attempt are admitted. -/
def Terms.AdmitsAttempt (terms : Terms) (attempt : StoredRelayAggregation) :
    Prop :=
  ∀ id ∈ attempt.allocationIds, terms.named id

theorem Terms.Admits.last {state : SdkState} (hstate : terms.Admits state)
    {attempt : StoredRelayAggregation}
    (hlast : state.relayAggregations.getLast? = some attempt) :
    terms.AdmitsAttempt attempt :=
  hstate attempt (List.mem_of_getLast? hlast)

/-- A save from a clone, which is then assigned. -/
theorem commit_watched {update : Update} {next : SdkState}
    {allocations : List StoredAllocation} {remove : List PixAddressId}
    (hupdate : update.releases = false) (hnext : terms.Admits next)
    (hallocations : ∀ record ∈ allocations, terms.named record.id) :
    Watched terms loose
      (do SdkM.saveUpdate update next allocations remove
          SdkM.writeState next : SdkM Fr Unit) fun _ => True :=
  (of_saveUpdate hupdate hnext hallocations).bind fun _ _ =>
    of_writeState hnext

theorem unchangedAllocations_watched (records : List StoredAllocation) :
    Watched terms loose (SdkM.unchangedAllocations records : SdkM Fr Unit)
      fun _ => True := by
  induction records with
  | nil => exact of_pure trivial
  | cons record rest ih =>
      apply (allocation_watched _ record.id).bind
      intro stored _
      exact (of_require (by exact rfl)).bind fun _ _ => ih

theorem checkReplacement_watched (previous : Option StoredRelayAggregation)
    (request : PixAggregationRequest Fr) (endpoints : CurvyChainEndpoints)
    (inputs : List StoredNote) (records : List StoredAllocation) :
    Watched terms loose
      (SdkM.checkReplacement previous request endpoints inputs records)
      fun _ => True := by
  cases previous with
  | none => exact of_pure trivial
  | some previous =>
      apply (of_require (by exact rfl)).bind
      intro _ _
      apply (of_require (by exact rfl)).bind
      exact fun _ _ => unchangedAllocations_watched records

theorem prepareRelayAggregation_watched (config : SdkConfig Fr)
    (request : PixAggregationRequest Fr) (endpoints : CurvyChainEndpoints)
    (inputs : List (OwnedNote Fr)) {records : List StoredAllocation}
    (hrecords : ∀ record ∈ records, terms.named record.id) :
    Watched terms loose
      (SdkM.prepareRelayAggregation config request endpoints inputs records)
      fun _ => True := by
  apply of_readState
  intro state hstate
  apply (checkReplacement_watched _ _ _ _ _).bind
  intro _ _
  apply (of_require (by exact rfl)).bind
  intro _ _
  apply (of_reply .uuid (fun _ => trivial) fun _ _ => rfl).bind
  intro intent _
  refine commit_watched rfl (fun attempt hattempt => ?_) hrecords
  rcases List.mem_append.mp hattempt with hattempt | hattempt
  · exact hstate attempt hattempt
  · rw [List.mem_singleton.mp hattempt]
    intro id hid
    obtain ⟨record, hrecord, rfl⟩ := List.mem_map.mp hid
    exact hrecords record hrecord

theorem rebuildRelayAggregation_watched (config : SdkConfig Fr)
    (hloose : terms.refuses → loose) :
    Watched terms loose (SdkM.rebuildRelayAggregation config)
      fun _ => True := by
  apply of_readState
  intro state hstate
  split
  · exact of_throw (Or.inr rfl)
  · rename_i pending hlast
    apply (of_ofExcept (.mapM (toOwned_steady config.codec))).bind
    intro inputs _
    apply (preparedAllocations_watched _ _).bind
    intro records hrecords
    apply (of_ofExcept (.mapM (proverAllocation_steady config))).bind
    intro allocations _
    apply client_watched.bind
    intro endpoints _
    apply (of_require (by exact rfl)).bind
    intro _ _
    apply token_watched.bind
    intro token _
    apply (relayFeeRecipient_watched _ _).bind
    intro relayFee _
    apply (feeRecipient_watched config).bind
    intro feeRecipient _
    apply (buildPixAggregation_watched _ _ _ _ hloose).bind
    intro request _
    apply prepareRelayAggregation_watched
    intro record hrecord
    apply hstate.last hlast
    rw [← hrecords]
    exact List.mem_map_of_mem hrecord

theorem saveRelayAttempt_watched {cause : AttemptUpdate} {index : ℕ}
    {pending : StoredRelayAggregation}
    (hpending : terms.AdmitsAttempt pending) :
    Watched terms loose
      (SdkM.saveRelayAttempt cause index pending : SdkM Fr Unit)
      fun _ => True := by
  apply of_readState
  intro state hstate
  refine commit_watched rfl (fun attempt hattempt => ?_)
    (List.forall_mem_nil _)
  rcases List.mem_or_eq_of_mem_set hattempt with hattempt | rfl
  · exact hstate attempt hattempt
  · exact hpending

/-- The attempt is marked for a replacement. -/
theorem mark_watched {cause : AttemptUpdate} {index : ℕ}
    {pending : StoredRelayAggregation}
    (hpending : terms.AdmitsAttempt pending) :
    Watched terms loose
      (SdkM.saveRelayAttempt cause index { pending with rebuild := true } :
        SdkM Fr Unit) fun _ => True :=
  saveRelayAttempt_watched (show terms.AdmitsAttempt _ from hpending)

theorem dropRejectedAttempt_watched :
    Watched terms loose (SdkM.dropRejectedAttempt : SdkM Fr Unit)
      fun _ => True := by
  apply of_readState
  intro state hstate
  exact commit_watched rfl
    (fun attempt hattempt => hstate attempt (List.mem_of_mem_dropLast hattempt))
    (List.forall_mem_nil _)

theorem bookRelay_watched (config : SdkConfig Fr) (index : ℕ) :
    Watched terms loose (SdkM.finishRelayAggregation config (some index))
      fun _ => True := by
  apply of_readState
  intro state hstate
  apply (of_require (by exact rfl)).bind
  intro _ _
  split
  · exact of_pure trivial
  · rename_i pending hpending
    apply (of_ofExcept (bookedChange_steady config _)).bind
    intro change _
    apply (completedAllocations_watched _ _).bind
    intro completed hcompleted
    have hnamed : ∀ record ∈ completed, terms.named record.id := by
      intro record hrecord
      apply hstate pending (List.mem_of_getElem? hpending)
      rw [← hcompleted]
      exact List.mem_map_of_mem hrecord
    refine (of_saveUpdate rfl ?_ hnamed).bind fun _ _ => ?_
    · exact List.forall_mem_nil _
    · refine (of_writeState ?_).bind fun _ _ => of_pure trivial
      exact List.forall_mem_nil _

/-- The journal is given up on a report, and the error is that of the
report. -/
theorem releaseRelay_meets (config : SdkConfig Fr) {error : SdkError}
    (herror : Steady error) {holds : α → Prop} :
    (SdkM.finishRelayAggregation config none >>= fun _ =>
      (.throw error : SdkM Fr α)).Meets (watch terms)
      (fun value => ReturnsAt (holds value)) (FailsAt loose)
      (.watching (some error)) := by
  apply Program.Meets.bind
  refine Program.meets_call trivial fun state _ => ?_
  change Program.Meets _ _ _ (Program.bind (Program.require _ _) _) _
  apply Program.Meets.bind
  apply Program.meets_require
  · intro _
    dsimp only [Option.getD_none]
    split
    · exact .watching (Or.inr herror)
    · refine Program.meets_call ⟨List.forall_mem_nil _, List.forall_mem_nil _,
        fun _ => ⟨error, rfl, herror⟩⟩ fun reply hexpects => ?_
      rcases (reply : Except String Unit) with text | _
      · exact .watching (Or.inr (hexpects.1.steady (Or.inl rfl) rfl))
      · refine Program.meets_call (List.forall_mem_nil _) fun _ _ => ?_
        exact .released herror
  · exact fun _ => .watching (Or.inr rfl)

/-! ## The arms of the settling loop -/

theorem relayOutputsKnown_watched (config : SdkConfig Fr)
    (attempt : StoredRelayAggregation) :
    Watched terms loose (SdkM.relayOutputsKnown config attempt)
      fun _ => True := by
  unfold SdkM.relayOutputsKnown
  split
  · exact notesKnown_watched config _
  · exact of_pure trivial

theorem relayWinnerFrom_watched (config : SdkConfig Fr) (index : ℕ)
    (attempts : List StoredRelayAggregation) :
    Watched terms loose (SdkM.relayWinnerFrom config index attempts)
      fun found => ∀ winner, found = some winner → winner.2 ∈ attempts := by
  induction attempts generalizing index with
  | nil => exact of_pure (by simp)
  | cons attempt rest ih =>
      apply (relayOutputsKnown_watched config attempt).bind
      intro known _
      split
      · exact of_pure (by simp)
      · apply (ih (index + 1)).mono _ id
        exact fun found hfound winner hwinner =>
          List.mem_cons_of_mem _ (hfound winner hwinner)

theorem relayStatus_watched (requestId : String) :
    Watched terms loose (SdkM.relayStatus requestId : SdkM Fr _)
      fun _ => True :=
  of_reply (.relayStatus requestId) (fun _ => trivial) fun _ _ => rfl

theorem relayByIntent_watched (intent : String) (chainId : ℕ) :
    Watched terms loose (SdkM.relayByIntent intent chainId : SdkM Fr _)
      fun _ => True :=
  of_reply (.relayByIntent intent chainId) (fun _ => trivial) fun _ _ => rfl

theorem lookupRelay_watched (pending : StoredRelayAggregation) :
    Watched terms loose (SdkM.lookupRelay pending : SdkM Fr _)
      fun _ => True := by
  unfold SdkM.lookupRelay
  split
  · apply (relayStatus_watched _).bind
    intro status _
    split
    · apply (relayByIntent_watched _ _).bind
      intro found _
      split <;> exact of_pure trivial
    · exact of_pure trivial
    · exact of_pure trivial
  · split
    · exact relayByIntent_watched _ _
    · exact of_pure trivial

theorem restartUnless_watched (rebuilt : Bool) (error : RelayError) :
    Watched terms loose
      (SdkM.restartUnless rebuilt error : SdkM Fr (SdkM.Turn α))
      fun turn => turn = .restart := by
  unfold SdkM.restartUnless
  split
  · exact of_throw (Or.inr rfl)
  · exact of_pure rfl

theorem lookupArm_watched {rebuilt : Bool} {index : ℕ}
    {pending : StoredRelayAggregation}
    (hpending : terms.AdmitsAttempt pending) :
    Watched terms loose (SdkM.lookupArm rebuilt index pending : SdkM Fr _)
      fun _ => True := by
  apply (lookupRelay_watched pending).bind
  intro result _
  split
  · exact of_pure trivial
  · split
    · apply (mark_watched hpending).bind
      exact fun _ _ => (restartUnless_watched _ _).mono
        (fun _ _ => trivial) id
    · exact of_throw (Or.inr rfl)

/-- What was posted may still be named. -/
def Terms.AdmitsTurn (terms : Terms) :
    SdkM.Turn (StoredRelayAggregation × RelaySubmission) → Prop
  | .proceed (posted, _) => terms.AdmitsAttempt posted
  | .restart => True

/-- The relayer refused the POST just made. -/
theorem refusedArm_meets (config : SdkConfig Fr) (rebuilt : Bool)
    (attempts index : ℕ) (wasAttempted : Bool)
    {pending : StoredRelayAggregation} (error : RelayError)
    (hpending : terms.AdmitsAttempt pending) :
    (SdkM.refusedArm config rebuilt attempts index wasAttempted pending
      error).Meets (watch terms)
      (fun turn => ReturnsAt (terms.AdmitsTurn turn)) (FailsAt loose)
      (.watching (some (.relay error))) := by
  have hrestart : Watched terms loose
      (SdkM.restartUnless rebuilt error : SdkM Fr _) terms.AdmitsTurn := by
    apply (restartUnless_watched rebuilt error).mono _ id
    rintro _ rfl
    trivial
  unfold SdkM.refusedArm
  split
  · exact releaseRelay_meets config (show Steady (.relay error) from rfl)
  · split
    · exact (mark_watched hpending).bind (fun _ _ => hrestart) _
    · exact dropRejectedAttempt_watched.bind (fun _ _ => hrestart) _

theorem postArm_watched (config : SdkConfig Fr) (rebuilt : Bool)
    (attempts index : ℕ) (wasAttempted : Bool)
    {posting : StoredRelayAggregation} (circuit : CircuitRef)
    (hposting : terms.AdmitsAttempt posting) :
    Watched terms loose
      (SdkM.postArm config rebuilt attempts index wasAttempted posting circuit)
      terms.AdmitsTurn := by
  refine fun report => Program.meets_call trivial fun reply _ => ?_
  match reply with
  | .ok submission => exact .watching hposting
  | .error (.rejected text) =>
      exact refusedArm_meets config rebuilt attempts index wasAttempted _
        hposting
  | .error (.missingRequest _) => exact .watching (Or.inr rfl)
  | .error (.accessDenied _) => exact .watching (Or.inr rfl)
  | .error (.rateLimited _) => exact .watching (Or.inr rfl)
  | .error (.transport _) => exact .watching (Or.inr rfl)
  | .error (.failed _) => exact .watching (Or.inr rfl)
  | .error (.timeout _ _ _ _) => exact .watching (Or.inr rfl)

theorem submitArm_watched (config : SdkConfig Fr) (rebuilt : Bool)
    (attempts index : ℕ) {pending : StoredRelayAggregation}
    (hpending : terms.AdmitsAttempt pending) :
    Watched terms loose
      (SdkM.submitArm config rebuilt attempts index pending)
      terms.AdmitsTurn := by
  unfold SdkM.submitArm
  split
  · exact (mark_watched hpending).bind fun _ _ => of_pure trivial
  · refine (saveRelayAttempt_watched ?_).bind fun _ _ =>
      postArm_watched config rebuilt attempts index _ _ ?_
    · exact hpending
    · exact hpending

theorem landedArm_watched (config : SdkConfig Fr) (index : ℕ)
    {pending : StoredRelayAggregation} (landed : RelaySubmission)
    (hpending : terms.AdmitsAttempt pending) :
    Watched terms loose (SdkM.landedArm config index pending landed)
      fun _ => True := by
  refine (saveRelayAttempt_watched ?_).bind fun _ _ => ?_
  · exact hpending
  apply of_readState
  intro state hstate
  apply (relayWinnerFrom_watched config 0 _).bind
  intro found hfound
  split
  · exact of_throw (Or.inr rfl)
  · rename_i winner attempt
    refine (saveRelayAttempt_watched ?_).bind fun _ _ => ?_
    · exact hstate attempt (hfound _ rfl)
    · apply (confirmWinner_watched config _ _).bind
      exact fun _ _ => bookRelay_watched config winner

/-- The end of the wait just made. -/
theorem awaitedArm_meets (config : SdkConfig Fr) (rebuilt : Bool)
    (attempts index : ℕ) {pending : StoredRelayAggregation}
    (submission : RelaySubmission)
    (result : Except RelayError RelaySubmission)
    (hpending : terms.AdmitsAttempt pending) :
    (SdkM.awaitedArm config rebuilt attempts index pending result).Meets
      (watch terms) (fun _ => ReturnsAt True) (FailsAt loose)
      (.watching ((SdkCall.awaitInclusion submission : SdkCall Fr).report
        result)) := by
  have hmark : ∀ (cause : AttemptUpdate) (error : RelayError),
      Watched terms loose
        (do SdkM.saveRelayAttempt cause index { pending with rebuild := true }
            SdkM.restartUnless rebuilt error :
          SdkM Fr (SdkM.Turn (Option SdkM.RelayAggregationOutcome)))
        fun _ => True :=
    fun _ error => (mark_watched hpending).bind fun _ _ =>
      (restartUnless_watched rebuilt error).mono (fun _ _ => trivial) id
  match result with
  | .ok landed =>
      apply Watched.bind (landedArm_watched config index landed hpending)
      exact fun _ _ => of_pure trivial
  | .error (.timeout requestId status transactionHash progressed) =>
      refine (saveRelayAttempt_watched ?_).bind
        (fun _ _ => of_throw (Or.inr (by exact rfl))) _
      exact hpending
  | .error (.failed text) =>
      by_cases hone : attempts = 1
      · simp only [SdkM.awaitedArm, if_pos hone]
        exact releaseRelay_meets config
          (show Steady (.relay (.failed text)) from rfl)
      · simp only [SdkM.awaitedArm, if_neg hone]
        exact (mark_watched hpending).bind
          (fun _ _ => of_throw (Or.inr (by exact rfl))) _
  | .error (.missingRequest _) => exact hmark _ _ _
  | .error (.rejected _) => exact hmark _ _ _
  | .error (.accessDenied _) => exact .watching (Or.inr rfl)
  | .error (.rateLimited _) => exact .watching (Or.inr rfl)
  | .error (.transport _) => exact .watching (Or.inr rfl)

theorem awaitArm_watched (config : SdkConfig Fr) (rebuilt : Bool)
    (attempts index : ℕ) {posted : StoredRelayAggregation}
    (submission : RelaySubmission) (hposted : terms.AdmitsAttempt posted) :
    Watched terms loose
      (SdkM.awaitArm config rebuilt attempts index posted submission)
      fun _ => True := by
  have hheld : terms.AdmitsAttempt (posted.held submission) := hposted
  apply (saveRelayAttempt_watched hheld).bind
  exact fun _ _ _ => Program.meets_call trivial fun result _ =>
    awaitedArm_meets config rebuilt attempts index submission result hheld

theorem markLegacyCircuit_watched (index : ℕ)
    {pending : StoredRelayAggregation}
    (hpending : terms.AdmitsAttempt pending) :
    Watched terms loose
      (SdkM.markLegacyCircuit index pending : SdkM Fr _)
      terms.AdmitsAttempt := by
  unfold SdkM.markLegacyCircuit
  split
  · exact (mark_watched hpending).bind fun _ _ => of_pure hpending
  · exact of_pure hpending

theorem settleArm_watched (config : SdkConfig Fr) (rebuilt : Bool)
    (attempts index : ℕ) {pending : StoredRelayAggregation}
    (hpending : terms.AdmitsAttempt pending) :
    Watched terms loose
      (SdkM.settleArm config rebuilt attempts index pending)
      fun _ => True := by
  apply (of_require (by exact rfl)).bind
  intro _ _
  apply (lookupArm_watched hpending).bind
  intro turn _
  split
  · exact of_pure trivial
  · exact awaitArm_watched config _ _ _ _ hpending
  · apply (submitArm_watched config _ _ _ hpending).bind
    intro turn hturn
    split
    · exact of_pure trivial
    · exact awaitArm_watched config _ _ _ _ hturn

theorem relayTurn_watched (config : SdkConfig Fr) {rebuild : SdkM Fr Unit}
    (hrebuild : Watched terms loose rebuild fun _ => True) (rebuilt : Bool) :
    Watched terms loose (SdkM.relayTurn config rebuild rebuilt)
      fun _ => True := by
  apply of_readState
  intro state hstate
  apply (of_require (by exact rfl)).bind
  intro _ _
  dsimp only
  split
  · exact of_pure trivial
  · rename_i pending hlast
    apply client_watched.bind
    intro endpoints _
    apply (of_require (by exact rfl)).bind
    intro _ _
    apply (relayWinnerFrom_watched config 0 _).bind
    intro found _
    split
    · apply (confirmWinner_watched config _ _).bind
      intro _ _
      exact (bookRelay_watched config _).bind fun _ _ => of_pure trivial
    · apply (markLegacyCircuit_watched _ (hstate.last hlast)).bind
      intro pending hpending
      split
      · apply (of_require (by exact rfl)).bind
        intro _ _
        exact hrebuild.bind fun _ _ => of_pure trivial
      · apply (settleArm_watched config _ _ _ hpending).bind
        exact fun _ _ => of_pure trivial

theorem relayLoop_watched (config : SdkConfig Fr) {rebuild : SdkM Fr Unit}
    (hrebuild : Watched terms loose rebuild fun _ => True) (fuel : ℕ)
    (rebuilt : Bool) :
    Watched terms loose (SdkM.relayLoop config rebuild fuel rebuilt)
      fun _ => True := by
  induction fuel generalizing rebuilt with
  | zero => exact fun _ => trivial
  | succ fuel ih =>
      apply (relayTurn_watched config hrebuild rebuilt).bind
      rintro ⟨rebuilt, turn⟩ _
      cases turn with
      | proceed outcome => exact of_pure trivial
      | restart => exact ih rebuilt

/-- The settling loop fails with a refusal only if the SDK refuses to prove a
replacement. -/
theorem reconcileRelayAggregation_watched (config : SdkConfig Fr)
    (hloose : terms.refuses → loose) :
    Watched terms loose (SdkM.reconcileRelayAggregation config)
      fun _ => True := by
  apply of_readState
  exact fun state _ => relayLoop_watched config
    (rebuildRelayAggregation_watched config hloose) _ false

end HoprStrategy.Curvy
