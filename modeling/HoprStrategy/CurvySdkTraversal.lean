import HoprStrategy.CurvySdkGuard
import HoprStrategy.Library.Fallible

/-!
# Traversal of the reads

A read leaves the bridge as it was, and its result is backed by the history.
The last function changes only the list of pending notes.
-/

namespace HoprStrategy.Curvy

open Library SdkWorld

variable {Fr : Type} [DecidableEq Fr] {config : SdkConfig Fr}
  {distinct : Prop} {world : SdkWorld Fr} {α β : Type}

/-- The program changes nothing, and what it finds is backed. -/
def Reads (config : SdkConfig Fr) (distinct : Prop) (program : SdkM Fr α)
    (found : α → SdkWorld Fr → Prop) (world : SdkWorld Fr) : Prop :=
  Obeyed config distinct program
    (fun value after => Quiet world after ∧ found value after)
    (fun _ after => Quiet world after) world

theorem Reads.bind {program : SdkM Fr α} {next : α → SdkM Fr β}
    {found : α → SdkWorld Fr → Prop} {post : β → SdkWorld Fr → Prop}
    {fail : SdkError → SdkWorld Fr → Prop}
    (hreads : Reads config distinct program found world)
    (hnext : ∀ value after, Quiet world after → found value after →
      Obeyed config distinct (next value) post fail after)
    (hfail : ∀ error after, Quiet world after → fail error after) :
    Obeyed config distinct (program >>= next) post fail world :=
  Program.Obeys.seq hreads hfail fun value after h =>
    hnext value after h.1 h.2

/-- A read in a function which may halt. -/
theorem Reads.chain {program : SdkM Fr α} {next : α → SdkM Fr β}
    {found : α → SdkWorld Fr → Prop} {post : β → SdkWorld Fr → Prop}
    (hreads : Reads config distinct program found world)
    (hphase : world.phase = .settled)
    (hnext : ∀ value after, Quiet world after → after.phase = .settled →
      found value after → Obeyed config distinct (next value) post
        (fun _ after => Halted after) after) :
    Obeyed config distinct (program >>= next) post
      (fun _ after => Halted after) world :=
  hreads.bind (fun value after hquiet hfound =>
      hnext value after hquiet (hquiet.settled hphase) hfound)
    fun _ _ hquiet => hquiet.halted hphase

theorem Reads.andThen {program : SdkM Fr α} {next : α → SdkM Fr β}
    {found : α → SdkWorld Fr → Prop} {last : β → SdkWorld Fr → Prop}
    (hreads : Reads config distinct program found world)
    (hnext : ∀ value after, Quiet world after → found value after →
      Reads config distinct (next value) last after) :
    Reads config distinct (program >>= next) last world := by
  apply hreads.bind
  · intro value after hquiet hfound
    exact (hnext value after hquiet hfound).mono
      (fun _ _ h => ⟨hquiet.trans h.1, h.2⟩) (fun _ _ h => hquiet.trans h)
  · exact fun _ _ hquiet => hquiet

theorem Reads.mono {program : SdkM Fr α}
    {found weaker : α → SdkWorld Fr → Prop}
    (hreads : Reads config distinct program found world)
    (hfound : ∀ value after, Quiet world after → found value after →
      weaker value after) :
    Reads config distinct program weaker world :=
  Program.Obeys.mono hreads
    (fun value after h => ⟨h.1, hfound value after h.1 h.2⟩)
    (fun _ _ h => h)

theorem reads_pure {value : α} {found : α → SdkWorld Fr → Prop}
    (hfound : found value world) :
    Reads config distinct (.pure value) found world :=
  ⟨Quiet.refl world, hfound⟩

theorem reads_throw {error : SdkError} {found : α → SdkWorld Fr → Prop} :
    Reads config distinct (.throw error) found world :=
  Quiet.refl world

theorem reads_require {condition : Prop} [Decidable condition]
    {error : SdkError} :
    Reads config distinct (.require condition error) (fun _ _ => condition)
      world :=
  Program.obeys_require (fun h => ⟨Quiet.refl world, h⟩)
    fun _ => Quiet.refl world

theorem reads_raise {E : Type} {toError : E → SdkError}
    {result : Except E α} :
    Reads config distinct (.raise toError result)
      (fun value _ => result = .ok value) world :=
  Program.obeys_raise (fun _ h => ⟨Quiet.refl world, h⟩)
    fun _ _ => Quiet.refl world

theorem reads_ofExcept {result : Except SdkError α} :
    Reads config distinct (SdkM.ofExcept result)
      (fun value _ => result = .ok value) world :=
  reads_raise

/-- A call which only adds to the history and is passed on as it is. -/
theorem reads_call (call : SdkCall Fr)
    (hguard : Guard config distinct world call)
    (hexternal : call.external = true) :
    Reads config distinct (.call call .pure : SdkM Fr call.Reply)
      (fun reply after => LastReported after.history call reply) world :=
  obeys_external hguard (after_external hexternal) fun reply _ =>
    ⟨Quiet.record_external world hexternal reply, rfl⟩

/-- A fallible call whose result is the reply. -/
theorem reads_fallible {E : Type} (call : SdkCall Fr)
    (result : call.Reply → Except E α) (toError : E → SdkError)
    (hguard : Guard config distinct world call)
    (hexternal : call.external = true) :
    Reads config distinct
      (.call call fun reply => .raise toError (result reply))
      (fun value after => ∃ reply, result reply = .ok value ∧
        after = world.record call reply) world :=
  obeys_fallible hguard (after_external hexternal)
    (fun reply _ h =>
      ⟨Quiet.record_external world hexternal reply, reply, h, rfl⟩)
    fun reply _ _ => Quiet.record_external world hexternal reply

omit [DecidableEq Fr] in
theorem after_allocation (hphase : world.phase = .settled)
    (reader : RecordReader) (id : PixAddressId)
    (reply : Except String (Option StoredAllocation)) :
    world.after (.allocation reader id) reply =
      world.record (.allocation reader id) reply := by
  match reply with
  | .ok (some found) => rfl
  | .ok none => simp only [SdkWorld.after, stranded_of_settled hphase]
  | .error error => simp only [SdkWorld.after, stranded_of_settled hphase]

section

variable (hphase : world.phase = .settled)

include hphase

theorem client_reads :
    Reads config distinct SdkM.client (fun _ _ => True) world :=
  (reads_fallible .client (fun reply => reply) _ hphase rfl).mono
    fun _ _ _ _ => trivial

theorem token_reads :
    Reads config distinct SdkM.token (fun _ _ => True) world :=
  (reads_fallible .token (fun reply => reply) _ hphase rfl).mono
    fun _ _ _ _ => trivial

theorem noteStatus_reads (noteId : Fr) :
    Reads config distinct (SdkM.noteStatus noteId)
      (fun status after => LastReported after.history (.noteStatus noteId)
        (.ok status)) world := by
  apply (reads_fallible (.noteStatus noteId) (fun reply => reply) _ hphase
    rfl).mono
  rintro status after _ ⟨reply, rfl, rfl⟩
  rfl

theorem finalityCheckDue_reads :
    Reads config distinct SdkM.finalityCheckDue (fun _ _ => True) world :=
  (reads_call .finalityCheckDue hphase rfl).mono
    fun _ _ _ _ => trivial

theorem notesTreeSnapshot_reads :
    Reads config distinct SdkM.notesTreeSnapshot
      (fun snapshot after => LastReported after.history .notesTreeSnapshot
        snapshot) world :=
  reads_call .notesTreeSnapshot hphase rfl

theorem relayFeeRecipient_reads (chainId token : ℕ) :
    Reads config distinct (SdkM.relayFeeRecipient chainId token)
      (fun _ _ => True) world :=
  (reads_fallible (.relayFee chainId token) (fun reply => reply) _ hphase
    rfl).mono fun _ _ _ _ => trivial

theorem feeRecipient_reads :
    Reads config distinct (SdkM.feeRecipient config) (fun _ _ => True)
      world := by
  unfold SdkM.feeRecipient
  split
  · exact reads_pure trivial
  · split
    · exact (reads_fallible .protocolFeeCollector (fun reply => reply) _
        hphase rfl).mono fun _ _ _ _ => trivial
    · exact reads_pure trivial

theorem buildPixAggregation_reads (inputs : List (OwnedNote Fr))
    (allocations : List (ScanRecipient × ℕ))
    (relayFee : Option (Identity × ℕ)) (feeRecipient : Option Identity) :
    Reads config distinct
      (SdkM.buildPixAggregation inputs allocations relayFee feeRecipient)
      (fun request after => Proved (sinceSave after.history) inputs request)
      world := by
  apply (reads_fallible (.buildPixAggregation inputs allocations relayFee
    feeRecipient) (fun reply => reply) _ hphase rfl).mono
  rintro request after _ ⟨reply, rfl, rfl⟩
  exact ⟨allocations, relayFee, feeRecipient, reported_sinceSave rfl⟩

theorem allocation_reads {reader : RecordReader}
    (hreader : reader ≠ .completion .bookAmbiguous) (id : PixAddressId) :
    Reads config distinct (SdkM.allocation reader id)
      (fun found _ => found = world.records.find id) world := by
  have hguard : Guard config distinct world (.allocation reader id) :=
    Or.inl ⟨hphase, hreader⟩
  refine obeys_external hguard (after_allocation hphase reader id)
    fun reply hpermits => ?_
  have hquiet : Quiet world (world.record (.allocation reader id) reply) :=
    .record world rfl
  rcases hpermits with hreply | ⟨error, hreply⟩
  · change (reply : Except String (Option StoredAllocation)) = _ at hreply
    subst hreply
    exact ⟨hquiet, rfl⟩
  · change (reply : Except String (Option StoredAllocation)) = _ at hreply
    subst hreply
    exact hquiet

theorem preparedAllocations_reads {reader : RecordReader}
    (hreader : reader ≠ .completion .bookAmbiguous)
    (ids : List PixAddressId) :
    Reads config distinct (SdkM.preparedAllocations reader ids)
      (fun records _ => List.Forall₂
        (fun id record => world.records.find id = some record) ids records)
      world := by
  induction ids generalizing world with
  | nil => exact reads_pure List.Forall₂.nil
  | cons id rest ih =>
      apply (allocation_reads hphase hreader id).andThen
      rintro found middle hquiet rfl
      cases hfound : world.records.find id with
      | none => exact reads_throw
      | some record =>
          apply (ih (hquiet.settled hphase)).andThen
          intro records last _ hrecords
          rw [hquiet.records] at hrecords
          exact reads_pure (List.Forall₂.cons hfound hrecords)

theorem completedAllocations_reads {update : Update}
    (hupdate : update ≠ .bookAmbiguous)
    (ids : List PixAddressId) :
    Reads config distinct (SdkM.completedAllocations update ids)
      (fun completed _ => CompletedRecords world ids completed) world := by
  apply (preparedAllocations_reads hphase
    (fun h => hupdate (RecordReader.completion.inj h)) ids).andThen
  intro records last _ hrecords
  exact reads_pure ⟨records, hrecords, rfl⟩

theorem notesKnownFrom_reads (notes : List StoredNote) :
    Reads config distinct (SdkM.notesKnownFrom config notes)
      (fun known after => known = true →
        ∀ stored ∈ notes, NoteSeen config after.history stored) world := by
  induction notes generalizing world with
  | nil => exact reads_pure fun _ => List.forall_mem_nil _
  | cons stored rest ih =>
      apply reads_ofExcept.andThen
      intro note first hfirst hnote
      apply (noteStatus_reads (hfirst.settled hphase) _).andThen
      intro status second hsecond hstatus
      have hsettled := (hfirst.trans hsecond).settled hphase
      split
      · rename_i hseen
        apply (ih hsettled).mono
        intro known last hlast hrest hknown
        rw [List.forall_mem_cons]
        constructor
        · exact ⟨note, status, hnote, hseen,
            hstatus.reported.mono hlast.history⟩
        · exact hrest hknown
      · exact reads_pure (by simp)

theorem notesKnown_reads (notes : List StoredNote) :
    Reads config distinct (SdkM.notesKnown config notes)
      (fun known after => known = true →
        OutputsKnown config after.history notes) world := by
  cases notes with
  | nil => exact reads_pure (by simp)
  | cons stored rest =>
      apply (client_reads hphase).andThen
      intro _ middle hmiddle _
      apply (notesKnownFrom_reads (hmiddle.settled hphase) _).mono
      intro known last _ hseen hknown
      exact ⟨List.cons_ne_nil _ _, hseen hknown⟩

end

/-- What a successful `mapM` found, element by element. -/
theorem forall₂_of_mapM {f : α → Except SdkError β} {items : List α}
    {results : List β} (h : items.mapM f = .ok results) :
    List.Forall₂ (fun item result => f item = .ok result) items results := by
  induction items generalizing results with
  | nil =>
      cases h
      exact List.Forall₂.nil
  | cons item rest ih =>
      rw [List.mapM_cons] at h
      rcases bind_eq_ok.mp h with ⟨result, hresult, h⟩
      rcases bind_eq_ok.mp h with ⟨more, hmore, h⟩
      cases h
      exact List.Forall₂.cons hresult (ih hmore)

omit [DecidableEq Fr] in
theorem exists_of_forall₂ {R : α → β → Prop} {left : List α}
    {right : List β} (h : List.Forall₂ R left right) {item : α}
    (hitem : item ∈ left) : ∃ other ∈ right, R item other := by
  induction h with
  | nil => cases hitem
  | cons hhead _ ih =>
      rcases List.mem_cons.mp hitem with rfl | hrest
      · exact ⟨_, List.mem_cons_self, hhead⟩
      · rcases ih hrest with ⟨other, hother, hR⟩
        exact ⟨other, List.mem_cons_of_mem _ hother, hR⟩

theorem checkOutputsFinalized_reads (hphase : world.phase = .settled)
    (emitted : List StoredNote) :
    Reads config distinct (SdkM.checkOutputsFinalized config emitted)
      (fun _ after => OutputsFinalized config after.history emitted)
      world := by
  apply (client_reads hphase).andThen
  intro _ first hfirst _
  apply reads_ofExcept.andThen
  intro notes second hsecond hnotes
  have hsettled := (hfirst.trans hsecond).settled hphase
  apply (finalityCheckDue_reads hsettled).andThen
  intro due third hthird _
  apply reads_require.andThen
  intro _ fourth hfourth _
  have hsettled := (hthird.trans hfourth).settled hsettled
  apply (notesTreeSnapshot_reads hsettled).andThen
  intro snapshot fifth hfifth hsnapshot
  split
  · exact reads_throw
  · exact reads_throw
  · exact reads_throw
  · rename_i leaves
    apply reads_require.mono
    intro _ last hlast hleaves
    refine ⟨leaves, hsnapshot.reported.mono hlast.history, ?_⟩
    intro stored hstored
    rcases exists_of_forall₂ (forall₂_of_mapM hnotes) hstored with
      ⟨note, hmem, hnote⟩
    exact ⟨note, hnote, hleaves _ (List.mem_map_of_mem hmem)⟩

theorem confirmWinner_reads (hphase : world.phase = .settled) (attempts : ℕ)
    (emitted : List StoredNote) :
    Reads config distinct (SdkM.confirmWinner config attempts emitted)
      (fun _ after => attempts > 1 →
        OutputsFinalized config after.history emitted) world := by
  unfold SdkM.confirmWinner
  split
  · exact (checkOutputsFinalized_reads hphase emitted).mono
      fun _ _ _ h _ => h
  · exact reads_pure fun h => absurd h ‹_›

/-! ## Pending notes -/

/-- Nothing but the list of pending notes has changed in memory. -/
structure Tidied (before after : SdkWorld Fr) : Prop where
  phase : after.phase = .settled
  memory : ∃ pending, after.memory = { before.memory with pending := pending }
  records : after.records = before.records
  history : before.history <:+ after.history

omit [DecidableEq Fr] in
theorem Tidied.of_quiet {before after : SdkWorld Fr}
    (hquiet : Quiet before after) (hphase : before.phase = .settled) :
    Tidied before after where
  phase := hquiet.settled hphase
  memory := ⟨before.memory.pending, hquiet.memory⟩
  records := hquiet.records
  history := hquiet.history

omit [DecidableEq Fr] in
theorem Tidied.trans {first second third : SdkWorld Fr}
    (hfirst : Tidied first second) (hsecond : Tidied second third) :
    Tidied first third where
  phase := hsecond.phase
  memory := by
    rcases hfirst.memory with ⟨_, hmemory⟩
    rcases hsecond.memory with ⟨pending, hlast⟩
    exact ⟨pending, by rw [hlast, hmemory]⟩
  records := hsecond.records.trans hfirst.records
  history := hfirst.history.trans hsecond.history

section

variable (hphase : world.phase = .settled)

include hphase

theorem uncommitted_reads (notes : List (OwnedNote Fr)) :
    Reads config distinct (SdkM.uncommitted config notes) (fun _ _ => True)
      world := by
  induction notes generalizing world with
  | nil => exact reads_pure trivial
  | cons note rest ih =>
      apply (noteStatus_reads hphase _).andThen
      intro status first hfirst _
      apply (ih (hfirst.settled hphase)).andThen
      exact fun _ _ _ _ => reads_pure trivial

theorem commitNotes_reads (ids : List Fr) :
    Reads config distinct (SdkM.commitNotes ids) (fun _ _ => True) world := by
  unfold SdkM.commitNotes
  split
  · exact reads_pure trivial
  · exact (reads_fallible (.commit ids) (fun reply => reply) _ hphase
      rfl).mono fun _ _ _ _ => trivial

theorem commitChunks_reads (chunks : List (List (OwnedNote Fr))) :
    Reads config distinct (SdkM.commitChunks config chunks) (fun _ _ => True)
      world := by
  induction chunks generalizing world with
  | nil => exact reads_pure trivial
  | cons chunk rest ih =>
      apply (uncommitted_reads hphase chunk).andThen
      intro ids first hfirst _
      apply (commitNotes_reads (hfirst.settled hphase) ids).andThen
      intro entries second hsecond _
      apply (ih ((hfirst.trans hsecond).settled hphase)).andThen
      exact fun _ _ _ _ => reads_pure trivial

/-- Forgetting the pending notes which were read earlier. -/
theorem obeys_clearPending {value : α}
    (hpending : world.memory.pending.isEmpty = false) :
    Obeyed config distinct
      (do SdkM.writeState { world.memory with pending := [] }
          SdkM.save .clearPending { world.memory with pending := [] }
          return value)
      (fun result after => result = value ∧ Tidied world after)
      (fun _ after => Halted after) world := by
  apply obeys_mutate hphase rfl
  · exact .clearPending (by simpa using hpending)
  · refine ⟨rfl, rfl, ⟨[], rfl⟩, ?_, List.suffix_cons _ _⟩
    simp [SdkWorld.committed]
  · exact fun _ _ h => Or.inr h

theorem recoverPending_obeys :
    Obeyed config distinct (SdkM.recoverPending config)
      (fun _ after => Tidied world after) (fun _ after => Halted after)
      world := by
  unfold SdkM.recoverPending
  split
  · apply obeys_readState hphase
    split
    · exact Tidied.of_quiet (Quiet.refl world) hphase
    · rename_i hpending
      exact (obeys_clearPending hphase (by simpa using hpending)).mono
        (fun _ _ h => h.2) fun _ _ h => h
  · apply obeys_readState hphase
    split
    · exact Tidied.of_quiet (Quiet.refl world) hphase
    · rename_i hpending
      apply (client_reads hphase).chain hphase
      intro _ first hfirst hphase₁ _
      apply reads_ofExcept.chain hphase₁
      intro notes second hsecond hphase₂ _
      apply (commitChunks_reads hphase₂ _).chain hphase₂
      intro ledger third hthird hphase₃ _
      have hquiet := (hfirst.trans hsecond).trans hthird
      apply obeys_readState hphase₃
      apply (obeys_clearPending hphase₃ _).mono
      · exact fun _ _ h => (Tidied.of_quiet hquiet hphase).trans h.2
      · exact fun _ _ h => h
      · rw [hquiet.memory]
        simpa using hpending

end

end HoprStrategy.Curvy
