import HoprStrategy.CurvySdkMachine

/-!
# The guard and the rules of single calls

Every function of the bridge starts with memory and disk in step and ends
that way, or halts with an error, possibly with a change in memory which could
not be saved.
-/

namespace HoprStrategy.Curvy

open Library

variable {Fr : Type}

/-- The chain was seen not to know a note. -/
def SeenUnknown (config : SdkConfig Fr) (history : List (SdkEvent Fr))
    (note : OwnedNote Fr) : Prop :=
  ∃ status, Reported history (.noteStatus (config.codec.noteId note))
    (.ok status) ∧ ¬ (status = 1 ∨ status = 2)

def Guard [DecidableEq Fr] (config : SdkConfig Fr) (distinct : Prop)
    (world : SdkWorld Fr) : SdkCall Fr → Prop
  | .writeState next =>
      (world.phase = .saved ∧ next = world.disk) ∨
        (world.phase = .settled ∧
          MemoryStep config world.history world.memory next) ∨
        (world.phase = .mutated ∧
          next = { world.memory with ambiguousAllocationIds := [] })
  | .saveUpdate update next allocations remove =>
      (world.phase = .mutated ∧ update.mutatesFirst = true ∧
          next = world.memory ∧ remove = [] ∧
          ∃ ids, CompletedRecords world ids allocations ∧
            ∀ id ∈ ids, CompletionRead world.history id) ∨
        (world.phase = .settled ∧ update.mutatesFirst = false ∧
          DurableStep config distinct world update next allocations remove)
  | .resetStore _ => False
  | .allocation reader id =>
      (world.phase = .settled ∧ reader ≠ .completion .bookAmbiguous) ∨
        (world.phase = .mutated ∧ reader = .completion .bookAmbiguous ∧
          id ∈ world.memory.ambiguousAllocationIds)
  | .relaySubmit body =>
      world.phase = .settled ∧ (body.action = .aggregation →
        ∃ attempt circuit wasAttempted state rest,
          world.memory.relayAggregations.getLast? = some attempt ∧
          attempt.rebuild = false ∧ attempt.attempted = true ∧
          attempt.requestId = none ∧ body = attempt.body circuit ∧
          world.history =
            ⟨.saveUpdate (.saveRelayAttempt (.posting wasAttempted)) state []
              [], .ok ()⟩ :: rest)
  | .submitPixAggregation request =>
      world.phase = .settled ∧ ∃ endpoints inputs records attempt,
        world.memory.operatorAggregations.getLast? = some attempt ∧
        attempt = SdkM.operatorAttempt config endpoints request inputs records
  | .fundPortal portal _ =>
      world.phase = .settled ∧ ∃ shield token,
        world.memory.shieldInFlight = some shield ∧
        shield.portalAddress = portal ∧ shield.stage = .prepared ∧
        LastReported world.history (.erc20Balance token portal) (.ok (0 : ℕ))
  | .shieldPreparedDeposit prepared =>
      world.phase = .settled ∧ ∃ shield,
        world.memory.shieldInFlight = some shield ∧ shield.stage = .funded ∧
        shield.portalAddress = prepared.portalAddress ∧
        shield.note.toOwned config.codec = .ok prepared.note
  | .sendModuleCall _ nonce =>
      world.phase = .settled ∧ ∃ shield note,
        world.memory.directShieldInFlight = some shield ∧
        shield.note.toOwned config.codec = .ok note ∧
        SeenUnknown config world.history note ∧
        LastReported world.history .transactionCount (.ok nonce)
  | .prepareDeposit _ _ _ =>
      world.phase = .settled ∧ world.memory.shieldInFlight = none
  | .prepareDirectShield _ _ =>
      world.phase = .settled ∧ world.memory.directShieldInFlight = none
  | _ => world.phase = .settled

/-- Where an error may leave the bridge. -/
def Halted (world : SdkWorld Fr) : Prop :=
  world.phase = .settled ∨ world.phase = .lost

namespace SdkWorld

/-- The world after an update was saved and assigned. -/
def committed (world : SdkWorld Fr) (update : Update) (next : SdkState)
    (allocations : List StoredAllocation) (remove : List PixAddressId) :
    SdkWorld Fr where
  memory := next
  disk := next
  records := world.records.update allocations remove
  phase := .settled
  history := ⟨.saveUpdate update next allocations remove, .ok ()⟩ ::
    world.history

theorem stranded_of_settled {world : SdkWorld Fr}
    (hphase : world.phase = .settled) : world.stranded = world := by
  cases world
  cases hphase
  rfl

theorem Quiet.settled {before after : SdkWorld Fr}
    (hquiet : Quiet before after) (hphase : before.phase = .settled) :
    after.phase = .settled :=
  hquiet.phase.trans hphase

theorem Quiet.halted {before after : SdkWorld Fr}
    (hquiet : Quiet before after) (hphase : before.phase = .settled) :
    Halted after :=
  Or.inl (hquiet.settled hphase)

end SdkWorld

open SdkWorld

theorem Reported.mono {history later : List (SdkEvent Fr)}
    {call : SdkCall Fr} {reply : call.Reply}
    (hreported : Reported history call reply) (h : history <:+ later) :
    Reported later call reply :=
  h.subset hreported

theorem LastReported.reported {history : List (SdkEvent Fr)}
    {call : SdkCall Fr} {reply : call.Reply}
    (hlast : LastReported history call reply) :
    Reported history call reply :=
  List.mem_of_mem_head? (Option.mem_def.mpr hlast)

theorem OutputsKnown.mono {config : SdkConfig Fr}
    {history later : List (SdkEvent Fr)} {emitted : List StoredNote}
    (hknown : OutputsKnown config history emitted) (h : history <:+ later) :
    OutputsKnown config later emitted := by
  refine ⟨hknown.1, fun stored hstored => ?_⟩
  rcases hknown.2 stored hstored with ⟨note, status, hnote, hstatus, hseen⟩
  exact ⟨note, status, hnote, hstatus, hseen.mono h⟩

theorem OutputsFinalized.mono {config : SdkConfig Fr}
    {history later : List (SdkEvent Fr)} {emitted : List StoredNote}
    (hfinal : OutputsFinalized config history emitted)
    (h : history <:+ later) : OutputsFinalized config later emitted := by
  rcases hfinal with ⟨leaves, hleaves, hall⟩
  exact ⟨leaves, hleaves.mono h, hall⟩

theorem Proved.mono {history later : List (SdkEvent Fr)}
    {inputs : List (OwnedNote Fr)} {request : PixAggregationRequest Fr}
    (hproved : Proved history inputs request) (h : history <:+ later) :
    Proved later inputs request := by
  rcases hproved with ⟨allocations, relayFee, feeRecipient, hbuilt⟩
  exact ⟨allocations, relayFee, feeRecipient, hbuilt.mono h⟩

/-! ## Rules of single calls -/

variable [DecidableEq Fr] {config : SdkConfig Fr} {distinct : Prop}
  {world : SdkWorld Fr} {α β : Type} {post : α → SdkWorld Fr → Prop}
  {fail : SdkError → SdkWorld Fr → Prop}

/-- The bridge keeps to the guard. -/
abbrev Obeyed (config : SdkConfig Fr) (distinct : Prop)
    (program : SdkM Fr α) (post : α → SdkWorld Fr → Prop)
    (fail : SdkError → SdkWorld Fr → Prop) (world : SdkWorld Fr) : Prop :=
  program.Obeys sdkEnvironment (Guard config distinct) post fail world

/-- A call which only adds to the history. -/
theorem obeys_external {call : SdkCall Fr} {rest : call.Reply → SdkM Fr α}
    (hguard : Guard config distinct world call)
    (hafter : ∀ reply, world.after call reply = world.record call reply)
    (hrest : ∀ reply, world.permits call reply →
      Obeyed config distinct (rest reply) post fail
        (world.record call reply)) :
    Obeyed config distinct (.call call rest) post fail world := by
  refine Program.obeys_call hguard ?_
  rintro reply after ⟨hpermits, rfl⟩
  rw [hafter]
  exact hrest reply hpermits

/-- A fallible read. -/
theorem obeys_fallible {call : SdkCall Fr} {E : Type}
    {result : call.Reply → Except E α} {toError : E → SdkError}
    (hguard : Guard config distinct world call)
    (hafter : ∀ reply, world.after call reply = world.record call reply)
    (hpost : ∀ reply value, result reply = .ok value →
      post value (world.record call reply))
    (hfail : ∀ reply error, result reply = .error error →
      fail (toError error) (world.record call reply)) :
    Obeyed config distinct
      (.call call fun reply => .raise toError (result reply)) post fail
      world := by
  refine obeys_external hguard hafter fun reply _ => ?_
  exact Program.obeys_raise (hpost reply) (hfail reply)

theorem obeys_readState {next : SdkState → SdkM Fr α}
    (hphase : world.phase = .settled)
    (hnext : Obeyed config distinct (next world.memory) post fail world) :
    Obeyed config distinct (SdkM.readState >>= next) post fail world := by
  refine Program.obeys_call hphase ?_
  rintro reply after ⟨hreply, hafter⟩
  change (reply : SdkState) = world.memory at hreply
  subst hreply
  subst hafter
  exact hnext

theorem obeys_require {condition : Prop} [Decidable condition]
    {error : SdkError} {next : Unit → SdkM Fr α}
    (hphase : world.phase = .settled)
    (hnext : condition → Obeyed config distinct (next ()) post
      (fun _ after => Halted after) world) :
    Obeyed config distinct (.require condition error >>= next) post
      (fun _ after => Halted after) world :=
  Program.Obeys.bind (Program.obeys_require hnext fun _ => Or.inl hphase)

/-- A change saved from a clone and then assigned. -/
theorem obeys_commit {update : Update} {next : SdkState}
    {allocations : List StoredAllocation} {remove : List PixAddressId}
    (hphase : world.phase = .settled) (hupdate : update.mutatesFirst = false)
    (hstep : DurableStep config distinct world update next allocations remove)
    {rest : SdkM Fr α}
    (hrest : Obeyed config distinct rest post fail
      (world.committed update next allocations remove))
    (hfail : ∀ error after, Quiet world after → fail error after) :
    Obeyed config distinct
      (do SdkM.saveUpdate update next allocations remove
          SdkM.writeState next
          rest) post fail world := by
  refine Program.obeys_call (Or.inr ⟨hphase, hupdate, hstep⟩) ?_
  rintro reply after ⟨_, rfl⟩
  cases (reply : Except String Unit) with
  | error error =>
      simp only [SdkWorld.after, stranded_of_settled hphase]
      exact hfail _ _ (Quiet.record _ (by simp [SdkEvent.saves, hupdate,
        Except.isOk, Except.toBool]))
  | ok value =>
      refine Program.obeys_call (Or.inl ?_) ?_
      · simp [SdkWorld.after, saved, SdkWorld.record, hphase]
      · rintro reply last ⟨_, rfl⟩
        have hworld : (world.after (.saveUpdate update next allocations
            remove) (.ok value)).after (.writeState next) reply =
            world.committed update next allocations remove := by
          simp [SdkWorld.after, saved, SdkWorld.record, assigned, committed,
            hphase]
        rw [hworld]
        exact hrest

/-- The last change of a function, saved from a clone. -/
theorem obeys_commitLast {update : Update} {next : SdkState}
    {allocations : List StoredAllocation} {remove : List PixAddressId}
    {post : Unit → SdkWorld Fr → Prop}
    (hphase : world.phase = .settled) (hupdate : update.mutatesFirst = false)
    (hstep : DurableStep config distinct world update next allocations remove)
    (hpost : post () (world.committed update next allocations remove))
    (hfail : ∀ error after, Quiet world after → fail error after) :
    Obeyed config distinct
      (do SdkM.saveUpdate update next allocations remove
          SdkM.writeState next) post fail world := by
  have h : Obeyed config distinct
      (SdkM.saveUpdate update next allocations remove >>= fun _ =>
        SdkM.writeState next >>= fun _ => .pure ()) post fail world :=
    obeys_commit hphase hupdate hstep hpost hfail
  exact h

/-- A change of the locked state which is saved afterwards. -/
theorem obeys_mutate {update : Update} {next : SdkState}
    (hphase : world.phase = .settled) (hupdate : update.mutatesFirst = true)
    (hstep : MemoryStep config world.history world.memory next)
    {rest : SdkM Fr α}
    (hrest : Obeyed config distinct rest post fail
      (world.committed update next [] []))
    (hfail : ∀ error after, after.phase = .lost → fail error after) :
    Obeyed config distinct
      (do SdkM.writeState next
          SdkM.save update next
          rest) post fail world := by
  refine Program.obeys_call (Or.inr (Or.inl ⟨hphase, hstep⟩)) ?_
  rintro reply after ⟨_, rfl⟩
  refine Program.obeys_call (Or.inl ?_) ?_
  · refine ⟨?_, hupdate, ?_, rfl, [], ⟨[], List.Forall₂.nil, rfl⟩,
      List.forall_mem_nil _⟩
    · simp [SdkWorld.after, assigned, hphase]
    · simp [SdkWorld.after, assigned]
  · rintro reply last ⟨_, rfl⟩
    cases (reply : Except String Unit) with
    | error error =>
        refine hfail _ _ ?_
        simp [SdkWorld.after, assigned, hphase, stranded, SdkWorld.record]
    | ok value =>
        have hworld : (world.after (.writeState next) reply).after
            (.saveUpdate update next [] []) (.ok value) =
            world.committed update next [] [] := by
          simp [SdkWorld.after, assigned, hphase, saved, SdkWorld.record,
            committed]
        rw [← hworld] at hrest
        exact hrest

theorem obeys_mutateLast {update : Update} {next : SdkState}
    {post : Unit → SdkWorld Fr → Prop}
    (hphase : world.phase = .settled) (hupdate : update.mutatesFirst = true)
    (hstep : MemoryStep config world.history world.memory next)
    (hpost : post () (world.committed update next [] []))
    (hfail : ∀ error after, after.phase = .lost → fail error after) :
    Obeyed config distinct
      (do SdkM.writeState next
          SdkM.save update next) post fail world := by
  have h : Obeyed config distinct
      (SdkM.writeState next >>= fun _ => SdkM.save update next >>= fun _ =>
        .pure ()) post fail world :=
    obeys_mutate hphase hupdate hstep hpost hfail
  refine Program.obeys_call h.1 fun reply after hafter => ?_
  have hrest := h.2 reply after hafter
  refine Program.obeys_call hrest.1 fun reply after hafter => ?_
  have hlast := hrest.2 reply after hafter
  cases (reply : Except String Unit) with
  | error error => exact hlast
  | ok value => exact hlast

end HoprStrategy.Curvy
