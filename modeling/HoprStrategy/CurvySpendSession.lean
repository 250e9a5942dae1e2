import HoprStrategy.CurvyOneSpend

/-!
# The spend invariant of a session

The store and the memory of the bridge are sound in every world a session
passes through, whichever call it is in the middle of.  What the store gains
or loses with a save is read off the history.
-/

namespace HoprStrategy.Curvy

open Library SdkWorld

variable {Fr : Type} {codec : NoteCodec Fr} {start : SdkState}
  {history : List (SdkEvent Fr)} {event : SdkEvent Fr}

/-! ## One more event -/

theorem issuedNotes_cons :
    issuedNotes codec (event :: history) =
      (event.issued codec).toList ++ issuedNotes codec history := by
  cases hissued : event.issued codec <;>
    simp [issuedNotes, hissued]

theorem issuedNotes_of_saves (codec : NoteCodec Fr)
    (history : List (SdkEvent Fr)) (hsaves : event.saves = true) :
    issuedNotes codec (event :: history) = issuedNotes codec history := by
  simp [issuedNotes_cons, SdkEvent.issued_of_saves hsaves]

theorem stored_of_stores_none (hstores : event.stores = none) :
    stored start (event :: history) = stored start history := by
  simp [stored, hstores]

theorem bookings_of_stores_none (start : SdkState)
    (history : List (SdkEvent Fr)) (hstores : event.stores = none) :
    bookings start (event :: history) = bookings start history := by
  simp [bookings, hstores]

theorem departures_of_stores_none (hstores : event.stores = none)
    (hdepartures : Departures codec start history) :
    Departures codec start (event :: history) := by
  refine ⟨fun update next hupdate => ?_, hdepartures⟩
  rw [hstores] at hupdate
  cases hupdate

theorem stored_of_stores {update : Update} {next : SdkState}
    (hstores : event.stores = some (update, next)) :
    stored start (event :: history) = next := by
  simp [stored, hstores]

theorem bookings_of_stores (start : SdkState)
    (history : List (SdkEvent Fr)) {update : Update} {next : SdkState}
    (hstores : event.stores = some (update, next)) :
    bookings start (event :: history) =
      ((stored start history).bookedBy update).toList ++
        bookings start history := by
  simp [bookings, hstores]

theorem unused_of_saves {booked : List StoredNote} {state : SdkState}
    (hsaves : event.saves = true) :
    Unused codec (event :: history) booked state := by
  simp [Unused, sinceSave_of_saves hsaves, issuedNotes]

/-! ## The invariant -/

structure SpendInvariant (codec : NoteCodec Fr) (start : SdkState)
    (world : SdkWorld Fr) : Prop where
  stored : stored start world.history = world.disk
  disk : Sound (issuedNotes codec world.history)
    (bookings start world.history).flatten world.disk
  memory : world.phase ≠ .saved → Sound (issuedNotes codec world.history)
    (bookings start world.history).flatten world.memory
  journals : world.phase ≠ .saved →
    world.memory.relayAggregations = world.disk.relayAggregations ∧
      world.memory.operatorAggregations = world.disk.operatorAggregations
  records : PreparedSpends world.records world.disk
  unusedDisk : Unused codec world.history
    (bookings start world.history).flatten world.disk
  unusedMemory : world.phase ≠ .saved → world.phase ≠ .mutated →
    Unused codec world.history (bookings start world.history).flatten
      world.memory
  booked : (bookings start world.history).flatten ⊆
    issuedNotes codec world.history
  uncompleted : ∀ id, ¬ CompletionRead world.history id
  disjoint : (bookings start world.history).Pairwise List.Disjoint
  departures : Departures codec start world.history

namespace SpendInvariant

variable {world : SdkWorld Fr}

/-- Journals which are equal spend the same. -/
theorem spends (hinv : SpendInvariant codec start world)
    (hphase : world.phase ≠ .saved) :
    world.memory.spends = world.disk.spends := by
  rcases hinv.journals hphase with ⟨hrelay, hoperator⟩
  simp only [SdkState.spends, hrelay, hoperator]

theorem bookedBy (hinv : SpendInvariant codec start world)
    (hphase : world.phase ≠ .saved) (update : Update) :
    (Curvy.stored start world.history).bookedBy update =
      world.memory.bookedBy update := by
  rcases hinv.journals hphase with ⟨hrelay, hoperator⟩
  rw [hinv.stored]
  unfold SdkState.bookedBy
  rw [hrelay, hoperator]

/-- An issued note is new to a sound state. -/
theorem unused_cons {booked : List StoredNote} {state : SdkState}
    (hsound : Sound (issuedNotes codec history) booked state)
    (hbooked : booked ⊆ issuedNotes codec history)
    (hunused : Unused codec history booked state)
    (hsaves : event.saves = false)
    (hfresh : ∀ note, event.issued codec = some note →
      note ∉ issuedNotes codec history) :
    Unused codec (event :: history) booked state := by
  intro note hnote
  rw [sinceSave_cons hsaves, issuedNotes_cons] at hnote
  rcases List.mem_append.mp hnote with hnew | hold
  · have hnew := hfresh note (Option.mem_toList.mp hnew)
    exact ⟨fun hlive => hnew (hsound.accounted.known hlive),
      fun hspent => hnew (hbooked hspent)⟩
  · exact hunused note hold

/-- A call which saves nothing and reads no record to complete it. -/
theorem record (hinv : SpendInvariant codec start world) {call : SdkCall Fr}
    {reply : call.Reply} (hsaves : SdkEvent.saves ⟨call, reply⟩ = false)
    (hfresh : ∀ note, SdkEvent.issued codec ⟨call, reply⟩ = some note →
      note ∉ issuedNotes codec world.history)
    (hread : ∀ id, ¬ CompletionRead [⟨call, reply⟩] id) :
    SpendInvariant codec start (world.record call reply) := by
  have hstores := SdkEvent.stores_of_not_saves hsaves
  have hbookings : bookings start (world.record call reply).history =
      bookings start world.history :=
    bookings_of_stores_none _ _ hstores
  have hissued : issuedNotes codec world.history ⊆
      issuedNotes codec (world.record call reply).history :=
    issuedNotes_of_suffix (List.suffix_cons _ _)
  refine ⟨?_, ?_, ?_, hinv.journals, hinv.records, ?_, ?_, ?_, ?_, ?_, ?_⟩
  · exact (stored_of_stores_none hstores).trans hinv.stored
  · rw [hbookings]
    exact hinv.disk.mono hissued
  · intro hphase
    rw [hbookings]
    exact (hinv.memory hphase).mono hissued
  · rw [hbookings]
    exact unused_cons hinv.disk hinv.booked hinv.unusedDisk hsaves hfresh
  · intro hsaved hmutated
    rw [hbookings]
    exact unused_cons (hinv.memory hsaved) hinv.booked
      (hinv.unusedMemory hsaved hmutated) hsaves hfresh
  · rw [hbookings]
    exact fun _ hspent => hissued (hinv.booked hspent)
  · rintro id ⟨record, hreported⟩
    rcases List.mem_cons.mp hreported with hhead | hold
    · exact hread id ⟨record, List.mem_singleton.mpr hhead⟩
    · exact hinv.uncompleted id ⟨record, hold⟩
  · rw [hbookings]
    exact hinv.disjoint
  · exact departures_of_stores_none hstores hinv.departures

theorem not_completionRead_of_external {call : SdkCall Fr}
    (hexternal : call.external = true) (reply : call.Reply)
    (id : PixAddressId) : ¬ CompletionRead [⟨call, reply⟩] id := by
  rintro ⟨record, hreported⟩
  have hsame := congrArg SdkEvent.call (List.mem_singleton.mp hreported)
  simp only at hsame
  rw [← hsame] at hexternal
  cases hexternal

/-- The locked state is changed before it is saved. -/
theorem mutate (hinv : SpendInvariant codec start world) {next : SdkState}
    (hphase : world.phase = .settled)
    (hsound : Sound (issuedNotes codec world.history)
      (bookings start world.history).flatten next)
    (hrelay : next.relayAggregations = world.memory.relayAggregations)
    (hoperator : next.operatorAggregations =
      world.memory.operatorAggregations) :
    SpendInvariant codec start
      { world with
        memory := next
        phase := .mutated } := by
  rcases hinv.journals (by simp [hphase]) with ⟨hsame, hsame'⟩
  exact { hinv with
    memory := fun _ => hsound
    journals := fun _ => ⟨hrelay.trans hsame, hoperator.trans hsame'⟩
    unusedMemory := fun _ h => absurd rfl h }

/-- The saved state is assigned, or loaded after a crash. -/
theorem settle (hinv : SpendInvariant codec start world) :
    SpendInvariant codec start
      { world with
        memory := world.disk
        phase := .settled } :=
  { hinv with
    memory := fun _ => hinv.disk
    journals := fun _ => ⟨rfl, rfl⟩
    unusedMemory := fun _ _ => hinv.unusedDisk }

section

variable [DecidableEq Fr] {config : SdkConfig Fr} {distinct : Prop}

omit [DecidableEq Fr] in
/-- A clone is saved. -/
theorem commit (hinv : SpendInvariant config.codec start world)
    (hphase : world.phase = .settled) {update : Update} {next : SdkState}
    {allocations : List StoredAllocation} {remove : List PixAddressId}
    (hstep : DurableStep config distinct world update next allocations
      remove) :
    SpendInvariant config.codec start
      { memory := world.memory
        disk := next
        records := world.records.update allocations remove
        phase := .saved
        history := ⟨.saveUpdate update next allocations remove, .ok ()⟩ ::
          world.history } := by
  have hsaved : world.phase ≠ .saved := by simp [hphase]
  have hmemory := hinv.memory hsaved
  have hunused := hinv.unusedMemory hsaved (by simp [hphase])
  have hsaves : (⟨.saveUpdate update next allocations remove, .ok ()⟩ :
      SdkEvent Fr).saves = true := by
    simp [SdkEvent.saves, Except.isOk, Except.toBool]
  have hstores : (⟨.saveUpdate update next allocations remove, .ok ()⟩ :
      SdkEvent Fr).stores =
        some (update, next) := rfl
  have hbookings := bookings_of_stores start world.history hstores
  rw [hinv.bookedBy hsaved] at hbookings
  have hissued := issuedNotes_of_saves config.codec world.history hsaves
  have hspent : ∀ {inputs : List StoredNote},
      world.memory.bookedBy update = some inputs →
        inputs ⊆ world.memory.notes := by
    intro inputs hbooked
    rcases bookedBy_spend hbooked with ⟨spend, hspend, rfl⟩
    exact fun note hnote =>
      List.mem_append_left _ (hmemory.inputs spend hspend hnote)
  refine ⟨stored_of_stores hstores, ?_, ?_, ?_, ?_, unused_of_saves hsaves,
    ?_, ?_, ?_, ?_, ?_⟩
  · rw [hissued, hbookings, List.flatten_append]
    exact hstep.sound hmemory hunused
  · exact fun h => absurd rfl h
  · exact fun h => absurd rfl h
  · apply hstep.prepared hmemory
    intro spend hspend
    rw [hinv.spends hsaved] at hspend
    exact hinv.records spend hspend
  · exact fun h => absurd rfl h
  · rw [hissued, hbookings, List.flatten_append]
    intro note hnote
    rcases List.mem_append.mp hnote with hnew | hold
    · cases hbooked : world.memory.bookedBy update with
      | none => simp [hbooked] at hnew
      | some inputs =>
          rw [hbooked] at hnew
          have hmem : note ∈ inputs := by simpa using hnew
          exact hmemory.accounted.known (hspent hbooked hmem)
    · exact hinv.booked hold
  · rintro id ⟨record, hreported⟩
    rcases List.mem_cons.mp hreported with hhead | hold
    · cases congrArg SdkEvent.call hhead
    · exact hinv.uncompleted id ⟨record, hold⟩
  · rw [hbookings]
    cases hbooked : world.memory.bookedBy update with
    | none => exact hinv.disjoint
    | some inputs =>
        refine List.pairwise_cons.mpr ⟨?_, hinv.disjoint⟩
        intro other hother note hinput hspent'
        exact hmemory.accounted.disjoint_spent (hspent hbooked) hinput
          (List.mem_flatten_of_mem hother hspent')
  · refine ⟨?_, hinv.departures⟩
    intro update' next' hstores' attempt hleft
    rw [hstores] at hstores'
    cases hstores'
    have hstored : (Curvy.stored start world.history).operatorAggregations =
        world.memory.operatorAggregations := by
      rw [hinv.stored]
      exact (hinv.journals hsaved).2.symm
    rw [hstored] at hleft
    have hdeparture := hstep.departure hleft
    cases hdeparture with
    | failed update hcodec hattempt hfailed =>
        exact .failed update hcodec hattempt hfailed
    | booked hcodec hwinner hfinal =>
        exact .booked hcodec (by rw [hstored]; exact hwinner)
          (by rw [hstored]; exact hfinal)

omit [DecidableEq Fr] in
theorem bookedBy_of_mutatesFirst {state : SdkState} {update : Update}
    (hupdate : update.mutatesFirst = true) : state.bookedBy update = none := by
  cases update <;> first | rfl | cases hupdate

omit [DecidableEq Fr] in
/-- No record was read to be completed, so none is. -/
theorem uncompleted_eq_nil (hinv : SpendInvariant codec start world)
    {ids : List PixAddressId} {allocations : List StoredAllocation}
    (hcompleted : CompletedRecords world ids allocations)
    (hread : ∀ id ∈ ids, CompletionRead world.history id) :
    allocations = [] := by
  have hids : ids = [] := List.eq_nil_iff_forall_not_mem.mpr
    fun id hid => hinv.uncompleted id (hread id hid)
  rcases hcompleted with ⟨records, hrecords, rfl⟩
  rw [hids] at hrecords
  cases hrecords
  rfl

omit [DecidableEq Fr] in
/-- The locked state is saved after it was changed. -/
theorem persist (hinv : SpendInvariant codec start world)
    (hphase : world.phase = .mutated) {update : Update}
    (hupdate : update.mutatesFirst = true) :
    SpendInvariant codec start
      { memory := world.memory
        disk := world.memory
        records := world.records
        phase := .settled
        history := ⟨.saveUpdate update world.memory [] [], .ok ()⟩ ::
          world.history } := by
  have hsaved : world.phase ≠ .saved := by simp [hphase]
  have hmemory := hinv.memory hsaved
  have hsaves : (⟨.saveUpdate update world.memory [] [], .ok ()⟩ :
      SdkEvent Fr).saves = true := by
    simp [SdkEvent.saves, hupdate]
  have hstores : (⟨.saveUpdate update world.memory [] [], .ok ()⟩ :
      SdkEvent Fr).stores =
        some (update, world.memory) := rfl
  have hbookings := bookings_of_stores start world.history hstores
  rw [bookedBy_of_mutatesFirst hupdate] at hbookings
  have hissued := issuedNotes_of_saves codec world.history hsaves
  have hsound : Sound (issuedNotes codec (⟨.saveUpdate update world.memory []
      [], .ok ()⟩ :: world.history)) (bookings start (⟨.saveUpdate update
      world.memory [] [], .ok ()⟩ :: world.history)).flatten world.memory := by
    rw [hissued, hbookings]
    exact hmemory
  refine ⟨stored_of_stores hstores, hsound, fun _ => hsound,
    fun _ => ⟨rfl, rfl⟩, ?_, unused_of_saves hsaves,
    fun _ _ => unused_of_saves hsaves, ?_, ?_, ?_, ?_⟩
  · intro spend hspend
    rw [hinv.spends hsaved] at hspend
    exact hinv.records spend hspend
  · rw [hissued, hbookings]
    exact hinv.booked
  · rintro id ⟨record, hreported⟩
    rcases List.mem_cons.mp hreported with hhead | hold
    · cases congrArg SdkEvent.call hhead
    · exact hinv.uncompleted id ⟨record, hold⟩
  · rw [hbookings]
    exact hinv.disjoint
  · refine ⟨?_, hinv.departures⟩
    intro update' next' hstores' attempt hleft
    rw [hstores] at hstores'
    cases hstores'
    rw [hinv.stored, (hinv.journals hsaved).2] at hleft
    exact absurd hleft (lt_irrefl _)

omit [DecidableEq Fr] in
/-- The save of a change in memory fails. -/
theorem strand (hinv : SpendInvariant codec start world)
    (hphase : world.phase = .mutated) {update : Update}
    (hupdate : update.mutatesFirst = true)
    (allocations : List StoredAllocation) (error : String) :
    SpendInvariant codec start
      { world with
        phase := .lost
        history := ⟨.saveUpdate update world.memory allocations [],
          .error error⟩ :: world.history } := by
  have hsaved : world.phase ≠ .saved := by simp [hphase]
  have hsaves : (⟨.saveUpdate update world.memory allocations [],
      .error error⟩ : SdkEvent Fr).saves = true := by
    simp [SdkEvent.saves, hupdate]
  have hstores : (⟨.saveUpdate update world.memory allocations [],
      .error error⟩ : SdkEvent Fr).stores = none := rfl
  have hbookings := bookings_of_stores_none start world.history hstores
  have hissued := issuedNotes_of_saves codec world.history hsaves
  refine ⟨(stored_of_stores_none hstores).trans hinv.stored, ?_, ?_,
    fun _ => hinv.journals hsaved, hinv.records, unused_of_saves hsaves,
    fun _ _ => unused_of_saves hsaves, ?_, ?_, ?_,
    departures_of_stores_none hstores hinv.departures⟩
  · rw [hissued, hbookings]
    exact hinv.disk
  · intro _
    rw [hissued, hbookings]
    exact hinv.memory hsaved
  · rw [hissued, hbookings]
    exact hinv.booked
  · rintro id ⟨record, hreported⟩
    rcases List.mem_cons.mp hreported with hhead | hold
    · cases congrArg SdkEvent.call hhead
    · exact hinv.uncompleted id ⟨record, hold⟩
  · rw [hbookings]
    exact hinv.disjoint

/-- Every guarded call of a session keeps the invariant. -/
theorem step {before after : SdkWorld Fr} {call : SdkCall Fr}
    {reply : call.Reply}
    (hinv : SpendInvariant config.codec start before)
    (hstep : GuardedStep config distinct before call reply after)
    (hfresh : ∀ note, SdkEvent.issued config.codec ⟨call, reply⟩ =
      some note → note ∉ issuedNotes config.codec before.history) :
    SpendInvariant config.codec start after := by
  have hlisted : before.phase ≠ .saved → ∀ id,
      id ∉ before.memory.ambiguousAllocationIds := by
    intro hphase id
    rw [(hinv.memory hphase).unlisted]
    exact List.not_mem_nil
  cases hstep with
  | read => exact hinv
  | external reply hexternal _ _ =>
      exact hinv.record (SdkEvent.saves_external hexternal reply) hfresh
        (not_completionRead_of_external hexternal reply)
  | @found reader id record hreader hfind =>
      apply hinv.record rfl hfresh
      rintro other ⟨record', hreported⟩
      cases List.mem_singleton.mp hreported
      exact hlisted (by simp [(hreader rfl).1]) id (hreader rfl).2
  | missed reader id reply hphase hreader =>
      apply hinv.record rfl hfresh
      rintro other ⟨record', hreported⟩
      cases List.mem_singleton.mp hreported
      exact hreader rfl
  | missedMutated id hid _ hphase =>
      exact absurd hid (hlisted (by simp [hphase]) id)
  | mutated hphase hstep =>
      have hsaved : before.phase ≠ .saved := by simp [hphase]
      rcases hstep.journals with ⟨hrelay, hoperator⟩
      exact hinv.mutate hphase (hstep.sound (hinv.memory hsaved)
        (hinv.unusedMemory hsaved (by simp [hphase]))) hrelay hoperator
  | clearedIds hphase =>
      have hmemory := hinv.memory (by simp [hphase])
      have hsame : { before.memory with ambiguousAllocationIds := [] } =
          before.memory := by
        rw [← hmemory.unlisted]
      rw [hsame]
      exact hinv
  | assigned hphase => exact hinv.settle
  | saved hphase hupdate hstep => exact hinv.commit hphase hstep
  | saveFailed error hphase hupdate =>
      apply hinv.record _ hfresh
      · rintro id ⟨record, hreported⟩
        cases congrArg SdkEvent.call (List.mem_singleton.mp hreported)
      · simp [SdkEvent.saves, hupdate, Except.isOk, Except.toBool]
  | persisted hphase hupdate hcompleted hread =>
      have hnone := hinv.uncompleted_eq_nil hcompleted hread
      subst hnone
      rw [AllocationTable.update_nil]
      exact hinv.persist hphase hupdate
  | stranded error hphase hupdate =>
      exact hinv.strand hphase hupdate _ error

end

end SpendInvariant

/-! ## Sessions -/

theorem sound_fresh (codec : NoteCodec Fr) (spender : Option StoredSpender) :
    Sound (issuedNotes codec []) [] (SdkState.fresh spender) where
  exclusive := Or.inl rfl
  inputs := List.forall_mem_nil _
  accounted := Accounted.nil
  unambiguous := rfl
  unlisted := rfl

theorem SpendInvariant.agreeing_fresh (codec : NoteCodec Fr)
    (spender : Option StoredSpender) :
    SpendInvariant codec (.fresh spender)
      (SdkWorld.agreeing (.fresh spender) .empty) where
  stored := rfl
  disk := sound_fresh codec spender
  memory := fun _ => sound_fresh codec spender
  journals := fun _ => ⟨rfl, rfl⟩
  records := List.forall_mem_nil _
  unusedDisk := List.forall_mem_nil _
  unusedMemory := fun _ _ => List.forall_mem_nil _
  booked := List.nil_subset _
  uncompleted := by
    rintro id ⟨record, ⟨⟩⟩
  disjoint := List.Pairwise.nil
  departures := trivial

/-- Between operations memory is not ahead of a save which is still to
come. -/
theorem SpendInvariant.resume {world : SdkWorld Fr}
    (hinv : SpendInvariant codec start world) (hhalted : Halted world) :
    SpendInvariant codec start world.resumed := by
  have hsaved : world.phase ≠ .saved := by
    rcases hhalted with hphase | hphase <;> simp [hphase]
  have hmutated : world.phase ≠ .mutated := by
    rcases hhalted with hphase | hphase <;> simp [hphase]
  exact { hinv with
    memory := fun _ => hinv.memory hsaved
    journals := fun _ => hinv.journals hsaved
    unusedMemory := fun _ _ => hinv.unusedMemory hsaved hmutated }

section

variable [DecidableEq Fr]

/-- Calls which are guarded for some configuration over the same notes. -/
def SessionGuard (codec : NoteCodec Fr) (world : SdkWorld Fr)
    (call : SdkCall Fr) : Prop :=
  ∃ config : SdkConfig Fr, config.codec = codec ∧ Guard config False world call

theorem Obeyed.session {α : Type} {config : SdkConfig Fr}
    {program : SdkM Fr α} {post : α → SdkWorld Fr → Prop}
    {fail : SdkError → SdkWorld Fr → Prop} {world : SdkWorld Fr}
    (hobeys : Obeyed config False program post fail world)
    (hcodec : config.codec = codec) :
    program.Obeys (freshEnvironment codec) (SessionGuard codec) post fail
      world := by
  have hfresh : program.Obeys (freshEnvironment codec)
      (fun world request => Guard config False world request) post fail
      world := by
    have hview : ∀ before request reply after,
        freshEnvironment codec before request reply after →
          sdkEnvironment (id before) request reply (id after) :=
      fun _ _ _ _ henv => henv.1
    exact Program.Obeys.refine hview hobeys
  exact hfresh.widen fun _ _ hguard => ⟨config, hcodec, hguard⟩

theorem SpendOperation.obeys {program : SdkM Fr Unit}
    (hoperation : SpendOperation codec program) {world : SdkWorld Fr}
    (hphase : world.phase = .settled) :
    program.Obeys (freshEnvironment codec) (SessionGuard codec)
      (fun _ after => Halted after) (fun _ after => Halted after) world := by
  cases hoperation with
  | @ensureFunded config hcodec gross recovery =>
      have hobeys : Obeyed config False
          (SdkM.ensureFunded config gross recovery)
          (fun _ after => after.phase = .settled)
          (fun _ after => Halted after) world :=
        ensureFunded_obeys hphase gross recovery
      exact Obeyed.session (hobeys.mono (fun _ _ h => Or.inl h)
        fun _ _ h => h) hcodec
  | @allocate config hcodec deposits =>
      have hobeys : Obeyed config False (SdkM.allocate config deposits)
          (fun _ after => after.phase = .settled)
          (fun _ after => Halted after) world :=
        allocate_obeys hphase (by rintro ⟨⟩)
      exact Obeyed.session (hobeys.mono (fun _ _ h => Or.inl h)
        fun _ _ h => h) hcodec

theorem spendSession (codec : NoteCodec Fr) (spender : Option StoredSpender) :
    SessionInvariant (freshEnvironment codec)
      (fun world => world = .agreeing (.fresh spender) .empty)
      (SpendOperation codec) SdkWorld.resumed SdkWorld.reloaded
      (SessionGuard codec) (fun _ after => Halted after)
      (fun _ after => Halted after)
      (SpendInvariant codec (.fresh spender))
      (fun world => SpendInvariant codec (.fresh spender) world ∧
        Halted world) where
  started := by
    rintro _ rfl
    exact ⟨.agreeing_fresh codec spender, Or.inl rfl⟩
  begun := fun _ h => h.1.resume h.2
  recovered := fun _ hinv => ⟨hinv.settle, Or.inl rfl⟩
  returned := fun _ _ hinv hhalted => ⟨hinv, hhalted⟩
  failed := fun _ _ hinv hhalted => ⟨hinv, hhalted⟩
  obeys := fun _ _ hoperation _ => hoperation.obeys rfl
  step := by
    rintro before request reply after hinv ⟨config, rfl, hguard⟩ henv
    exact hinv.step (guardedStep_of_guard hguard henv.1) henv.2

/-- One logical spend at a time. -/
structure OneSpend (codec : NoteCodec Fr) (start : SdkState)
    (world : SdkWorld Fr) : Prop where
  journals : ∀ state ∈ world.states,
    state.relayAggregations = [] ∨ state.operatorAggregations = []
  inputs : ∀ state ∈ world.states, ∀ spend ∈ state.spends,
    spend.inputs ⊆ state.funding
  records : ∀ state ∈ world.states, PreparedSpends world.records state
  funding : ∀ state ∈ world.states, state.funding.Nodup
  stored : stored start world.history = world.disk
  bookings : (bookings start world.history).Pairwise List.Disjoint
  departures : Departures codec start world.history

omit [DecidableEq Fr] in
theorem Sound.funding_nodup {issued booked : List StoredNote}
    {state : SdkState} (hsound : Sound issued booked state) :
    state.funding.Nodup :=
  hsound.accounted.nodup.sublist (List.sublist_append_left _ _)

omit [DecidableEq Fr] in
theorem SpendInvariant.states {world : SdkWorld Fr}
    (hinv : SpendInvariant codec start world) {state : SdkState}
    (hstate : state ∈ world.states) :
    Sound (issuedNotes codec world.history)
        (Curvy.bookings start world.history).flatten state ∧
      PreparedSpends world.records state := by
  unfold SdkWorld.states at hstate
  split at hstate
  · rw [List.mem_singleton.mp hstate]
    exact ⟨hinv.disk, hinv.records⟩
  · rename_i hphase
    rcases List.mem_cons.mp hstate with rfl | hmemory
    · exact ⟨hinv.disk, hinv.records⟩
    · rw [List.mem_singleton.mp hmemory]
      refine ⟨hinv.memory hphase, fun spend hspend => ?_⟩
      rw [hinv.spends hphase] at hspend
      exact hinv.records spend hspend

omit [DecidableEq Fr] in
theorem SpendInvariant.oneSpend {world : SdkWorld Fr}
    (hinv : SpendInvariant codec start world) :
    OneSpend codec start world where
  journals := fun _ hstate => (hinv.states hstate).1.exclusive
  inputs := fun _ hstate => (hinv.states hstate).1.inputs
  records := fun _ hstate => (hinv.states hstate).2
  funding := fun _ hstate => (hinv.states hstate).1.funding_nodup
  stored := hinv.stored
  bookings := hinv.disjoint
  departures := hinv.departures

/-- In every world a session passes through there is one logical spend at a
time. -/
theorem Reached.oneSpendAtATime {spender : Option StoredSpender}
    {world : SdkWorld Fr} (hreached : Reached codec spender world) :
    OneSpend codec (.fresh spender) world :=
  (spendSession codec spender).passes (fun _ h => h.1.oneSpend)
    (fun _ h => h.oneSpend) hreached

end

/-! ## A session with an open submission -/

/-- The reply with a value the SDK may make once only. -/
def madeOnce {α : Type} (world : SdkWorld (Fin 10)) (note : OwnedNote (Fin 10))
    (value : α) : Except String α :=
  if StoredNote.ofOwned digitCodec note ∈
      issuedNotes digitCodec world.history then .error "made already"
  else .ok value

theorem not_mem_of_madeOnce {α : Type} {world : SdkWorld (Fin 10)}
    {note : OwnedNote (Fin 10)} {value found : α}
    (h : (madeOnce world note value).toOption = some found) :
    found = value ∧ StoredNote.ofOwned digitCodec note ∉
      issuedNotes digitCodec world.history := by
  unfold madeOnce at h
  split at h
  · cases h
  · rename_i hnew
    exact ⟨(Option.some.inj h).symm, hnew⟩

/-- A chain which knows every note, and an SDK which makes two notes and
leaves the outcome of a submission open. -/
def openAnswer (world : SdkWorld (Fin 10)) (call : SdkCall (Fin 10)) :
    call.Reply × SdkWorld (Fin 10) :=
  let reply : call.Reply := match call with
    | .client => .ok { digitEndpoints with shieldRouter := some "router" }
    | .token => .ok (0 : ℕ)
    | .saveUpdate _ _ _ _ => .ok ()
    | .allocation _ id => .ok (world.records.find id)
    | .noteStatus _ => .ok (1 : ℕ)
    | .commit _ => .ok []
    | .protocolFeeCollector => .ok none
    | .pixMinimumInput _ _ => .ok (1 : ℕ)
    | .prepareDirectShield _ _ =>
        madeOnce world (digitNote (digit 1) (digit 9))
          (digitNote (digit 1) (digit 9))
    | .buildPixAggregation _ _ _ _ =>
        madeOnce world (digitNote (digit 2) (digit 5))
          ⟨2, ⟨[], [], []⟩, [], "key", "spend", digitNote (digit 2) (digit 5),
            [digitNote (digit 3) (digit 4)], ⟨"pix", 1⟩⟩
    | call => unreachable world call
  (reply, world.after call reply)

theorem freshEnvironment_openAnswer (world : SdkWorld (Fin 10))
    (call : SdkCall (Fin 10)) :
    freshEnvironment digitCodec world call (openAnswer world call).1
      (openAnswer world call).2 := by
  refine ⟨⟨?_, rfl⟩, ?_⟩
  · cases call with
    | allocation reader id => exact Or.inl rfl
    | readState => exact permits_unreachable world .readState
    | awaitInclusion submission =>
        exact permits_unreachable world (.awaitInclusion submission)
    | _ => trivial
  · intro note hissued
    cases call with
    | prepareDirectShield gross token =>
        rcases Option.map_eq_some_iff.mp hissued with ⟨owned, hmade, rfl⟩
        rcases not_mem_of_madeOnce hmade with ⟨rfl, hnew⟩
        exact hnew
    | buildPixAggregation inputs allocations relayFee feeRecipient =>
        rcases Option.map_eq_some_iff.mp hissued with ⟨request, hmade, rfl⟩
        rcases not_mem_of_madeOnce hmade with ⟨rfl, hnew⟩
        exact hnew
    | _ => cases hissued

def openDeposit : Deposit where
  id := [1]
  address := []
  scanKey := []
  amount := ⟨4, by decide⟩

/-- The float is shielded, and the process restarts. -/
def shieldedWorld : SdkWorld (Fin 10) :=
  ((SdkM.ensureFunded (digitConfig .operator) ⟨9, by decide⟩ "recovery").play
    openAnswer (SdkWorld.agreeing (.fresh none) .empty).resumed).2.reloaded

/-- A deposit is journalled and submitted, with an open outcome. -/
def openWorld : SdkWorld (Fin 10) :=
  ((SdkM.allocate (digitConfig .operator) [openDeposit]).play openAnswer
    shieldedWorld.resumed).2

theorem reached_openWorld : Reached digitCodec none openWorld := by
  have hshielded : Session (freshEnvironment digitCodec)
      (fun world => world = .agreeing (.fresh none) .empty)
      (SpendOperation digitCodec) SdkWorld.resumed SdkWorld.reloaded
      shieldedWorld :=
    .crash (.start rfl)
      (@SpendOperation.ensureFunded _ _ _ (digitConfig .operator) rfl _ _)
      (Program.play_runs openAnswer freshEnvironment_openAnswer _ _)
  exact Or.inr ⟨shieldedWorld, _, _, hshielded,
    @SpendOperation.allocate _ _ _ (digitConfig .operator) rfl _,
    Program.play_runs openAnswer freshEnvironment_openAnswer _ _⟩

theorem oneSpend_openWorld :
    openWorld.disk.operatorAggregations.length = 1 ∧
      OneSpend digitCodec (.fresh none) openWorld :=
  ⟨by decide +kernel, Reached.oneSpendAtATime reached_openWorld⟩

end HoprStrategy.Curvy
