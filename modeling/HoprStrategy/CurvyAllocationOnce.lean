import HoprStrategy.CurvyAllocationFates

/-!
# Allocations are paid once

A call settles the journals before it checks its deposits against the records
of their ids, so a deposit which contradicts a record is refused with nothing
changed.  Over a whole session in which no call names an id twice, and no wait
fails beside an earlier copy, every id is paid by one output at most.
-/

namespace HoprStrategy.Curvy

open Library SdkWorld

variable {Fr : Type} {codec : NoteCodec Fr} {start : SdkState}

/-! ## The check of a batch -/

/-- No deposit contradicts the record of its id. -/
def Matching (records : AllocationTable) (deposits : List Deposit) : Prop :=
  ∀ deposit ∈ deposits, ∀ record, records.find deposit.id = some record →
    record.matches deposit = true

structure SameState (before after : SdkWorld Fr) : Prop where
  memory : after.memory = before.memory
  disk : after.disk = before.disk
  records : after.records = before.records

theorem SameState.refl (world : SdkWorld Fr) : SameState world world :=
  ⟨rfl, rfl, rfl⟩

theorem SameState.trans {first second third : SdkWorld Fr}
    (hfirst : SameState first second) (hsecond : SameState second third) :
    SameState first third where
  memory := hsecond.memory.trans hfirst.memory
  disk := hsecond.disk.trans hfirst.disk
  records := hsecond.records.trans hfirst.records

theorem sameState_allocation (world : SdkWorld Fr) (reader : RecordReader)
    (id : PixAddressId) (reply : Except String (Option StoredAllocation)) :
    SameState world (world.after (.allocation reader id) reply) := by
  rcases reply with error | _ | record <;> exact ⟨rfl, rfl, rfl⟩

/-- The reads of the check. -/
def Prechecks (_ : SdkWorld Fr) (call : SdkCall Fr) : Prop :=
  ∃ id, call = .allocation .precheck id

/-- The check changes nothing, and passes only what matches the records. -/
theorem precheckDeposits_matching (journalled : List PixAddressId)
    (deposits : List Deposit) (world : SdkWorld Fr) :
    (SdkM.precheckDeposits journalled deposits : SdkM Fr _).Obeys
      sdkEnvironment Prechecks
      (fun _ after => SameState world after ∧
        Matching world.records deposits)
      (fun _ after => SameState world after) world := by
  induction deposits generalizing world with
  | nil => exact ⟨.refl world, List.forall_mem_nil _⟩
  | cons deposit rest ih =>
      refine Program.obeys_call ⟨deposit.id, rfl⟩ ?_
      rintro reply first ⟨hpermits, rfl⟩
      have hfirst := sameState_allocation world .precheck deposit.id reply
      have hrest := ih (world.after (.allocation .precheck deposit.id) reply)
      generalize world.after (.allocation .precheck deposit.id) reply = first
        at hfirst hrest ⊢
      rw [hfirst.records] at hrest
      have hgo : ∀ (next : List Deposit × Bool → SdkM Fr (List Deposit × Bool)),
          (∀ result, ∃ value, next result = .pure value) →
          (∀ record, world.records.find deposit.id = some record →
            record.matches deposit = true) →
          ((SdkM.precheckDeposits journalled rest).bind next).Obeys
            sdkEnvironment Prechecks
            (fun _ after => SameState world after ∧
              Matching world.records (deposit :: rest))
            (fun _ after => SameState world after) first := by
        intro next hnext hmatches
        apply Program.Obeys.seq hrest fun _ _ h => hfirst.trans h
        rintro result after ⟨hsame, hmatching⟩
        obtain ⟨value, hvalue⟩ := hnext result
        rw [hvalue]
        exact ⟨hfirst.trans hsame,
          List.forall_mem_cons.mpr ⟨hmatches, hmatching⟩⟩
      rcases (reply : Except String (Option StoredAllocation)) with
        error | found
      · exact hfirst
      · have hfound : found = world.records.find deposit.id := by
          rcases hpermits with h | ⟨error, h⟩
          · exact Except.ok.inj h
          · cases h
        cases found with
        | none =>
            apply hgo _ fun _ => ⟨_, rfl⟩
            intro record hrecord
            rw [← hfound] at hrecord
            cases hrecord
        | some existing =>
            change Program.Obeys _ _ _ _ (Program.bind (Program.require
              (existing.matches deposit = true) _) _) first
            apply Program.Obeys.bind
            apply Program.obeys_require
            · intro hmatches
              have hagrees : ∀ record,
                  world.records.find deposit.id = some record →
                    record.matches deposit = true := by
                intro record hrecord
                rw [← hfound, Option.some.injEq] at hrecord
                rw [← hrecord]
                exact hmatches
              cases hstage : existing.stage with
              | completed => exact hgo _ (fun _ => ⟨_, rfl⟩) hagrees
              | prepared =>
                  apply Program.Obeys.bind
                  apply Program.obeys_require
                  · exact fun _ => hgo _ (fun _ => ⟨_, rfl⟩) hagrees
                  · exact fun _ => hfirst
            · exact fun _ => hfirst

/-- Whatever ends it, a run of the check changes nothing. -/
theorem precheckDeposits_sameState {journalled : List PixAddressId}
    {deposits : List Deposit} {world after : SdkWorld Fr}
    {outcome : Outcome SdkError (List Deposit × Bool)}
    (hruns : (SdkM.precheckDeposits journalled deposits).Runs sdkEnvironment
      world outcome after) : SameState world after := by
  apply hruns.obeyed (precheckDeposits_matching journalled deposits world)
    (.refl world)
  rintro before _ reply after hsame ⟨id, rfl⟩ ⟨_, rfl⟩
  exact hsame.trans (sameState_allocation before .precheck id reply)

/-- A call ends while it settles the journals, or comes to its check: if a
deposit contradicts its record there, the call does not succeed, and nothing
is changed any more. -/
def RefusesConflicts (config : SdkConfig Fr) (deposits : List Deposit)
    (before : SdkWorld Fr) (outcome : Outcome SdkError Unit)
    (after : SdkWorld Fr) : Prop :=
  (outcome ≠ .returned () ∧
    ∃ ended, (∀ endpoints, ended ≠ .returned endpoints) ∧
      (SdkM.settleJournals config).Runs sdkEnvironment before ended after) ∨
  ∃ endpoints checked,
    (SdkM.settleJournals config).Runs sdkEnvironment before
      (.returned endpoints) checked ∧
    (¬ Matching checked.records deposits →
      outcome ≠ .returned () ∧ SameState checked after)

theorem allocateChecked_refuses {config : SdkConfig Fr}
    {deposits : List Deposit} {endpoints : CurvyChainEndpoints}
    {checked after : SdkWorld Fr} {outcome : Outcome SdkError (List TxLedger)}
    (hruns : (SdkM.allocateChecked config deposits endpoints).Runs
      sdkEnvironment checked outcome after)
    (hconflict : ¬ Matching checked.records deposits) :
    (∀ receipts, outcome ≠ .returned receipts) ∧ SameState checked after := by
  rcases hruns.of_bind with ⟨state, middle, hread, hrest⟩ |
    ⟨hended, ended, hother, hread⟩
  · cases hread with
    | call henv hreturned =>
        cases hreturned
        obtain ⟨_, rfl⟩ := henv
        rcases Program.Runs.of_bind hrest with ⟨result, last, hchecks, _⟩ |
          ⟨hended, ended, _, hchecks⟩
        · have hpost := hchecks.satisfies
            (precheckDeposits_matching _ deposits _)
          exact absurd hpost.2 hconflict
        · exact ⟨hended, precheckDeposits_sameState hchecks⟩
  · refine ⟨hended, ?_⟩
    cases hread with
    | crash => exact .refl _
    | call henv hreturned =>
        obtain ⟨_, rfl⟩ := henv
        cases hreturned <;> exact .refl _

theorem allocate_refuses {config : SdkConfig Fr} {deposits : List Deposit}
    {before after : SdkWorld Fr} {outcome : Outcome SdkError Unit}
    (hruns : (SdkM.allocate config deposits).Runs sdkEnvironment before
      outcome after) :
    RefusesConflicts config deposits before outcome after := by
  have hends : ∃ ended : Outcome SdkError (List TxLedger),
      (SdkM.allocateAll config deposits).Runs sdkEnvironment before ended
        after ∧ (outcome = .returned () → ∃ receipts,
          ended = .returned receipts) := by
    rcases hruns.of_bind with ⟨receipts, middle, hall, hrest⟩ |
      ⟨hended, ended, hother, hall⟩
    · cases hrest with
      | crash => exact ⟨_, hall, fun _ => ⟨receipts, rfl⟩⟩
      | pure => exact ⟨_, hall, fun _ => ⟨receipts, rfl⟩⟩
    · exact ⟨ended, hall, fun hreturned => absurd hreturned (hended ())⟩
  obtain ⟨ended, hall, hreturned⟩ := hends
  rw [SdkM.allocateAll_eq] at hall
  rcases hall.of_bind with ⟨endpoints, checked, hsettled, hrest⟩ |
    ⟨hended, first, hother, hsettled⟩
  · refine Or.inr ⟨endpoints, checked, hsettled, fun hconflict => ?_⟩
    obtain ⟨hrefused, hsame⟩ := allocateChecked_refuses hrest hconflict
    refine ⟨fun hsuccess => ?_, hsame⟩
    obtain ⟨receipts, hreceipts⟩ := hreturned hsuccess
    exact hrefused receipts hreceipts
  · refine Or.inl ⟨fun hsuccess => ?_, first, hother, hsettled⟩
    obtain ⟨receipts, hreceipts⟩ := hreturned hsuccess
    exact hended receipts hreceipts

/-! ## Sessions -/

/-- What is claimed of a world: whatever the chain accepts of the journalled
aggregations, no id is paid twice, and no call funds a deposit which
contradicts the record of its id. -/
structure AllocatesOnce (codec : NoteCodec Fr) (world : SdkWorld Fr) :
    Prop where
  paid : ∀ accepted, Accepts codec world.history accepted →
    (paid accepted world.history).Nodup
  refused : ∀ (config : SdkConfig Fr) (deposits : List Deposit)
    (outcome : Outcome SdkError Unit) (after : SdkWorld Fr),
    (SdkM.allocate config deposits).Runs sdkEnvironment world.resumed outcome
      after → RefusesConflicts config deposits world.resumed outcome after

section

variable [DecidableEq Fr]

/-- The operations of a session whose batches name no id twice. -/
inductive DistinctOperation (codec : NoteCodec Fr) : SdkM Fr Unit → Prop
  | ensureFunded {config : SdkConfig Fr} (hcodec : config.codec = codec)
      (gross : HoprBalance) (recovery : String) :
      DistinctOperation codec (SdkM.ensureFunded config gross recovery)
  | allocate {config : SdkConfig Fr} (hcodec : config.codec = codec)
      {deposits : List Deposit} (hnodup : (deposits.map Deposit.id).Nodup) :
      DistinctOperation codec (SdkM.allocate config deposits)

/-- The worlds reached from an empty store by batches which name no id
twice. -/
def ReachedDistinct (codec : NoteCodec Fr) (spender : Option StoredSpender)
    (world : SdkWorld Fr) : Prop :=
  Passes (freshEnvironment codec)
    (fun world => world = .agreeing (.fresh spender) .empty)
    (DistinctOperation codec) SdkWorld.resumed SdkWorld.reloaded world

def DistinctGuard (codec : NoteCodec Fr) (world : SdkWorld Fr)
    (call : SdkCall Fr) : Prop :=
  ∃ config : SdkConfig Fr, config.codec = codec ∧ Guard config True world call

theorem Obeyed.distinctSession {α : Type} {config : SdkConfig Fr}
    {program : SdkM Fr α} {post : α → SdkWorld Fr → Prop}
    {fail : SdkError → SdkWorld Fr → Prop} {world : SdkWorld Fr}
    (hobeys : Obeyed config True program post fail world)
    (hcodec : config.codec = codec) :
    program.Obeys (freshEnvironment codec) (DistinctGuard codec) post fail
      world := by
  have hfresh : program.Obeys (freshEnvironment codec)
      (fun world request => Guard config True world request) post fail
      world := by
    have hview : ∀ before request reply after,
        freshEnvironment codec before request reply after →
          sdkEnvironment (id before) request reply (id after) :=
      fun _ _ _ _ henv => henv.1
    exact Program.Obeys.refine hview hobeys
  exact hfresh.widen fun _ _ hguard => ⟨config, hcodec, hguard⟩

theorem DistinctOperation.obeys {program : SdkM Fr Unit}
    (hoperation : DistinctOperation codec program) {world : SdkWorld Fr}
    (hphase : world.phase = .settled) :
    program.Obeys (freshEnvironment codec) (DistinctGuard codec)
      (fun _ after => Halted after) (fun _ after => Halted after) world := by
  cases hoperation with
  | @ensureFunded config hcodec gross recovery =>
      have hobeys : Obeyed config True
          (SdkM.ensureFunded config gross recovery)
          (fun _ after => after.phase = .settled)
          (fun _ after => Halted after) world :=
        ensureFunded_obeys hphase gross recovery
      exact Obeyed.distinctSession (hobeys.mono (fun _ _ h => Or.inl h)
        fun _ _ h => h) hcodec
  | @allocate config hcodec deposits hnodup =>
      have hobeys : Obeyed config True (SdkM.allocate config deposits)
          (fun _ after => after.phase = .settled)
          (fun _ after => Halted after) world :=
        allocate_obeys hphase fun _ => hnodup
      exact Obeyed.distinctSession (hobeys.mono (fun _ _ h => Or.inl h)
        fun _ _ h => h) hcodec

/-- What a session keeps while the UUIDs are distinct and no wait fails beside
a second copy. -/
structure AllocationInvariant (codec : NoteCodec Fr) (start : SdkState)
    (world : SdkWorld Fr) : Prop where
  spends : SpendInvariant codec start world
  journal : JournalInvariant codec start world
  once : (uuids world.history).Nodup → FailsAlone start world.history →
    Once codec start world

namespace AllocationInvariant

variable {world : SdkWorld Fr}

omit [DecidableEq Fr] in
theorem agreeing_fresh (codec : NoteCodec Fr)
    (spender : Option StoredSpender) :
    AllocationInvariant codec (.fresh spender)
      (SdkWorld.agreeing (.fresh spender) .empty) where
  spends := .agreeing_fresh codec spender
  journal := .agreeing codec (Or.inl rfl) .empty
  once _ _ := {
    fresh := trivial
    landing := .agreeing SdkEvent.namesRequest fun _ h => by cases h
    ledger := {
      members := List.forall_mem_nil _
      proofs := List.forall_mem_nil _
      nodup := List.forall_mem_nil _
      changes := List.nodup_nil
      known := List.forall_mem_nil _
      unused := List.forall_mem_nil _
      intents := List.forall_mem_nil _
      unusedIntents := List.forall_mem_nil _
      posts := List.forall_mem_nil _ }
    fates := {
      generation := List.forall_mem_nil _
      fate := List.forall_mem_nil _
      conflicts := List.forall_mem_nil _ } }

omit [DecidableEq Fr] in
theorem resume (hinv : AllocationInvariant codec start world)
    (hhalted : Halted world) :
    AllocationInvariant codec start world.resumed where
  spends := hinv.spends.resume hhalted
  journal := hinv.journal.resume hhalted
  once huuids halone :=
    have honce := hinv.once huuids halone
    ⟨honce.fresh, honce.landing, honce.ledger, honce.fates⟩

omit [DecidableEq Fr] in
theorem reload (hinv : AllocationInvariant codec start world) :
    AllocationInvariant codec start world.reloaded where
  spends := hinv.spends.settle
  journal := { hinv.journal with journal := fun _ => rfl }
  once huuids halone :=
    have honce := hinv.once huuids halone
    ⟨honce.fresh, honce.landing, honce.ledger, honce.fates⟩

/-- A guarded call adds one event to the history, or none. -/
theorem step {config : SdkConfig Fr} {before after : SdkWorld Fr}
    {call : SdkCall Fr} {reply : call.Reply}
    (hinv : AllocationInvariant config.codec start before)
    (hstep : GuardedStep config True before call reply after)
    (hissued : ∀ note, SdkEvent.issued config.codec ⟨call, reply⟩ =
      some note → note ∉ issuedNotes config.codec before.history) :
    AllocationInvariant config.codec start after where
  spends := hinv.spends.step hstep hissued
  journal := hinv.journal.step hstep
  once huuids halone := by
    have hhistory : after.history = before.history ∨
        after.history = ⟨call, reply⟩ :: before.history := by
      cases hstep <;> first | exact Or.inl rfl | exact Or.inr rfl
    have hbefore : (uuids before.history).Nodup ∧
        FailsAlone start before.history := by
      rcases hhistory with hsame | hcons
      · rw [hsame] at huuids halone
        exact ⟨huuids, halone⟩
      · rw [hcons] at huuids halone
        exact ⟨uuids_nodup_of_cons huuids, halone.2⟩
    exact (hinv.once hbefore.1 hbefore.2).step hinv.spends hinv.journal hstep
      hissued huuids halone

end AllocationInvariant

theorem allocationSession (codec : NoteCodec Fr)
    (spender : Option StoredSpender) :
    SessionInvariant (freshEnvironment codec)
      (fun world => world = .agreeing (.fresh spender) .empty)
      (DistinctOperation codec) SdkWorld.resumed SdkWorld.reloaded
      (DistinctGuard codec) (fun _ after => Halted after)
      (fun _ after => Halted after)
      (AllocationInvariant codec (.fresh spender))
      (fun world => AllocationInvariant codec (.fresh spender) world ∧
        Halted world) where
  started := by
    rintro _ rfl
    exact ⟨.agreeing_fresh codec spender, Or.inl rfl⟩
  begun := fun _ h => h.1.resume h.2
  recovered := fun _ hinv => ⟨hinv.reload, Or.inl rfl⟩
  returned := fun _ _ hinv hhalted => ⟨hinv, hhalted⟩
  failed := fun _ _ hinv hhalted => ⟨hinv, hhalted⟩
  obeys := fun _ _ hoperation _ => hoperation.obeys rfl
  step := by
    rintro before request reply after hinv ⟨config, rfl, hguard⟩ henv
    exact hinv.step (guardedStep_of_guard hguard henv.1) henv.2

/-- Allocations are paid once, as long as no batch names an id twice and no
wait fails for the only journalled proof beside a second copy of it. -/
theorem allocationsPaidOnce {spender : Option StoredSpender}
    {world : SdkWorld Fr} (hreached : ReachedDistinct codec spender world)
    (huuids : (uuids world.history).Nodup)
    (halone : FailsAlone (.fresh spender) world.history) :
    AllocatesOnce codec world := by
  have hinv : AllocationInvariant codec (.fresh spender) world :=
    (allocationSession codec spender).passes (fun _ h => h.1) (fun _ h => h)
      hreached
  have honce := hinv.once huuids halone
  constructor
  · intro accepted haccepts
    exact honce.fates.paid_nodup honce.ledger haccepts
  · intro config deposits outcome after hruns
    exact allocate_refuses hruns

end

/-! ## A batch which names an id twice -/

/-- The answers of `openAnswer`, with an output for each of two deposits. -/
def pairAnswer (world : SdkWorld (Fin 10)) (call : SdkCall (Fin 10)) :
    call.Reply × SdkWorld (Fin 10) :=
  let reply : call.Reply := match call with
    | .buildPixAggregation _ _ _ _ =>
        madeOnce world (digitNote (digit 2) (digit 1))
          ⟨2, ⟨[], [], []⟩, [], "key", "spend", digitNote (digit 2) (digit 1),
            [digitNote (digit 3) (digit 4), digitNote (digit 4) (digit 4)],
            ⟨"pix", 1⟩⟩
    | call => (openAnswer world call).1
  (reply, world.after call reply)

theorem freshEnvironment_pairAnswer (world : SdkWorld (Fin 10))
    (call : SdkCall (Fin 10)) :
    freshEnvironment digitCodec world call (pairAnswer world call).1
      (pairAnswer world call).2 := by
  have hopen := freshEnvironment_openAnswer world call
  cases call with
  | buildPixAggregation inputs allocations relayFee feeRecipient =>
      refine ⟨⟨trivial, rfl⟩, ?_⟩
      intro note hissued
      rcases Option.map_eq_some_iff.mp hissued with ⟨request, hmade, rfl⟩
      rcases not_mem_of_madeOnce hmade with ⟨rfl, hnew⟩
      exact hnew
  | _ => exact ⟨⟨hopen.1.1, rfl⟩, hopen.2⟩

/-- Two deposits of one id in one batch. -/
def twiceWorld : SdkWorld (Fin 10) :=
  ((SdkM.allocate (digitConfig .operator) [openDeposit, openDeposit]).play
    pairAnswer shieldedWorld.resumed).2

theorem session_shieldedWorld {operation : SdkM (Fin 10) Unit → Prop}
    (hfunded : operation (SdkM.ensureFunded (digitConfig .operator)
      ⟨9, by decide⟩ "recovery")) :
    Session (freshEnvironment digitCodec)
      (fun world => world = .agreeing (.fresh none) .empty) operation
      SdkWorld.resumed SdkWorld.reloaded shieldedWorld :=
  .crash (.start rfl) hfunded
    (Program.play_runs openAnswer freshEnvironment_openAnswer _ _)

/-! ## A deposit which is asked for again -/

/-- The answers of `openAnswer`, by a relayer whose requests end with `status`.
A proof of the call makes the notes `label` and `label + 1`. -/
def relayedAnswer (status : RelayStatus) (label : ℕ) (world : SdkWorld (Fin 10))
    (call : SdkCall (Fin 10)) : call.Reply × SdkWorld (Fin 10) :=
  let reply : call.Reply := match call with
    | .relayFee _ _ => .ok none
    | .buildPixAggregation _ _ _ _ =>
        madeOnce world (digitNote (digit label) (digit 5))
          ⟨2, ⟨[], [], []⟩, [], "key", "spend",
            digitNote (digit label) (digit 5),
            [digitNote (digit (label + 1)) (digit 4)], ⟨"pix", 1⟩⟩
    | .uuid => toString label
    | .relaySubmit _ => .ok (.accepted ⟨toString label, status, none, none⟩)
    | .relayByIntent _ _ => .ok none
    | call => (openAnswer world call).1
  (reply, world.after call reply)

theorem freshEnvironment_relayedAnswer (status : RelayStatus) (label : ℕ)
    (world : SdkWorld (Fin 10)) (call : SdkCall (Fin 10)) :
    freshEnvironment digitCodec world call (relayedAnswer status label world
      call).1 (relayedAnswer status label world call).2 := by
  have hopen := freshEnvironment_openAnswer world call
  cases call with
  | buildPixAggregation inputs allocations relayFee feeRecipient =>
      refine ⟨⟨trivial, rfl⟩, ?_⟩
      intro note hissued
      rcases Option.map_eq_some_iff.mp hissued with ⟨request, hmade, rfl⟩
      rcases not_mem_of_madeOnce hmade with ⟨rfl, hnew⟩
      exact hnew
  | _ => exact ⟨⟨hopen.1.1, rfl⟩, hopen.2⟩

/-- The deposit is asked for, with these answers of the relayer. -/
def askedCall (status : RelayStatus) (label : ℕ) (world : SdkWorld (Fin 10)) :
    Outcome SdkError Unit × SdkWorld (Fin 10) :=
  (SdkM.allocate (digitConfig .relayer) [openDeposit]).play
    (relayedAnswer status label) world.resumed

/-- The request of the first call fails. -/
def refusedOnce : SdkWorld (Fin 10) := (askedCall .failed 2 shieldedWorld).2

/-- That of the second call is included. -/
def paidOnce : SdkWorld (Fin 10) := (askedCall .included 4 refusedOnce).2

/-- The third call finds the deposit funded. -/
def askedThrice : SdkWorld (Fin 10) := (askedCall .included 6 paidOnce).2

theorem askedCall_runs (status : RelayStatus) (label : ℕ)
    (world : SdkWorld (Fin 10)) :
    (SdkM.allocate (digitConfig .relayer) [openDeposit]).Runs
      (freshEnvironment digitCodec) world.resumed
      (askedCall status label world).1 (askedCall status label world).2 :=
  Program.play_runs _ (freshEnvironment_relayedAnswer status label) _ _

/-- Of the two proofs the second one pays. -/
theorem allocationsPaidOnce_askedThrice :
    (relayed askedThrice.history).length = 2 ∧
      (askedThrice.records.find openDeposit.id).map StoredAllocation.stage =
        some .completed ∧
      AllocatesOnce digitCodec askedThrice := by
  have hallocate : DistinctOperation digitCodec
      (SdkM.allocate (digitConfig .relayer) [openDeposit]) :=
    @DistinctOperation.allocate _ _ _ (digitConfig .relayer) rfl
      [openDeposit] (by decide)
  have hshielded := session_shieldedWorld
    (@DistinctOperation.ensureFunded _ _ _ (digitConfig .operator) rfl _ _)
  have hrefused := hshielded.complete hallocate
    (askedCall_runs .failed 2 _) (by decide +kernel)
  have hpaid := hrefused.complete hallocate
    (askedCall_runs .included 4 _) (by decide +kernel)
  exact ⟨by decide +kernel, by decide +kernel,
    allocationsPaidOnce
      (Or.inr ⟨_, _, _, hpaid, hallocate, askedCall_runs .included 6 _⟩)
      (by decide +kernel) (by decide +kernel)⟩

/-- Both outputs of the aggregation pay the id. -/
theorem allocationsPaidOnce_not_always :
    ¬ ∀ (spender : Option StoredSpender) (world : SdkWorld (Fin 10)),
      Reached digitCodec spender world → (uuids world.history).Nodup →
        AllocatesOnce digitCodec world := by
  intro hpaid
  have hreached : Reached digitCodec none twiceWorld :=
    Or.inr ⟨shieldedWorld, _, _, session_shieldedWorld
        (@SpendOperation.ensureFunded _ _ _ (digitConfig .operator) rfl _ _),
      @SpendOperation.allocate _ _ _ (digitConfig .operator) rfl _,
      Program.play_runs pairAnswer freshEnvironment_pairAnswer _ _⟩
  have haccepts : Accepts digitCodec twiceWorld.history fun _ => true := by
    have hrelayed : (relayed twiceWorld.history).length = 0 := by
      decide +kernel
    have habandoned : twiceWorld.history.filterMap
        (SdkEvent.abandoned digitCodec) = [] := by
      decide +kernel
    constructor
    · decide +kernel
    · rw [List.length_eq_zero_iff.mp hrelayed]
      exact List.forall_mem_nil _
    · rw [habandoned]
      exact List.forall_mem_nil _
  have hnodup := (hpaid none twiceWorld hreached (by decide +kernel)).paid _
    haccepts
  revert hnodup
  decide +kernel

end HoprStrategy.Curvy
