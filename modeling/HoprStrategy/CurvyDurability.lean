import HoprStrategy.CurvyAllocateTraversal
import HoprStrategy.CurvyShieldTraversal
import HoprStrategy.CurvySdkStep

/-!
# Durability of the bridge's state

An operation starts with its state in memory equal to the stored one.  The
updates saved from a clone keep the two equal whether or not the save fails.
The updates made on the locked state first leave memory ahead of the disk when
their save fails, or when an allocation record they complete cannot be read.
-/

namespace HoprStrategy.Curvy

open Library

variable {Fr : Type} [DecidableEq Fr] {config : SdkConfig Fr}

/-- The operations of the adapter which use its state. -/
inductive AdapterOperation (config : SdkConfig Fr) : SdkM Fr Unit → Prop
  | ensureFunded (gross : HoprBalance) (recovery : String) :
      AdapterOperation config (SdkM.ensureFunded config gross recovery)
  | allocate (deposits : List Deposit) :
      AdapterOperation config (SdkM.allocate config deposits)
  | withdraw (selected : Except SdkError (List (OwnedNote Fr)))
      (destination : String) :
      AdapterOperation config (SdkM.withdraw config selected destination)
  | reset : AdapterOperation config SdkM.resetChainState

/-- Memory and disk agree. -/
def SdkWorld.agreeing (state : SdkState) (records : AllocationTable) :
    SdkWorld Fr where
  memory := state
  disk := state
  records := records
  phase := .settled
  history := []

/-- Failures after the locked state was changed: a save of an update which is
made in place, a record read in the middle of one, and the reset of a store
which was not empty. -/
def Lossy (start : SdkState) : SdkEvent Fr → Prop
  | ⟨.saveUpdate update _ _ _, reply⟩ =>
      update.mutatesFirst = true ∧
        ∃ error, (reply : Except String Unit) = .error error
  | ⟨.allocation reader _, reply⟩ =>
      reader = .completion .bookAmbiguous ∧
        ∀ record, (reply : Except String (Option StoredAllocation)) ≠
          .ok (some record)
  | ⟨.resetStore next, reply⟩ =>
      next ≠ start ∧ ∃ error, (reply : Except String Unit) = .error error
  | _ => False

omit [DecidableEq Fr] in
theorem not_lossy_of_external {start : SdkState} {call : SdkCall Fr}
    (hexternal : call.external = true) (reply : call.Reply) :
    ¬ Lossy start ⟨call, reply⟩ := by
  cases call <;> first | exact id | cases hexternal

/-- However the records of ids are changed, the state differs. -/
def Differs (memory disk : SdkState) : Prop :=
  ∀ ids, { memory with ambiguousAllocationIds := ids } ≠ disk

theorem Differs.ne {memory disk : SdkState} (hdiffers : Differs memory disk) :
    memory ≠ disk :=
  hdiffers memory.ambiguousAllocationIds

/-- Every update in place changes the state. -/
theorem MemoryStep.differs {history : List (SdkEvent Fr)}
    {state next : SdkState} (hstep : MemoryStep config history state next) :
    Differs next state := by
  intro ids heq
  cases hstep with
  | journalDirectShield hnone _ =>
      rw [← heq] at hnone
      cases hnone
  | bookDirectShield hshield _ _ _ _ =>
      rw [← heq] at hshield
      cases hshield
  | journalShield hnone _ =>
      rw [← heq] at hnone
      cases hnone
  | @markShieldFunded shield token gross hshield hstage _ =>
      rw [← heq] at hshield
      have hsame := congrArg StoredShield.stage (Option.some.inj hshield)
      rw [hstage] at hsame
      cases hsame
  | bookShield hshield _ _ _ _ =>
      rw [← heq] at hshield
      cases hshield
  | clearPending hpending => exact hpending (by rw [← heq])
  | bookAmbiguous hambiguous =>
      rw [← heq] at hambiguous
      cases hambiguous
  | journalIntent =>
      have hlength := congrArg (fun s : SdkState => s.relayIntents.length) heq
      simp at hlength
  | @clearIntent intent hintent =>
      rcases hintent with ⟨stored, hstored, hsame⟩
      rw [← heq] at hstored
      simp [hsame] at hstored

/-- What memory and disk have to do with each other, phase by phase, and with
the failures so far. -/
structure Durable (start : SdkState) (world : SdkWorld Fr) : Prop where
  settled : world.phase = .settled → world.memory = world.disk
  mutated : world.phase = .mutated → Differs world.memory world.disk
  lost : world.phase = .lost → world.memory ≠ world.disk
  lossless : world.phase ≠ .lost → ∀ event ∈ world.history,
    ¬ Lossy start event
  lossy : world.phase = .lost → ∃ event ∈ world.history, Lossy start event

omit [DecidableEq Fr] in
theorem Durable.agreeing (state : SdkState) (records : AllocationTable) :
    Durable state (SdkWorld.agreeing state records : SdkWorld Fr) where
  settled := fun _ => rfl
  mutated := by rintro ⟨⟩
  lost := by rintro ⟨⟩
  lossless := fun _ => List.forall_mem_nil _
  lossy := by rintro ⟨⟩

omit [DecidableEq Fr] in
theorem Durable.record {start : SdkState} {world : SdkWorld Fr}
    (hdurable : Durable start world) {call : SdkCall Fr} {reply : call.Reply}
    (hlossless : ¬ Lossy start ⟨call, reply⟩) :
    Durable start (world.record call reply) where
  settled := hdurable.settled
  mutated := hdurable.mutated
  lost := hdurable.lost
  lossless := fun hphase => List.forall_mem_cons.mpr
    ⟨hlossless, hdurable.lossless hphase⟩
  lossy := fun hphase => by
    rcases hdurable.lossy hphase with ⟨event, hevent, hlossy⟩
    exact ⟨event, List.mem_cons_of_mem _ hevent, hlossy⟩

omit [DecidableEq Fr] in
/-- A failure while memory is ahead of the disk. -/
theorem Durable.strand {start : SdkState} {world : SdkWorld Fr}
    (hdurable : Durable start world) (hphase : world.phase = .mutated)
    {event : SdkEvent Fr} (hlossy : Lossy start event) :
    Durable start
      { world with
        phase := .lost
        history := event :: world.history } where
  settled := by rintro ⟨⟩
  mutated := by rintro ⟨⟩
  lost := fun _ => (hdurable.mutated hphase).ne
  lossless := fun h => absurd rfl h
  lossy := fun _ => ⟨event, List.mem_cons_self, hlossy⟩

theorem GuardedStep.durable {start : SdkState} {distinct : Prop}
    {before after : SdkWorld Fr} {call : SdkCall Fr} {reply : call.Reply}
    (hstep : GuardedStep config distinct before call reply after)
    (hdurable : Durable start before) : Durable start after := by
  cases hstep with
  | read => exact hdurable
  | external reply hexternal _ _ =>
      exact hdurable.record (not_lossy_of_external hexternal reply)
  | found reader _ hfind =>
      exact hdurable.record fun h => h.2 _ rfl
  | missed reader id reply hphase hreader =>
      exact hdurable.record fun h => hreader h.1
  | missedMutated id _ hreply hphase =>
      exact hdurable.strand hphase ⟨rfl, hreply⟩
  | mutated hphase hstep =>
      have hsame := hdurable.settled hphase
      refine ⟨by rintro ⟨⟩, fun _ => ?_, by rintro ⟨⟩, fun _ => ?_,
        by rintro ⟨⟩⟩
      · rw [hsame] at hstep
        exact hstep.differs
      · exact hdurable.lossless (by simp [hphase])
  | clearedIds hphase =>
      refine ⟨fun h => ?_, fun _ ids => hdurable.mutated hphase ids,
        fun h => ?_, hdurable.lossless, hdurable.lossy⟩
      · simp [hphase] at h
      · simp [hphase] at h
  | assigned hphase =>
      refine ⟨fun _ => rfl, by rintro ⟨⟩, by rintro ⟨⟩, fun _ => ?_,
        by rintro ⟨⟩⟩
      exact hdurable.lossless (by simp [hphase])
  | saved hphase hupdate hstep =>
      refine ⟨by rintro ⟨⟩, by rintro ⟨⟩, by rintro ⟨⟩, fun _ => ?_,
        by rintro ⟨⟩⟩
      refine List.forall_mem_cons.mpr
        ⟨?_, hdurable.lossless (by simp [hphase])⟩
      rintro ⟨_, error, ⟨⟩⟩
  | saveFailed error hphase hupdate =>
      exact hdurable.record fun h => absurd h.1 (by simp [hupdate])
  | persisted hphase hupdate hcompleted _ =>
      refine ⟨fun _ => rfl, by rintro ⟨⟩, by rintro ⟨⟩, fun _ => ?_,
        by rintro ⟨⟩⟩
      refine List.forall_mem_cons.mpr
        ⟨?_, hdurable.lossless (by simp [hphase])⟩
      rintro ⟨_, error, ⟨⟩⟩
  | stranded error hphase hupdate =>
      exact hdurable.strand hphase ⟨hupdate, error, rfl⟩

/-- Memory and disk agree exactly if nothing was lost. -/
def Agreed (start : SdkState) (world : SdkWorld Fr) : Prop :=
  world.memory = world.disk ↔ ∀ event ∈ world.history, ¬ Lossy start event

omit [DecidableEq Fr] in
theorem Durable.agreed {start : SdkState} {world : SdkWorld Fr}
    (hdurable : Durable start world) (hhalted : Halted world) :
    Agreed start world := by
  rcases hhalted with hphase | hphase
  · exact iff_of_true (hdurable.settled hphase)
      (hdurable.lossless (by simp [hphase]))
  · rcases hdurable.lossy hphase with ⟨event, hevent, hlossy⟩
    exact iff_of_false (hdurable.lost hphase)
      fun h => h event hevent hlossy

theorem AdapterOperation.obeys {program : SdkM Fr Unit}
    (hoperation : AdapterOperation config program)
    (hreset : program ≠ SdkM.resetChainState) {world : SdkWorld Fr}
    (hphase : world.phase = .settled) :
    Obeyed config False program (fun _ after => Halted after)
      (fun _ after => Halted after) world := by
  cases hoperation with
  | ensureFunded gross recovery =>
      exact (ensureFunded_obeys hphase gross recovery).mono
        (fun _ _ h => Or.inl h) fun _ _ h => h
  | allocate deposits =>
      exact (allocate_obeys hphase (by rintro ⟨⟩)).mono
        (fun _ _ h => Or.inl h) fun _ _ h => h
  | withdraw selected destination =>
      exact (withdraw_obeys hphase selected destination).mono
        (fun _ _ h => Or.inl h) fun _ _ h => h
  | reset => exact absurd rfl hreset

omit [DecidableEq Fr] in
/-- The reset changes the locked state, and then replaces the store. -/
theorem resetChainState_obeys (state : SdkState) (records : AllocationTable) :
    (SdkM.resetChainState : SdkM Fr Unit).Obeys sdkEnvironment
      (fun _ _ => True) (fun _ after => Agreed state after)
      (fun _ after => Agreed state after)
      (SdkWorld.agreeing state records) := by
  refine Program.obeys_call trivial ?_
  rintro current after ⟨hread, rfl⟩
  change (current : SdkState) = state at hread
  subst hread
  refine Program.obeys_call trivial ?_
  rintro _ after ⟨_, rfl⟩
  refine Program.obeys_call trivial ?_
  rintro reply after ⟨_, rfl⟩
  cases (reply : Except String Unit) with
  | ok value =>
      refine iff_of_true rfl ?_
      intro event hevent hlossy
      rw [List.mem_singleton.mp hevent] at hlossy
      cases hlossy.2.choose_spec
  | error error =>
      refine ⟨fun hsame event hevent hlossy => ?_, fun hlossless => ?_⟩
      · rw [List.mem_singleton.mp hevent] at hlossy
        exact hlossy.1 hsame
      · by_contra hdiffer
        exact hlossless _ (List.mem_singleton_self _)
          ⟨hdiffer, error, rfl⟩

/-- From every state in which memory and disk agree, an operation which
returns leaves them agreeing exactly if none of its failures hit an update
made in place. -/
theorem agrees_after_operation {program : SdkM Fr Unit}
    (hoperation : AdapterOperation config program) {state : SdkState}
    {records : AllocationTable} {outcome : Outcome SdkError Unit}
    {after : SdkWorld Fr}
    (hruns : program.Runs sdkEnvironment (SdkWorld.agreeing state records)
      outcome after)
    (hreturned : outcome ≠ .crashed) : Agreed state after := by
  by_cases hreset : program = SdkM.resetChainState
  · subst hreset
    have houtcome := hruns.satisfies (resetChainState_obeys state records)
    cases outcome with
    | returned value => exact houtcome
    | failed error => exact houtcome
    | crashed => exact absurd rfl hreturned
  · have hobeys := hoperation.obeys hreset
      (show (SdkWorld.agreeing state records).phase = .settled from rfl)
    have hdurable := hruns.obeyed hobeys (Durable.agreeing state records)
      fun _ _ _ _ hdurable hguard henv =>
        (guardedStep_of_guard hguard henv).durable hdurable
    apply hdurable.agreed
    have houtcome := hruns.satisfies hobeys
    cases outcome with
    | returned value => exact houtcome
    | failed error => exact houtcome
    | crashed => exact absurd rfl hreturned

/-! ## A failed save of the pending notes -/

/-- The digits as a field, and the shared secret of a note as its id. -/
def digitCodec : NoteCodec (Fin 10) where
  frToDec value := String.ofList [Nat.digitChar value.val]
  tryFromDec text :=
    match (List.finRange 10).find? fun value =>
        [Nat.digitChar value.val] = text.toList with
    | some value => .ok value
    | none => .error "expected a canonical field element"
  frToBiguint value := value.val
  noteId note := note.sharedSecret
  tryFromDec_frToDec value := by
    rw [String.toList_ofList]
    revert value
    decide

def digitEndpoints : CurvyChainEndpoints where
  aggregator := "aggregator"
  portalFactory := none
  vault := "vault"
  shieldRouter := none
  tokenAddress := "token"
  chainId := 100

def digitConfig (submission : CurvySubmission) : SdkConfig (Fin 10) where
  codec := digitCodec
  shielding := .direct
  submission := submission
  relay := true
  shielder := true
  feeRecipient := none
  tokenConfigured := false
  maxCommitNotes := 10
  recipient _ _ := .ok ⟨("0", "1"), ("0", "1")⟩
  addressText _ := none
  balanceText balance := toString balance.wei

/-- Answers of a chain, a relayer and a store none of which can be reached. -/
def unreachable (world : SdkWorld Fr) : (call : SdkCall Fr) → call.Reply
  | .readState => world.memory
  | .writeState _ => ()
  | .saveUpdate _ _ _ _ => .error "unreachable"
  | .resetStore _ => .error "unreachable"
  | .allocation _ _ => .error "unreachable"
  | .client => .error (.discovery "unreachable")
  | .token => .error "unreachable"
  | .vaultToken _ => .error "unreachable"
  | .noteStatus _ => .error "unreachable"
  | .erc20Balance _ _ => .error "unreachable"
  | .prepareDeposit _ _ _ => .error "unreachable"
  | .prepareDirectShield _ _ => .error "unreachable"
  | .fundPortal _ _ => .error "unreachable"
  | .shieldPreparedDeposit _ => .error "unreachable"
  | .shieldCalldata _ _ => .error "unreachable"
  | .encodeRouterShield _ _ _ => .error "unreachable"
  | .transactionCount => .error "unreachable"
  | .sendModuleCall _ _ => .error "unreachable"
  | .noncePolls _ => []
  | .commit _ => .error "unreachable"
  | .relayFee _ _ => .error (.inr "unreachable")
  | .protocolFeeCollector => .error (.inr "unreachable")
  | .pixMinimumInput _ _ => .error "unreachable"
  | .buildPixAggregation _ _ _ _ => .error "unreachable"
  | .submitPixAggregation _ => .error ⟨"unreachable", true⟩
  | .finalityCheckDue => true
  | .notesTreeSnapshot => .error .timedOut
  | .uuid => "intent"
  | .relaySubmit _ => .error (.transport "unreachable")
  | .relayStatus _ => .error (.transport "unreachable")
  | .relayByIntent _ _ => .error (.transport "unreachable")
  | .awaitInclusion submission => awaitInclusion submission []
  | .buildPixWithdrawal _ _ => .error "unreachable"
  | .submitPixWithdrawal _ => .error "unreachable"

omit [DecidableEq Fr] in
theorem permits_unreachable (world : SdkWorld Fr) (call : SdkCall Fr) :
    world.permits call (unreachable world call) := by
  cases call <;> first | trivial | rfl | exact Or.inr ⟨_, rfl⟩ |
    exact ⟨[], rfl⟩

/-- Discovery succeeds, and nothing else does. -/
def discoveredOnly (world : SdkWorld (Fin 10)) (call : SdkCall (Fin 10)) :
    call.Reply × SdkWorld (Fin 10) :=
  let reply : call.Reply := match call with
    | .client => .ok digitEndpoints
    | call => unreachable world call
  (reply, world.after call reply)

/-- A number as a digit. -/
def digit (value : ℕ) : Fin 10 := Fin.ofNat 10 value

def digitNote (secret amount : Fin 10) : OwnedNote (Fin 10) where
  ownerPub := (0, 0)
  sharedSecret := secret
  ephemeralKey := (0, 0)
  viewTag := 0
  amount := amount
  token := 0

/-- Under relayed submission an emitted note is still listed as pending. -/
def pendingState : SdkState :=
  { SdkState.fresh none with
    pending := [StoredNote.ofOwned digitCodec (digitNote 1 1)] }

/-- The allocation of no deposits, whose only save fails. -/
theorem pendingState_runs :
    (SdkM.allocate (digitConfig .relayer) []).Runs sdkEnvironment
      (SdkWorld.agreeing pendingState .empty) (.failed (.sdk "unreachable"))
      ((SdkM.allocate (digitConfig .relayer) []).play discoveredOnly
        (SdkWorld.agreeing pendingState .empty)).2 :=
  Program.play_runs discoveredOnly (fun world call => by
    refine ⟨?_, rfl⟩
    cases call with
    | client => trivial
    | _ => exact permits_unreachable world _) _ _

theorem agrees_after_operation_pendingState :
    Agreed pendingState
      ((SdkM.allocate (digitConfig .relayer) []).play discoveredOnly
        (SdkWorld.agreeing pendingState .empty)).2 :=
  agrees_after_operation (.allocate []) pendingState_runs (by rintro ⟨⟩)

theorem agrees_after_operation_not_always :
    ¬ ∀ (config : SdkConfig (Fin 10)) (program : SdkM (Fin 10) Unit),
      AdapterOperation config program →
      ∀ (state : SdkState) (records : AllocationTable)
        (outcome : Outcome SdkError Unit) (after : SdkWorld (Fin 10)),
        program.Runs sdkEnvironment (SdkWorld.agreeing state records) outcome
          after →
        outcome ≠ .crashed → after.memory = after.disk := by
  intro hagrees
  have hsame := hagrees _ _ (.allocate []) pendingState .empty _ _
    pendingState_runs (by rintro ⟨⟩)
  have hpending := congrArg (fun state : SdkState => state.pending.length)
    hsame
  exact absurd hpending (by decide)

end HoprStrategy.Curvy
