import HoprStrategy.CurvyAllocate

/-!
# The machine under the Curvy SDK bridge

The world of the bridge is its state in memory, what the store holds, and the
history of its calls.  `Guard` says what the bridge may do: which calls it
makes in which state, and which evidence the history holds when it saves an
update.  The traversals show that every function of the bridge keeps to the
guard, and every invariant is proved about guarded calls alone.
-/

namespace HoprStrategy.Curvy

open Library

/-- Where the bridge stands between changing its state in memory and on disk:
they are in step, the disk is ahead, memory is ahead, or memory is ahead and
the save has failed. -/
inductive Phase where
  | settled
  | saved
  | mutated
  | lost
  deriving DecidableEq

structure SdkEvent (Fr : Type) where
  call : SdkCall Fr
  reply : call.Reply

/-- Calls to anything but the locked state and the store. -/
def SdkCall.external {Fr : Type} : SdkCall Fr → Bool
  | .readState | .writeState _ | .saveUpdate _ _ _ _ | .resetStore _
  | .allocation _ _ => false
  | _ => true

/-- A save which reached the store, or which followed a change in memory. -/
def SdkEvent.saves {Fr : Type} : SdkEvent Fr → Bool
  | ⟨.saveUpdate update _ _ _, reply⟩ =>
      update.mutatesFirst || (reply : Except String Unit).isOk
  | _ => false

theorem SdkEvent.saves_external {Fr : Type} {call : SdkCall Fr}
    (hexternal : call.external = true) (reply : call.Reply) :
    SdkEvent.saves ⟨call, reply⟩ = false := by
  cases call <;> first | rfl | cases hexternal

/-- The calls after the last save. -/
def sinceSave {Fr : Type} (history : List (SdkEvent Fr)) :
    List (SdkEvent Fr) :=
  history.takeWhile fun event => !event.saves

theorem sinceSave_cons {Fr : Type} {event : SdkEvent Fr}
    {history : List (SdkEvent Fr)} (hunsaved : event.saves = false) :
    sinceSave (event :: history) = event :: sinceSave history := by
  simp [sinceSave, hunsaved]

theorem sinceSave_of_saves {Fr : Type} {event : SdkEvent Fr}
    {history : List (SdkEvent Fr)} (hsaves : event.saves = true) :
    sinceSave (event :: history) = [] := by
  simp [sinceSave, hsaves]

/-- The allocation records, each stored under its own id. -/
@[ext] structure AllocationTable where
  find : PixAddressId → Option StoredAllocation
  keyed : ∀ id record, find id = some record → record.id = id

namespace AllocationTable

def empty : AllocationTable := ⟨fun _ => none, by simp⟩

/-- The table after one write transaction. -/
def update (table : AllocationTable) (allocations : List StoredAllocation)
    (remove : List PixAddressId) : AllocationTable where
  find id :=
    if remove.contains id then none
    else (allocations.reverse.find? fun record => record.id = id).or
      (table.find id)
  keyed := by
    intro id record h
    split at h
    · cases h
    · rcases Option.or_eq_some_iff.mp h with hnew | ⟨_, hold⟩
      · simpa using List.find?_some hnew
      · exact table.keyed id record hold

@[simp] theorem update_nil (table : AllocationTable) :
    table.update [] [] = table := by
  ext id
  simp [update]

theorem update_find_of_not_mem {table : AllocationTable}
    {allocations : List StoredAllocation} {remove : List PixAddressId}
    {id : PixAddressId} (hremove : id ∉ remove)
    (hallocations : id ∉ allocations.map StoredAllocation.id) :
    (table.update allocations remove).find id = table.find id := by
  have hfind : allocations.reverse.find? (fun record => record.id = id) =
      none := by
    simp only [List.find?_eq_none, List.mem_reverse, decide_eq_true_eq]
    intro record hrecord heq
    exact hallocations (List.mem_map.mpr ⟨record, hrecord, heq⟩)
  simp [update, hremove, hfind]

end AllocationTable

structure SdkWorld (Fr : Type) where
  memory : SdkState
  disk : SdkState
  records : AllocationTable
  phase : Phase
  /-- Calls to anything but the locked state, the last one first. -/
  history : List (SdkEvent Fr)

namespace SdkWorld

variable {Fr : Type}

def record (world : SdkWorld Fr) (call : SdkCall Fr) (reply : call.Reply) :
    SdkWorld Fr :=
  { world with history := ⟨call, reply⟩ :: world.history }

/-- What a failed store access leaves: a change in memory is not undone. -/
def stranded (world : SdkWorld Fr) : SdkWorld Fr :=
  { world with
    phase := if world.phase = .mutated then .lost else world.phase }

/-- What a successful save leaves. -/
def saved (world : SdkWorld Fr) (state : SdkState)
    (records : AllocationTable) : SdkWorld Fr :=
  { world with
    disk := state
    records := records
    phase := if world.phase = .mutated then .settled else .saved }

def assigned (world : SdkWorld Fr) (state : SdkState) : SdkWorld Fr :=
  { world with
    memory := state
    phase := if world.phase = .saved then .settled else .mutated }

def after (world : SdkWorld Fr) : (call : SdkCall Fr) → call.Reply →
    SdkWorld Fr
  | .readState, _ => world
  | .writeState state, _ => world.assigned state
  | .saveUpdate update state allocations remove, reply =>
      match (reply : Except String Unit) with
      | .ok _ => (world.saved state
          (world.records.update allocations remove)).record
            (.saveUpdate update state allocations remove) (.ok ())
      | .error error => world.stranded.record
          (.saveUpdate update state allocations remove) (.error error)
  | .resetStore state, reply =>
      match (reply : Except String Unit) with
      | .ok _ => (world.saved state .empty).record (.resetStore state)
          (.ok ())
      | .error error => world.stranded.record (.resetStore state)
          (.error error)
  | .allocation reader id, reply =>
      match (reply : Except String (Option StoredAllocation)) with
      | .ok (some found) => world.record (.allocation reader id)
          (.ok (some found))
      | other => world.stranded.record (.allocation reader id) other
  | call, reply => world.record call reply

/-- The replies which agree with the world. -/
def permits (world : SdkWorld Fr) : (call : SdkCall Fr) → call.Reply → Prop
  | .readState, state => (state : SdkState) = world.memory
  | .allocation _ id, reply =>
      (reply : Except String (Option StoredAllocation)) =
          .ok (world.records.find id) ∨
        ∃ error, (reply : Except String (Option StoredAllocation)) =
          .error error
  | .awaitInclusion submission, reply =>
      ∃ polls, (reply : Except RelayError RelaySubmission) =
        awaitInclusion submission polls
  | _, _ => True

/-- A call which is answered and leaves memory, disk and phase alone. -/
structure Quiet (before after : SdkWorld Fr) : Prop where
  memory : after.memory = before.memory
  disk : after.disk = before.disk
  records : after.records = before.records
  phase : after.phase = before.phase
  history : before.history <:+ after.history
  unsaved : sinceSave before.history <:+ sinceSave after.history

theorem Quiet.refl (world : SdkWorld Fr) : Quiet world world :=
  ⟨rfl, rfl, rfl, rfl, List.suffix_rfl, List.suffix_rfl⟩

theorem Quiet.trans {first second third : SdkWorld Fr}
    (hfirst : Quiet first second) (hsecond : Quiet second third) :
    Quiet first third where
  memory := hsecond.memory.trans hfirst.memory
  disk := hsecond.disk.trans hfirst.disk
  records := hsecond.records.trans hfirst.records
  phase := hsecond.phase.trans hfirst.phase
  history := hfirst.history.trans hsecond.history
  unsaved := hfirst.unsaved.trans hsecond.unsaved

theorem Quiet.record (world : SdkWorld Fr) {call : SdkCall Fr}
    {reply : call.Reply} (hunsaved : SdkEvent.saves ⟨call, reply⟩ = false) :
    Quiet world (world.record call reply) where
  memory := rfl
  disk := rfl
  records := rfl
  phase := rfl
  history := List.suffix_cons _ _
  unsaved := by
    have h : sinceSave (world.record call reply).history =
        ⟨call, reply⟩ :: sinceSave world.history := sinceSave_cons hunsaved
    rw [h]
    exact List.suffix_cons _ _

theorem Quiet.record_external (world : SdkWorld Fr) {call : SdkCall Fr}
    (hexternal : call.external = true) (reply : call.Reply) :
    Quiet world (world.record call reply) :=
  .record world (SdkEvent.saves_external hexternal reply)

end SdkWorld

theorem after_external {Fr : Type} {world : SdkWorld Fr} {call : SdkCall Fr}
    (hexternal : call.external = true) (reply : call.Reply) :
    world.after call reply = world.record call reply := by
  cases call <;> first | rfl | cases hexternal

/-- The bridge among replies which agree with its world. -/
def sdkEnvironment {Fr : Type} :
    Environment (SdkCall Fr) SdkCall.Reply (SdkWorld Fr) :=
  fun world call reply after =>
    world.permits call reply ∧ after = world.after call reply

/-! ## Evidence -/

section

variable {Fr : Type} (config : SdkConfig Fr)

def Reported (history : List (SdkEvent Fr)) (call : SdkCall Fr)
    (reply : call.Reply) : Prop :=
  ⟨call, reply⟩ ∈ history

theorem reported_sinceSave {history : List (SdkEvent Fr)}
    {call : SdkCall Fr} {reply : call.Reply}
    (hunsaved : SdkEvent.saves ⟨call, reply⟩ = false) :
    Reported (sinceSave (⟨call, reply⟩ :: history)) call reply := by
  rw [sinceSave_cons hunsaved]
  exact List.mem_cons_self

/-- The last call and its reply. -/
def LastReported (history : List (SdkEvent Fr)) (call : SdkCall Fr)
    (reply : call.Reply) : Prop :=
  history.head? = some ⟨call, reply⟩

/-- The chain was seen to know a note, as pending or as committed. -/
def NoteSeen (history : List (SdkEvent Fr)) (stored : StoredNote) : Prop :=
  ∃ note status, stored.toOwned config.codec = .ok note ∧
    (status = 1 ∨ status = 2) ∧
    Reported history (.noteStatus (config.codec.noteId note)) (.ok status)

def OutputsKnown (history : List (SdkEvent Fr))
    (emitted : List StoredNote) : Prop :=
  emitted ≠ [] ∧ ∀ stored ∈ emitted, NoteSeen config history stored

def OutputsFinalized (history : List (SdkEvent Fr))
    (emitted : List StoredNote) : Prop :=
  ∃ leaves, Reported history .notesTreeSnapshot (.ok (some leaves)) ∧
    ∀ stored ∈ emitted, ∃ note, stored.toOwned config.codec = .ok note ∧
      config.codec.frToDec (config.codec.noteId note) ∈ leaves

/-- The record of an id was read to complete it, in the middle of booking the
legacy aggregation. -/
def CompletionRead (history : List (SdkEvent Fr)) (id : PixAddressId) : Prop :=
  ∃ record, Reported history (.allocation (.completion .bookAmbiguous) id)
    (.ok (some record))

/-- The SDK proved a request over these inputs. -/
def Proved (history : List (SdkEvent Fr)) (inputs : List (OwnedNote Fr))
    (request : PixAggregationRequest Fr) : Prop :=
  ∃ allocations relayFee feeRecipient, Reported history
    (.buildPixAggregation inputs allocations relayFee feeRecipient)
    (.ok request)

end

/-! ## What the bridge may do -/

/-- Changes made to the locked state before they are saved. -/
inductive MemoryStep {Fr : Type} [DecidableEq Fr] (config : SdkConfig Fr)
    (history : List (SdkEvent Fr)) (state : SdkState) : SdkState → Prop
  | journalDirectShield {note : OwnedNote Fr} {gross token : ℕ}
      (hnone : state.directShieldInFlight = none)
      (hprepared : Reported (sinceSave history)
        (.prepareDirectShield gross token) (.ok note)) :
      MemoryStep config history state
        { state with
          directShieldInFlight :=
            some ⟨StoredNote.ofOwned config.codec note, gross⟩ }
  | bookDirectShield {shield : StoredDirectShield} {note : OwnedNote Fr}
      {already : Bool} {observed : ℕ}
      (hshield : state.directShieldInFlight = some shield)
      (hnote : shield.note.toOwned config.codec = .ok note)
      (hstatus : observed = 1 ∨ observed = 2)
      (hobserved : Reported history
        (.noteStatus (config.codec.noteId note)) (.ok observed))
      (halready : SdkM.alreadyFunding config state.funding note =
        .ok already) :
      MemoryStep config history state
        { SdkM.bookShielded state (StoredNote.ofOwned config.codec note)
            already observed with directShieldInFlight := none }
  | journalShield {prepared : PreparedDeposit Fr} {gross token : ℕ}
      {recovery : String}
      (hnone : state.shieldInFlight = none)
      (hprepared : Reported (sinceSave history)
        (.prepareDeposit gross token recovery) (.ok prepared)) :
      MemoryStep config history state
        { state with
          shieldInFlight :=
            some ⟨StoredNote.ofOwned config.codec prepared.note,
              prepared.gross, prepared.recovery, prepared.portalAddress,
              .prepared⟩ }
  | markShieldFunded {shield : StoredShield} {token : String} {gross : ℕ}
      (hshield : state.shieldInFlight = some shield)
      (hstage : shield.stage = .prepared)
      (hbalance : LastReported history
        (.erc20Balance token shield.portalAddress) (.ok gross)) :
      MemoryStep config history state
        { state with shieldInFlight := some { shield with stage := .funded } }
  | bookShield {shield : StoredShield} {note : OwnedNote Fr}
      {already : Bool} {observed : ℕ}
      (hshield : state.shieldInFlight = some shield)
      (hnote : shield.note.toOwned config.codec = .ok note)
      (hobserved : Reported history
        (.noteStatus (config.codec.noteId note)) (.ok observed))
      (hshielded : (observed = 1 ∨ observed = 2) ∨
        ∃ prepared entry, prepared.note = note ∧
          Reported history (.shieldPreparedDeposit prepared) (.ok entry))
      (halready : SdkM.alreadyFunding config state.funding note =
        .ok already) :
      MemoryStep config history state
        { SdkM.bookShielded state (StoredNote.ofOwned config.codec note)
            already observed with shieldInFlight := none }
  | clearPending (hpending : state.pending ≠ []) :
      MemoryStep config history state { state with pending := [] }
  | bookAmbiguous {inputs : List StoredNote} {change : StoredNote}
      {emitted : List StoredNote}
      (hambiguous : state.ambiguousAllocation = true) :
      MemoryStep config history state
        { state with
          funding := state.fundingAfter inputs [change]
          pending := state.pending ++ emitted
          ambiguousAllocation := false
          ambiguousInputs := []
          ambiguousChange := none
          ambiguousEmitted := [] }
  | journalIntent {intent : StoredRelayIntent} :
      MemoryStep config history state
        { state with relayIntents := state.relayIntents ++ [intent] }
  | clearIntent {intent : String}
      (hintent : ∃ stored ∈ state.relayIntents, stored.intent = intent) :
      MemoryStep config history state
        { state with
          relayIntents :=
            state.relayIntents.filter fun stored => stored.intent ≠ intent }

/-- The relayer refused the last POST, which followed this journal entry. -/
def Refused {Fr : Type} (history : List (SdkEvent Fr)) (intent : String)
    (wasAttempted : Bool) : Prop :=
  ∃ (body : RelayBody) (text : String) (state : SdkState)
    (rest : List (SdkEvent Fr)),
    body.intent = intent ∧
      history = ⟨.relaySubmit body, .error (.rejected text)⟩ ::
        ⟨.saveUpdate (.saveRelayAttempt (.posting wasAttempted)) state [] [],
          .ok ()⟩ :: rest

/-- The submission the relayer last reported for an attempt. -/
def FoundSubmission {Fr : Type} (history : List (SdkEvent Fr))
    (attempt : StoredRelayAggregation) (submission : RelaySubmission) :
    Prop :=
  (∃ requestId, attempt.requestId = some requestId ∧
      LastReported history (.relayStatus requestId) (.ok submission)) ∨
    LastReported history (.relayByIntent attempt.intent attempt.chainId)
      (.ok (some submission)) ∨
    (attempt.requestId = none ∧ ∃ (body : RelayBody) (answer : RelayAnswer),
      body.intent = attempt.intent ∧ answer.submission = submission ∧
        LastReported history (.relaySubmit body) (.ok answer))

/-- The result of the last wait, which was for the attempt's request. -/
def Awaited {Fr : Type} (history : List (SdkEvent Fr))
    (attempt : StoredRelayAggregation)
    (result : Except RelayError RelaySubmission) : Prop :=
  ∃ submission : RelaySubmission,
    attempt.requestId = some submission.requestId ∧
      LastReported history (.awaitInclusion submission) result

/-- The wait for an attempt's request ended with this request landed. -/
def Landed {Fr : Type} (history : List (SdkEvent Fr))
    (attempt : StoredRelayAggregation) (requestId : String) : Prop :=
  ∃ submission landed : RelaySubmission,
    attempt.requestId = some submission.requestId ∧
      landed.requestId = requestId ∧
      Reported history (.awaitInclusion submission) (.ok landed)

/-- Rewritings of the last entry of the relay journal, which is not marked for
rebuild. -/
inductive AttemptStep {Fr : Type} (history : List (SdkEvent Fr))
    (attempts : ℕ) (attempt : StoredRelayAggregation) :
    AttemptUpdate → StoredRelayAggregation → Prop
  | legacyCircuit (hcircuit : attempt.circuit = none)
      (hattempted : attempt.attempted = false) :
      AttemptStep history attempts attempt .legacyCircuit
        { attempt with rebuild := true }
  | lookupRefused {error : RelayError}
      (hpermits : error.permitsReplacement = true)
      (hrefused : (∃ requestId, attempt.requestId = some requestId ∧
          Reported history (.relayStatus requestId) (.error error)) ∨
        LastReported history
          (.relayByIntent attempt.intent attempt.chainId) (.error error)) :
      AttemptStep history attempts attempt .lookupRefused
        { attempt with rebuild := true }
  | missingCircuit (hcircuit : attempt.circuit = none) :
      AttemptStep history attempts attempt .missingCircuit
        { attempt with rebuild := true }
  | posting (hrequest : attempt.requestId = none)
      (hlookup : attempt.attempted = true → LastReported history
        (.relayByIntent attempt.intent attempt.chainId) (.ok none)) :
      AttemptStep history attempts attempt (.posting attempt.attempted)
        { attempt with attempted := true }
  | refusedRepost (hrefused : Refused history attempt.intent true) :
      AttemptStep history attempts attempt .refusedRepost
        { attempt with rebuild := true }
  | observed {submission : RelaySubmission}
      (hfound : FoundSubmission history attempt submission) :
      AttemptStep history attempts attempt
        (.observed submission.status submission.transactionHash)
        (attempt.held submission)
  | awaitRefused {error : RelayError}
      (hpermits : error.permitsReplacement = true)
      (hawaited : Awaited history attempt (.error error)) :
      AttemptStep history attempts attempt .awaitRefused
        { attempt with rebuild := true }
  | timedOut {requestId : String} {status : RelayStatus}
      {transactionHash : Option String} {progressed : Bool}
      (hawaited : Awaited history attempt
        (.error (.timeout requestId status transactionHash progressed))) :
      AttemptStep history attempts attempt
        (.timedOut status transactionHash progressed)
        (attempt.timedOut status transactionHash progressed)
  | failedBeside {text : String} (hattempts : attempts ≠ 1)
      (hawaited : Awaited history attempt (.error (.failed text))) :
      AttemptStep history attempts attempt .failedBeside
        { attempt with rebuild := true }
  | landed {landed : RelaySubmission}
      (hawaited : Awaited history attempt (.ok landed)) :
      AttemptStep history attempts attempt
        (.landed landed.status landed.transactionHash)
        (attempt.observeProgress landed.status landed.transactionHash)

/-- The records of a first attempt: new, or left by a preparation which was
cut short. -/
def FreshRecords {Fr : Type} (world : SdkWorld Fr)
    (records : List StoredAllocation) : Prop :=
  (records.map StoredAllocation.id).Nodup ∧
    ∀ record ∈ records, record.stage = .prepared ∧
      (world.records.find record.id = none ∨
        ∃ existing, world.records.find record.id = some existing ∧
          existing.stage = .prepared ∧
          record.id ∉ world.memory.journalledIds)

/-- What a first attempt may spend: selected funding, while no other
aggregation is journalled. -/
structure FirstSpend {Fr : Type} (config : SdkConfig Fr) (distinct : Prop)
    (world : SdkWorld Fr) (inputs : List (OwnedNote Fr))
    (records : List StoredAllocation) : Prop where
  relay : world.memory.relayAggregations = []
  operator : world.memory.operatorAggregations = []
  selected : ∃ minimum,
    SdkM.selectFunding config world.memory.funding minimum = .ok inputs
  prepared : ∀ record ∈ records, record.stage = .prepared
  fresh : distinct → FreshRecords world records

/-- The records of the ids, and the records with the stage set. -/
def CompletedRecords {Fr : Type} (world : SdkWorld Fr)
    (ids : List PixAddressId) (completed : List StoredAllocation) : Prop :=
  ∃ records, List.Forall₂ (fun id record => world.records.find id = some record)
      ids records ∧
    completed = records.map fun record =>
      { record with stage := .completed }

/-- Updates which are saved from a clone. -/
inductive DurableStep {Fr : Type} (config : SdkConfig Fr) (distinct : Prop)
    (world : SdkWorld Fr) :
    Update → SdkState → List StoredAllocation → List PixAddressId → Prop
  | prepareRelay {endpoints : CurvyChainEndpoints} {intent : String}
      {request : PixAggregationRequest Fr} {inputs : List (OwnedNote Fr)}
      {records : List StoredAllocation}
      (hintent : LastReported world.history .uuid intent)
      (hproved : Proved (sinceSave world.history) inputs request)
      (hlength : world.memory.relayAggregations.length <
        maxRelayAggregationAttempts)
      (hspend : match world.memory.relayAggregations.getLast? with
        | none => FirstSpend config distinct world inputs records
        | some previous => previous.rebuild = true ∧
            SdkM.replaces previous request endpoints
              (inputs.map (StoredNote.ofOwned config.codec))
              (records.map StoredAllocation.id) = true ∧
            ∀ record ∈ records, world.records.find record.id = some record) :
      DurableStep config distinct world .prepareRelay
        { world.memory with
          relayAggregations := world.memory.relayAggregations ++
            [SdkM.relayAttempt config endpoints intent request
              (inputs.map (StoredNote.ofOwned config.codec))
              (records.map StoredAllocation.id)] }
        records []
  | saveRelayAttempt {cause : AttemptUpdate}
      {attempt rewritten : StoredRelayAggregation}
      (hlast : world.memory.relayAggregations.getLast? = some attempt)
      (hunmarked : attempt.rebuild = false)
      (hstep : AttemptStep world.history
        world.memory.relayAggregations.length attempt cause rewritten) :
      DurableStep config distinct world (.saveRelayAttempt cause)
        { world.memory with
          relayAggregations := world.memory.relayAggregations.set
            (world.memory.relayAggregations.length - 1) rewritten }
        [] []
  | winnerMetadata {index : ℕ} {attempt : StoredRelayAggregation}
      {requestId : String} {transactionHash : Option String}
      (hattempt : world.memory.relayAggregations[index]? = some attempt)
      (hattempted : attempt.attempted = true)
      (hknown : OutputsKnown config world.history attempt.emitted)
      (hhash : world.memory.relayAggregations.getLast? = some attempt →
        transactionHash = attempt.transactionHash)
      (hrequest : world.memory.relayAggregations.getLast? = some attempt →
        Landed world.history attempt requestId) :
      DurableStep config distinct world (.saveRelayAttempt .winnerMetadata)
        { world.memory with
          relayAggregations := world.memory.relayAggregations.set index
            { attempt with
              requestId := some requestId
              transactionHash := transactionHash } }
        [] []
  | bookRelay {index : ℕ} {attempt : StoredRelayAggregation}
      {change : List StoredNote} {completed : List StoredAllocation}
      (hattempt : world.memory.relayAggregations[index]? = some attempt)
      (hattempted : attempt.attempted = true)
      (hknown : OutputsKnown config world.history attempt.emitted)
      (hfinal : world.memory.relayAggregations.length > 1 →
        OutputsFinalized config world.history attempt.emitted)
      (hchange : SdkM.bookedChange config attempt.change = .ok change)
      (hcompleted : CompletedRecords world attempt.allocationIds completed) :
      DurableStep config distinct world (.finishRelay (some index))
        { world.memory with
          funding := world.memory.fundingAfter attempt.inputs change
          pending := world.memory.pending ++ attempt.emitted
          relayAggregations := [] }
        completed []
  | releaseRelay {attempt : StoredRelayAggregation}
      (hattempts : world.memory.relayAggregations = [attempt])
      (hunmarked : attempt.rebuild = false)
      (hdead : Refused world.history attempt.intent false ∨
        ∃ text, Awaited world.history attempt (.error (.failed text))) :
      DurableStep config distinct world (.finishRelay none)
        { world.memory with relayAggregations := [] }
        [] attempt.allocationIds
  | dropRejectedAttempt {attempt : StoredRelayAggregation}
      (hlast : world.memory.relayAggregations.getLast? = some attempt)
      (hattempts : world.memory.relayAggregations.length ≠ 1)
      (hrefused : Refused world.history attempt.intent false) :
      DurableStep config distinct world .dropRejectedAttempt
        { world.memory with
          relayAggregations := world.memory.relayAggregations.dropLast }
        [] []
  | prepareOperator {endpoints : CurvyChainEndpoints}
      {request : PixAggregationRequest Fr} {inputs : List (OwnedNote Fr)}
      {records : List StoredAllocation}
      (hproved : Proved (sinceSave world.history) inputs request)
      (hrelay : world.memory.relayAggregations = [])
      (hlength : world.memory.operatorAggregations.length <
        maxRelayAggregationAttempts)
      (hspend : match world.memory.operatorAggregations.getLast? with
        | none => FirstSpend config distinct world inputs records
        | some previous => SdkM.competesWith previous
              (SdkM.operatorAttempt config endpoints request inputs records) =
                true ∧
            ∀ record ∈ records, world.records.find record.id = some record) :
      DurableStep config distinct world .prepareOperator
        { world.memory with
          operatorAggregations := world.memory.operatorAggregations ++
            [SdkM.operatorAttempt config endpoints request inputs records] }
        records []
  | bookOperator {index : ℕ} {attempt : StoredOperatorAggregation}
      {change : List StoredNote} {completed : List StoredAllocation}
      (hattempt : world.memory.operatorAggregations[index]? = some attempt)
      (hwinner : OutputsKnown config world.history attempt.emitted ∨
        ∃ endpoints request inputs records ledger,
          attempt = SdkM.operatorAttempt config endpoints request inputs
            records ∧
          Reported world.history (.submitPixAggregation request) (.ok ledger))
      (hfinal : world.memory.operatorAggregations.length > 1 →
        OutputsFinalized config world.history attempt.emitted)
      (hchange : SdkM.bookedChange config attempt.change = .ok change)
      (hcompleted : CompletedRecords world attempt.allocationIds completed) :
      DurableStep config distinct world (.finishOperator (some index))
        { world.memory with
          funding := world.memory.fundingAfter attempt.inputs change
          pending := world.memory.pending ++ attempt.emitted
          operatorAggregations := [] }
        completed []
  | releaseOperator {attempt : StoredOperatorAggregation}
      (hattempts : world.memory.operatorAggregations = [attempt])
      (hfailed : ∃ endpoints request inputs records message,
        attempt = SdkM.operatorAttempt config endpoints request inputs
          records ∧
        LastReported world.history (.submitPixAggregation request)
          (.error ⟨message, false⟩)) :
      DurableStep config distinct world (.finishOperator none)
        { world.memory with operatorAggregations := [] }
        [] attempt.allocationIds
  | dropOperatorAttempt {attempt : StoredOperatorAggregation}
      (hlast : world.memory.operatorAggregations.getLast? = some attempt)
      (hattempts : world.memory.operatorAggregations.length ≠ 1)
      (hfailed : ∃ endpoints request inputs records message,
        attempt = SdkM.operatorAttempt config endpoints request inputs
          records ∧
        LastReported world.history (.submitPixAggregation request)
          (.error ⟨message, false⟩)) :
      DurableStep config distinct world .dropOperatorAttempt
        { world.memory with
          operatorAggregations := world.memory.operatorAggregations.eraseIdx
            (world.memory.operatorAggregations.length - 1) }
        [] []

end HoprStrategy.Curvy
