import HoprStrategy.CurvyRelayLoop
import HoprStrategy.Library.CallCounts

/-!
# One invocation of the settling loop

Whatever the relayer answers, the loop ends within its iterations and proves
at most one replacement: only the rebuild proves anything, and after it the
last attempt is one which no later iteration rebuilds.
-/

namespace HoprStrategy.Curvy

open Library SdkWorld

variable {Fr : Type} {α : Type}

/-- The SDK is asked for a proof of an aggregation. -/
def SdkCall.proves : SdkCall Fr → Bool
  | .buildPixAggregation _ _ _ _ => true
  | _ => false

/-- How many aggregations the SDK was asked to prove. -/
def proofsAsked (history : List (SdkEvent Fr)) : ℕ :=
  history.countP fun event => event.call.proves

/-- No path of the program asks for a proof. -/
abbrev Proofless (program : SdkM Fr α) : Prop :=
  program.Avoids fun call => call.proves = true

theorem proofless_ask {call : SdkCall Fr} (hcall : call.proves = false) :
    Proofless (.call call .pure : SdkM Fr call.Reply) :=
  Program.avoids_call (by simp [hcall]) fun _ => trivial

theorem proofless_fallible {call : SdkCall Fr} {E : Type}
    {result : call.Reply → Except E α} {toError : E → SdkError}
    (hcall : call.proves = false) :
    Proofless (.call call fun reply => .raise toError (result reply)) :=
  Program.avoids_call (by simp [hcall])
    fun reply => Program.avoids_raise toError (result reply)

theorem proofless_ofExcept (result : Except SdkError α) :
    Proofless (SdkM.ofExcept result : SdkM Fr α) :=
  Program.avoids_raise id result

/-- A change saved from a clone, and then assigned. -/
theorem proofless_commit (update : Update) (next : SdkState)
    (allocations : List StoredAllocation) (remove : List PixAddressId)
    {rest : SdkM Fr α} (hrest : Proofless rest) :
    Proofless (do
      SdkM.saveUpdate update next allocations remove
      SdkM.writeState next
      rest) := by
  apply Program.Avoids.bind (proofless_fallible rfl)
  intro _
  apply Program.Avoids.bind (proofless_ask rfl)
  intro _
  exact hrest

theorem proofless_commitLast (update : Update) (next : SdkState)
    (allocations : List StoredAllocation) (remove : List PixAddressId) :
    Proofless (do
      SdkM.saveUpdate update next allocations remove
      SdkM.writeState next : SdkM Fr Unit) := by
  apply Program.Avoids.bind (proofless_fallible rfl)
  intro _
  exact proofless_ask rfl

namespace SdkM

/-! ## Reads -/

theorem preparedAllocations_proofless (reader : RecordReader)
    (ids : List PixAddressId) :
    Proofless (preparedAllocations reader ids : SdkM Fr _) := by
  induction ids with
  | nil => trivial
  | cons id rest ih =>
      apply Program.Avoids.bind (proofless_fallible rfl)
      intro found
      cases found with
      | none => trivial
      | some record => exact Program.Avoids.bind ih fun _ => trivial

theorem notesKnownFrom_proofless (config : SdkConfig Fr)
    (notes : List StoredNote) : Proofless (notesKnownFrom config notes) := by
  induction notes with
  | nil => trivial
  | cons stored rest ih =>
      apply Program.Avoids.bind (proofless_ofExcept _)
      intro note
      apply Program.Avoids.bind (proofless_fallible rfl)
      intro status
      split
      · exact ih
      · trivial

theorem relayOutputsKnown_proofless (config : SdkConfig Fr)
    (attempt : StoredRelayAggregation) :
    Proofless (relayOutputsKnown config attempt) := by
  unfold relayOutputsKnown notesKnown
  split
  · split
    · trivial
    · apply Program.Avoids.bind (proofless_fallible rfl)
      intro _
      exact notesKnownFrom_proofless config _
  · trivial

theorem relayWinnerFrom_proofless (config : SdkConfig Fr) (index : ℕ)
    (attempts : List StoredRelayAggregation) :
    Proofless (relayWinnerFrom config index attempts) := by
  induction attempts generalizing index with
  | nil => trivial
  | cons attempt rest ih =>
      apply Program.Avoids.bind (relayOutputsKnown_proofless config attempt)
      intro known
      cases known with
      | true => trivial
      | false => exact ih (index + 1)

theorem confirmWinner_proofless (config : SdkConfig Fr) (attempts : ℕ)
    (emitted : List StoredNote) :
    Proofless (confirmWinner config attempts emitted) := by
  unfold confirmWinner
  split
  · apply Program.Avoids.bind (proofless_fallible rfl)
    intro _
    apply Program.Avoids.bind (proofless_ofExcept _)
    intro _
    apply Program.Avoids.bind (proofless_ask rfl)
    intro (due : Bool)
    apply Program.Avoids.bind (Program.avoids_require (due = true) _)
    intro _
    apply Program.Avoids.bind (proofless_ask rfl)
    intro snapshot
    rcases snapshot with failure | leaves
    · cases failure <;> trivial
    · cases leaves with
      | none => trivial
      | some leaves => exact Program.avoids_require _ _
  · trivial

/-! ## Updates -/

theorem saveRelayAttempt_proofless (cause : AttemptUpdate) (index : ℕ)
    (pending : StoredRelayAggregation) :
    Proofless (saveRelayAttempt cause index pending : SdkM Fr Unit) := by
  apply Program.Avoids.bind (proofless_ask rfl)
  intro _
  exact proofless_commitLast _ _ _ _

theorem dropRejectedAttempt_proofless :
    Proofless (dropRejectedAttempt : SdkM Fr Unit) := by
  apply Program.Avoids.bind (proofless_ask rfl)
  intro _
  exact proofless_commitLast _ _ _ _

theorem finishRelayAggregation_proofless (config : SdkConfig Fr)
    (winner : Option ℕ) :
    Proofless (finishRelayAggregation config winner) := by
  apply Program.Avoids.bind (proofless_ask rfl)
  intro current
  apply Program.Avoids.bind (Program.avoids_require _ _)
  intro _
  dsimp only
  split
  · trivial
  · cases winner with
    | none => exact proofless_commit _ _ _ _ trivial
    | some index =>
        apply Program.Avoids.bind (proofless_ofExcept _)
        intro change
        apply Program.Avoids.bind
        · exact Program.Avoids.bind (preparedAllocations_proofless _ _)
            fun _ => trivial
        · intro completed
          exact proofless_commit _ _ _ _ trivial

/-! ## The arms of the loop -/

theorem restartUnless_proofless (rebuilt : Bool) (error : RelayError) :
    Proofless (restartUnless rebuilt error : SdkM Fr (Turn α)) := by
  unfold restartUnless
  split <;> trivial

/-- An attempt is marked, and the loop goes round again. -/
theorem mark_proofless (cause : AttemptUpdate) (index : ℕ)
    (pending : StoredRelayAggregation) (rebuilt : Bool)
    (error : RelayError) :
    Proofless (do
      saveRelayAttempt cause index pending
      restartUnless rebuilt error : SdkM Fr (Turn α)) := by
  apply Program.Avoids.bind (saveRelayAttempt_proofless _ _ _)
  intro _
  exact restartUnless_proofless rebuilt error

theorem lookupRelay_proofless (pending : StoredRelayAggregation) :
    Proofless (lookupRelay pending : SdkM Fr _) := by
  unfold lookupRelay
  split
  · apply Program.Avoids.bind (proofless_ask rfl)
    intro status
    split
    · apply Program.Avoids.bind (proofless_ask rfl)
      intro found
      split <;> trivial
    · trivial
    · trivial
  · split
    · exact proofless_ask rfl
    · trivial

theorem lookupArm_proofless (rebuilt : Bool) (index : ℕ)
    (pending : StoredRelayAggregation) :
    Proofless (lookupArm rebuilt index pending : SdkM Fr _) := by
  apply Program.Avoids.bind (lookupRelay_proofless pending)
  intro lookup
  cases lookup with
  | ok known => trivial
  | error error =>
      dsimp only
      split
      · exact mark_proofless _ _ _ _ _
      · trivial

theorem refusedArm_proofless (config : SdkConfig Fr) (rebuilt : Bool)
    (attempts index : ℕ) (wasAttempted : Bool)
    (pending : StoredRelayAggregation) (error : RelayError) :
    Proofless (refusedArm config rebuilt attempts index wasAttempted pending
      error) := by
  unfold refusedArm
  split
  · exact Program.Avoids.bind (finishRelayAggregation_proofless config none)
      fun _ => trivial
  · split
    · exact mark_proofless _ _ _ _ _
    · apply Program.Avoids.bind dropRejectedAttempt_proofless
      intro _
      exact restartUnless_proofless rebuilt error

theorem submitArm_proofless (config : SdkConfig Fr) (rebuilt : Bool)
    (attempts index : ℕ) (pending : StoredRelayAggregation) :
    Proofless (submitArm config rebuilt attempts index pending) := by
  unfold submitArm
  split
  · exact Program.Avoids.bind (saveRelayAttempt_proofless _ _ _)
      fun _ => trivial
  · apply Program.Avoids.bind (saveRelayAttempt_proofless _ _ _)
    intro _
    apply Program.Avoids.bind (proofless_ask rfl)
    intro posted
    split
    · trivial
    · exact refusedArm_proofless _ _ _ _ _ _ _
    · trivial

theorem landedArm_proofless (config : SdkConfig Fr) (index : ℕ)
    (pending : StoredRelayAggregation) (landed : RelaySubmission) :
    Proofless (landedArm config index pending landed) := by
  apply Program.Avoids.bind (saveRelayAttempt_proofless _ _ _)
  intro _
  apply Program.Avoids.bind (proofless_ask rfl)
  intro state
  apply Program.Avoids.bind (relayWinnerFrom_proofless config 0 _)
  intro winner
  cases winner with
  | none => trivial
  | some winner =>
      apply Program.Avoids.bind (saveRelayAttempt_proofless _ _ _)
      intro _
      apply Program.Avoids.bind (confirmWinner_proofless config _ _)
      intro _
      exact finishRelayAggregation_proofless config _

theorem awaitedArm_proofless (config : SdkConfig Fr) (rebuilt : Bool)
    (attempts index : ℕ) (pending : StoredRelayAggregation)
    (result : Except RelayError RelaySubmission) :
    Proofless (awaitedArm config rebuilt attempts index pending result) := by
  unfold awaitedArm
  split
  · exact Program.Avoids.bind (landedArm_proofless config index pending _)
      fun _ => trivial
  · exact Program.Avoids.bind (saveRelayAttempt_proofless _ _ _)
      fun _ => trivial
  · split
    · exact Program.Avoids.bind (finishRelayAggregation_proofless config none)
        fun _ => trivial
    · exact Program.Avoids.bind (saveRelayAttempt_proofless _ _ _)
        fun _ => trivial
  · split
    · exact mark_proofless _ _ _ _ _
    · trivial

theorem awaitArm_proofless (config : SdkConfig Fr) (rebuilt : Bool)
    (attempts index : ℕ) (posted : StoredRelayAggregation)
    (submission : RelaySubmission) :
    Proofless (awaitArm config rebuilt attempts index posted submission) := by
  apply Program.Avoids.bind (saveRelayAttempt_proofless _ _ _)
  intro _
  apply Program.Avoids.bind (proofless_ask rfl)
  intro result
  exact awaitedArm_proofless config rebuilt attempts index _ result

theorem markLegacyCircuit_proofless (index : ℕ)
    (pending : StoredRelayAggregation) :
    Proofless (markLegacyCircuit index pending : SdkM Fr _) := by
  unfold markLegacyCircuit
  split
  · exact Program.Avoids.bind (saveRelayAttempt_proofless _ _ _)
      fun _ => trivial
  · trivial

theorem settleArm_proofless (config : SdkConfig Fr) (rebuilt : Bool)
    (attempts index : ℕ) (pending : StoredRelayAggregation) :
    Proofless (settleArm config rebuilt attempts index pending) := by
  apply Program.Avoids.bind (Program.avoids_require _ _)
  intro _
  apply Program.Avoids.bind (lookupArm_proofless rebuilt index pending)
  intro lookup
  split
  · trivial
  · exact awaitArm_proofless _ _ _ _ _ _
  · apply Program.Avoids.bind (submitArm_proofless _ _ _ _ _)
    intro submitted
    split
    · trivial
    · exact awaitArm_proofless _ _ _ _ _ _

/-! ## The rebuild -/

theorem checkReplacement_proofless
    (previous : Option StoredRelayAggregation)
    (request : PixAggregationRequest Fr) (endpoints : CurvyChainEndpoints)
    (inputs : List StoredNote) (allocations : List StoredAllocation) :
    Proofless (checkReplacement previous request endpoints inputs
      allocations) := by
  cases previous with
  | none => trivial
  | some previous =>
      apply Program.Avoids.bind (Program.avoids_require _ _)
      intro _
      apply Program.Avoids.bind (Program.avoids_require _ _)
      intro _
      induction allocations with
      | nil => trivial
      | cons record rest ih =>
          apply Program.Avoids.bind (proofless_fallible rfl)
          intro stored
          apply Program.Avoids.bind (Program.avoids_require (stored = _) _)
          intro _
          exact ih

theorem prepareRelayAggregation_proofless (config : SdkConfig Fr)
    (request : PixAggregationRequest Fr) (endpoints : CurvyChainEndpoints)
    (inputs : List (OwnedNote Fr)) (allocations : List StoredAllocation) :
    Proofless (prepareRelayAggregation config request endpoints inputs
      allocations) := by
  apply Program.Avoids.bind (proofless_ask rfl)
  intro current
  apply Program.Avoids.bind (checkReplacement_proofless _ _ _ _ _)
  intro _
  apply Program.Avoids.bind (Program.avoids_require _ _)
  intro _
  apply Program.Avoids.bind (proofless_ask rfl)
  intro intent
  exact proofless_commitLast _ _ _ _

theorem feeRecipient_proofless (config : SdkConfig Fr) :
    Proofless (feeRecipient config) := by
  unfold feeRecipient
  split
  · trivial
  · split
    · exact proofless_fallible rfl
    · trivial

/-- The one proof of a rebuild. -/
theorem rebuildRelayAggregation_once (config : SdkConfig Fr) (count : ℕ) :
    Program.Once (fun call => call.proves = true) count
      (rebuildRelayAggregation config) (fun _ _ => True) count := by
  apply Program.Avoids.seq_once (proofless_ask rfl)
  intro state
  split
  · trivial
  rename_i pending _
  apply Program.Avoids.seq_once (proofless_ofExcept _)
  intro inputs
  apply Program.Avoids.seq_once (preparedAllocations_proofless _ _)
  intro records
  apply Program.Avoids.seq_once (proofless_ofExcept _)
  intro allocations
  apply Program.Avoids.seq_once (proofless_fallible rfl)
  intro endpoints
  apply Program.Avoids.seq_once (Program.avoids_require _ _)
  intro _
  apply Program.Avoids.seq_once (proofless_fallible rfl)
  intro token
  apply Program.Avoids.seq_once (proofless_fallible rfl)
  intro relayFee
  apply Program.Avoids.seq_once (feeRecipient_proofless config)
  intro feeRecipient
  refine Program.obeys_call (fun _ => rfl) fun reply after _ => ?_
  apply Program.Obeys.mono
  · apply Program.Avoids.once
    apply Program.Avoids.bind (Program.avoids_raise _ _)
    intro request
    exact prepareRelayAggregation_proofless _ _ _ _ _
  · exact fun _ _ _ => trivial
  · exact fun _ _ h => h

end SdkM

/-! ## The loop -/

/-- An iteration asks for a proof at most once, and says so. -/
theorem relayTurn_once (config : SdkConfig Fr) (rebuilt : Bool) (count : ℕ) :
    Program.Once (fun call => call.proves = true) count
      (SdkM.relayTurn config (SdkM.rebuildRelayAggregation config) rebuilt)
      (fun result after => result.1 = false → after = count) count := by
  apply Program.Avoids.seq_once (proofless_ask rfl)
  intro state
  apply Program.Avoids.seq_once (Program.avoids_require _ _)
  intro _
  dsimp only
  split
  · exact fun _ => rfl
  rename_i pending _
  apply Program.Avoids.seq_once (proofless_fallible rfl)
  intro endpoints
  apply Program.Avoids.seq_once (Program.avoids_require _ _)
  intro _
  apply Program.Avoids.seq_once (SdkM.relayWinnerFrom_proofless config 0 _)
  intro winner
  split
  · apply Program.Avoids.seq_once (SdkM.confirmWinner_proofless config _ _)
    intro _
    apply Program.Avoids.seq_once
      (SdkM.finishRelayAggregation_proofless config _)
    exact fun _ _ => rfl
  · apply Program.Avoids.seq_once (SdkM.markLegacyCircuit_proofless _ _)
    intro marked
    split
    · apply Program.Avoids.seq_once (Program.avoids_require _ _)
      intro _
      apply Program.Obeys.seq (SdkM.rebuildRelayAggregation_once config count)
        fun _ _ h => h
      rintro _ _ _ ⟨⟩
    · apply Program.Avoids.seq_once (SdkM.settleArm_proofless _ _ _ _ _)
      exact fun _ _ => rfl

/-- An iteration over an attempt just proved asks for no proof. -/
theorem relayTurn_renewed {world : SdkWorld Fr} (hrenewed : Renewed world)
    (config : SdkConfig Fr) (rebuilt : Bool) :
    (SdkM.relayTurn config (SdkM.rebuildRelayAggregation config)
      rebuilt).Obeys sdkEnvironment
      (fun _ call => ¬ call.proves = true) (fun _ _ => True)
      (fun _ _ => True) world := by
  obtain ⟨pending, hfresh, hlast⟩ := hrenewed
  refine Program.obeys_call (by simp [SdkCall.proves]) ?_
  rintro state after ⟨hstate, hafter⟩
  change (state : SdkState) = world.memory at hstate
  change after = world at hafter
  rw [hafter]
  subst hstate
  apply Program.Avoids.guarded
  apply Program.Avoids.bind (Program.avoids_require _ _)
  intro _
  dsimp only
  rw [hlast]
  apply Program.Avoids.bind (proofless_fallible rfl)
  intro endpoints
  apply Program.Avoids.bind (Program.avoids_require _ _)
  intro _
  apply Program.Avoids.bind (SdkM.relayWinnerFrom_proofless config 0 _)
  intro winner
  split
  · apply Program.Avoids.bind (SdkM.confirmWinner_proofless config _ _)
    intro _
    apply Program.Avoids.bind (SdkM.finishRelayAggregation_proofless config _)
    exact fun _ => trivial
  · have hmarked : (SdkM.markLegacyCircuit
        (world.memory.relayAggregations.length - 1) pending :
          SdkM Fr StoredRelayAggregation) = .pure pending := by
      unfold SdkM.markLegacyCircuit
      rw [if_neg fun hlegacy => hfresh.circuit hlegacy.1]
      rfl
    rw [hmarked]
    dsimp only [Program.bind_eq, Program.bind]
    rw [if_neg (by simp [hfresh.unmarked])]
    exact Program.Avoids.bind (SdkM.settleArm_proofless _ _ _ _ _)
      fun _ => trivial

section

variable [DecidableEq Fr] {config : SdkConfig Fr} {world : SdkWorld Fr}

omit [DecidableEq Fr] in
/-- Proofs are counted as they are asked for. -/
theorem tally_proofsAsked {before after : SdkWorld Fr} {call : SdkCall Fr}
    {reply : call.Reply} (henv : sdkEnvironment before call reply after) :
    Program.tally (fun call => call.proves = true)
      (proofsAsked before.history) call reply (proofsAsked after.history) := by
  obtain ⟨_, rfl⟩ := henv
  unfold Program.tally
  cases call with
  | buildPixAggregation inputs allocations relayFee feeRecipient =>
      exact List.countP_cons_of_pos rfl
  | saveUpdate update next allocations remove =>
      cases (reply : Except String Unit) <;> rfl
  | resetStore next =>
      cases (reply : Except String Unit) <;> rfl
  | allocation reader id =>
      rcases (reply : Except String (Option StoredAllocation)) with
        _ | _ | _ <;> rfl
  | _ => rfl

/-- No call of the kind is made but at the count of the start. -/
abbrev ProvesOnce (count : ℕ) (before : SdkWorld Fr) (call : SdkCall Fr) :
    Prop :=
  call.proves = true → proofsAsked before.history = count

/-- After a replacement one iteration is left, which proves nothing. -/
theorem relayLoop_renewed (hphase : world.phase = .settled)
    {ids : List PixAddressId} (hnames : Names ids world)
    (hrenewed : Renewed world) (fuel count : ℕ) :
    (SdkM.relayLoop config (SdkM.rebuildRelayAggregation config) (fuel + 1)
      true).Obeys sdkEnvironment (ProvesOnce count) (fun _ _ => True)
      (fun _ _ => True) world := by
  have hturn : Obeyed config False
      (SdkM.relayTurn config (SdkM.rebuildRelayAggregation config) true)
      (Iterated true ids world) (fun _ after => Halted after) world :=
    relayTurn_obeys hphase hnames fun _ => hrenewed
  have hboth := hturn.and (relayTurn_renewed hrenewed config true)
  have hguarded : ∀ (before : SdkWorld Fr) (call : SdkCall Fr),
      Guard config False before call ∧ ¬ call.proves = true →
        ProvesOnce count before call :=
    fun _ _ h hproves => absurd hproves h.2
  apply Program.Obeys.seq (hboth.widen hguarded) fun _ _ _ => trivial
  rintro ⟨flag, turn⟩ after ⟨hiterated, _⟩
  cases turn with
  | proceed outcome => trivial
  | restart => cases hiterated.1

theorem relayLoop_once {fuel count : ℕ} {ids : List PixAddressId}
    (hphase : world.phase = .settled) (hnames : Names ids world)
    (hfuel : rank world + 2 ≤ fuel)
    (hcount : proofsAsked world.history = count) :
    (SdkM.relayLoop config (SdkM.rebuildRelayAggregation config) fuel
      false).Obeys sdkEnvironment (ProvesOnce count) (fun _ _ => True)
      (fun _ _ => True) world := by
  induction fuel generalizing world with
  | zero => omega
  | succ fuel ih =>
      have hturn : Obeyed config False
          (SdkM.relayTurn config (SdkM.rebuildRelayAggregation config) false)
          (Iterated false ids world) (fun _ after => Halted after) world :=
        relayTurn_obeys hphase hnames (by simp)
      have hview : ∀ (before : SdkWorld Fr) (call : SdkCall Fr)
          (reply : call.Reply) (after : SdkWorld Fr),
          sdkEnvironment before call reply after →
            Program.tally (fun call => call.proves = true)
              (proofsAsked before.history) call reply
              (proofsAsked after.history) :=
        fun _ _ _ _ henv => tally_proofsAsked henv
      have htally := relayTurn_once config false count
      rw [← hcount] at htally
      have hboth := hturn.and (Program.Obeys.refine hview htally)
      rw [hcount] at hboth
      have hguarded := hboth.widen fun _ _ h => h.2
      apply Program.Obeys.seq hguarded fun _ _ _ => trivial
      rintro ⟨flag, turn⟩ after ⟨hiterated, hasked⟩
      cases turn with
      | proceed outcome => trivial
      | restart =>
          rcases hiterated.2 with ⟨rfl, hadvanced⟩ | ⟨rfl, hmoved, hafter⟩
          · have hrank := hadvanced.advanced
            apply ih hadvanced.phase hadvanced.names
            · omega
            · exact hasked rfl
          · obtain ⟨fuel, rfl⟩ : ∃ rest, fuel = rest + 1 :=
              Nat.exists_eq_succ_of_ne_zero (by omega)
            exact relayLoop_renewed hmoved.phase hmoved.names hafter fuel count

/-- No loop of the program runs out of its iterations, whatever the
replies. -/
abbrev Finishes (program : SdkM Fr α) (world : SdkWorld Fr) : Prop :=
  program.Obeys sdkEnvironment (fun _ _ => True) (fun _ _ => True)
    (fun _ _ => True) world

/-- The settling loop ends within its iterations, and asks for proofs at one
count only. -/
theorem reconcileRelayAggregation_once (hphase : world.phase = .settled) :
    (SdkM.reconcileRelayAggregation config).Obeys sdkEnvironment
      (ProvesOnce (proofsAsked world.history)) (fun _ _ => True)
      (fun _ _ => True) world := by
  refine Program.obeys_call (by simp [ProvesOnce, SdkCall.proves]) ?_
  rintro state after ⟨hstate, hafter⟩
  change (state : SdkState) = world.memory at hstate
  change after = world at hafter
  rw [hafter]
  subst hstate
  apply relayLoop_once hphase (Names.all world) _ rfl
  have hrank := rank_le world
  omega

theorem reconcileRelayAggregation_finishes (hphase : world.phase = .settled) :
    Finishes (SdkM.reconcileRelayAggregation config) world :=
  (reconcileRelayAggregation_once hphase).widen fun _ _ _ => trivial

/-- One invocation asks for one proof at most. -/
theorem reconcileRelayAggregation_proofs (hphase : world.phase = .settled)
    {outcome : Outcome SdkError (Option SdkM.RelayAggregationOutcome)}
    {after : SdkWorld Fr}
    (hruns : (SdkM.reconcileRelayAggregation config).Runs sdkEnvironment world
      outcome after) :
    proofsAsked after.history ≤ proofsAsked world.history + 1 := by
  have hview : ∀ (before : SdkWorld Fr) (call : SdkCall Fr)
      (reply : call.Reply) (after : SdkWorld Fr),
      sdkEnvironment before call reply after →
        Program.tally (fun call => call.proves = true)
          (proofsAsked before.history) call reply
          (proofsAsked after.history) :=
    fun _ _ _ _ henv => tally_proofsAsked henv
  exact hruns.tally_le hview (reconcileRelayAggregation_once hphase)

end

end HoprStrategy.Curvy
