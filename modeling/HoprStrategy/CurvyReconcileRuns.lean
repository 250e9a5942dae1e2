import HoprStrategy.CurvyDurability
import HoprStrategy.CurvyReconcile

/-!
# Operations which wait for the reconciliation

`ensure_reconciled` keeps the check in a once cell which all operations of a
pool share.  The first part is about any endpoint and any stores: whoever is
let through, or told to wait, is so for the entries of one check.  The second
part is about an endpoint which says what is the case, or fails to answer: an
operation is let through only where the deployment accounts for what the stores
hold, and no check which begins once it does has an operation wait.
-/

namespace HoprStrategy.Curvy.Reconciliation

open Library SdkM

variable {Fr World : Type}

/-- The operations of a pool which wait for the check, and whether it has
passed. -/
abbrev Gate (Fr World : Type) : Type :=
  OnceCell (PoolCall Fr) PoolCall.Reply Refund.CurvyDepositPoolError Unit World

def Gate.closed (world : World) : Gate Fr World := ⟨none, world, []⟩

/-! ## Any endpoint -/

/-- Whom the gate lets through, and whom it refuses, by what was logged. -/
structure Guarded (config : SdkConfig Fr) (Later : Gate Fr World → Prop)
    (log : World → List (PoolEntry Fr)) (start : World)
    (gate : Gate Fr World) : Prop where
  letThrough : Caller.answered (.ok ()) ∈ gate.callers →
    (∃ check, check <:+ log gate.world ∧
      (reconcile config).Traces check (.ok ()) ∧ Passed config check) ∧
      ∀ later, Later later → later.value = some () ∧ later.Quiet ∧
        log later.world = log gate.world
  refused : Caller.answered (.error .reconciliationPending) ∈ gate.callers →
    ∃ check, check <:+: log gate.world ∧
      (reconcile config).Traces check (.error .reconciliationPending) ∧
      Contradicted config check
  alone : ∀ (first second : ℕ) (rest other : PoolM Fr Unit),
    gate.callers[first]? = some (.running rest) →
    gate.callers[second]? = some (.running other) → first = second
  onlyRead : ∀ entry ∈ log gate.world,
    entry ∈ log start ∨ Reads entry.request

variable {config : SdkConfig Fr}
  {env : Environment (PoolCall Fr) PoolCall.Reply World}
  {drift : World → World → Prop} {log : World → List (PoolEntry Fr)}
  {start : World} {gate : Gate Fr World}

theorem gate_traced (hlogs : OnceCell.Logs env drift log)
    (hreaches : OnceCell.Reaches env drift (· = reconcile config)
      (Gate.closed start) gate) :
    gate.Traced (· = reconcile config) Reads log start := by
  apply OnceCell.traced hlogs ?_ hreaches
  rintro _ rfl
  exact reconcile_reads config

/-- Whoever is let through is so for one check, the last one. -/
theorem letThrough_passed
    (htraced : gate.Traced (· = reconcile config) Reads log start)
    (hanswered : Caller.answered (.ok ()) ∈ gate.callers) :
    gate.Settled () ∧ ∃ check, check <:+ log gate.world ∧
      (reconcile config).Traces check (.ok ()) ∧ Passed config check := by
  have hvalue : gate.value = some () := by
    cases hcell : gate.value with
    | none => exact absurd hanswered (htraced.empty hcell ())
    | some value => rfl
  obtain ⟨hsettled, _, check, rfl, hsuffix, htraces⟩ :=
    htraced.filled () hvalue
  exact ⟨hsettled, check, hsuffix, htraces, (reconcile_traces htraces).1 rfl⟩

theorem refused_contradicted
    (htraced : gate.Traced (· = reconcile config) Reads log start)
    (hanswered : Caller.answered (.error .reconciliationPending) ∈
      gate.callers) :
    ∃ check, check <:+: log gate.world ∧
      (reconcile config).Traces check (.error .reconciliationPending) ∧
      Contradicted config check := by
  obtain ⟨_, check, rfl, hwithin, htraces⟩ := htraced.failed _ hanswered
  exact ⟨check, hwithin, htraces, (reconcile_traces htraces).2 rfl⟩

/-! ## An endpoint which tells the truth -/

/-- The deployment as the index and the chain show it. -/
structure Deployment (Fr : Type) where
  head : ℕ
  knows : String → Bool
  status : Fr → ℕ
  endpoints : CurvyChainEndpoints

/-- What the stores of a pool hold. -/
structure StoredState where
  cursors : CurvyEventKind → Option CurvyCursorText
  noteIds : List String
  bridge : SdkState

namespace Deployment

def Tells (deployment : Deployment Fr) : SdkEntry Fr → Prop
  | ⟨.client, reply⟩ => reply = .ok deployment.endpoints
  | ⟨.noteStatus noteId, reply⟩ => reply = .ok (deployment.status noteId)
  | _ => False

/-- The deployment has come at least as far as the stores, and knows what they
hold. -/
structure AccountsFor (config : SdkConfig Fr) (deployment : Deployment Fr)
    (stored : StoredState) : Prop where
  cursors : ∀ kind position, stored.cursors kind = some position →
    ∃ block, cursorComponent position.block "block" = .ok block ∧
      block ≤ deployment.head
  notes : ∀ noteId ∈ stored.noteIds, deployment.knows noteId = true
  bridge : Consistent config deployment.Tells stored.bridge

/-- Blocks and notes are only ever added, and a note stays on chain. -/
structure Grows (before after : Deployment Fr) : Prop where
  head : before.head ≤ after.head
  knows : ∀ noteId, before.knows noteId = true → after.knows noteId = true
  present : ∀ noteId, before.status noteId ≠ 0 → after.status noteId ≠ 0
  onChain : ∀ noteId, OnChain (before.status noteId) →
    OnChain (after.status noteId)
  endpoints : after.endpoints = before.endpoints

theorem Grows.refl (deployment : Deployment Fr) :
    deployment.Grows deployment where
  head := le_rfl
  knows := fun _ h => h
  present := fun _ h => h
  onChain := fun _ h => h
  endpoints := rfl

theorem Grows.trans {first second third : Deployment Fr}
    (hfirst : first.Grows second) (hsecond : second.Grows third) :
    first.Grows third where
  head := hfirst.head.trans hsecond.head
  knows := fun noteId h => hsecond.knows noteId (hfirst.knows noteId h)
  present := fun noteId h => hsecond.present noteId (hfirst.present noteId h)
  onChain := fun noteId h => hsecond.onChain noteId (hfirst.onChain noteId h)
  endpoints := hsecond.endpoints.trans hfirst.endpoints

end Deployment

/-- The entry says what is the case, or that there was no answer. -/
def Told (deployment : Deployment Fr) (stored : StoredState) :
    PoolEntry Fr → Prop
  | ⟨.indexedHead, .ok head⟩ => head = deployment.head
  | ⟨.cursor kind, .ok found⟩ => found = stored.cursors kind
  | ⟨.ownedNoteIds, .ok noteIds⟩ => noteIds = stored.noteIds
  | ⟨.noteKnown noteId, .ok known⟩ => known = deployment.knows noteId
  | ⟨.adapter .readState, state⟩ => state = stored.bridge
  | ⟨.adapter .client, .ok endpoints⟩ => endpoints = deployment.endpoints
  | ⟨.adapter (.noteStatus noteId), .ok status⟩ =>
      status = deployment.status noteId
  | _ => True

/-- An entry, and the deployment as it was then. -/
abbrev DatedEntry (Fr : Type) : Type := Deployment Fr × PoolEntry Fr

/-- A deployment, the stores of a pool, and what was asked so far. -/
structure EndpointWorld (Fr : Type) where
  deployment : Deployment Fr
  stored : StoredState
  log : List (DatedEntry Fr)

namespace EndpointWorld

def entries (world : EndpointWorld Fr) : List (PoolEntry Fr) :=
  world.log.map Prod.snd

def truthful : Environment (PoolCall Fr) PoolCall.Reply (EndpointWorld Fr) :=
  fun world request reply after =>
    Told world.deployment world.stored ⟨request, reply⟩ ∧
    after = { world with
      log := world.log ++ [(world.deployment, ⟨request, reply⟩)] }

def growing (world after : EndpointWorld Fr) : Prop :=
  ∃ deployment, world.deployment.Grows deployment ∧
    after = { world with deployment := deployment }

theorem truthful_logs :
    OnceCell.Logs (@truthful Fr) growing EndpointWorld.entries where
  ask := by
    rintro world request reply _ ⟨_, rfl⟩
    exact List.map_append
  pass := by
    rintro world _ ⟨deployment, _, rfl⟩
    rfl

end EndpointWorld

/-! ## What the truth of the entries says -/

section

variable {config : SdkConfig Fr} {entries : List (PoolEntry Fr)}
  {deployment : Deployment Fr} {stored : StoredState}

/-- A status which was told of a note is the one of the deployment. -/
theorem seen_iff {holds : ℕ → Prop} {note : StoredNote} :
    Seen config deployment.Tells holds note ↔
      ∃ owned, note.toOwned config.codec = .ok owned ∧
        holds (deployment.status (config.codec.noteId owned)) := by
  constructor
  · rintro ⟨owned, status, howned, hholds, htold⟩
    have hstatus : (.ok status : Except String ℕ) =
        .ok (deployment.status (config.codec.noteId owned)) := htold
    cases hstatus
    exact ⟨owned, howned, hholds⟩
  · rintro ⟨owned, howned, hholds⟩
    exact ⟨owned, _, howned, hholds, rfl⟩

/-- A deployment which has grown since the check accounts for what passed
it. -/
theorem Passed.accountsFor (hpassed : Passed config entries)
    (htold : ∀ entry ∈ entries, ∃ earlier : Deployment Fr,
      earlier.Grows deployment ∧ Told earlier stored entry) :
    deployment.AccountsFor config stored where
  cursors := by
    intro kind position hposition
    obtain ⟨head, hhead, hbehind⟩ := hpassed.cursors
    obtain ⟨found, hread, hblock⟩ := hbehind kind
    obtain ⟨_, hgrows, htruth⟩ := htold _ hhead
    obtain ⟨_, _, hcursor⟩ := htold _ hread
    have heq : found = stored.cursors kind := hcursor
    obtain ⟨block, hcomponent, hle⟩ := hblock position (heq.trans hposition)
    have hnow : head ≤ deployment.head := by
      rw [show head = _ from htruth]
      exact hgrows.head
    exact ⟨block, hcomponent, hle.trans hnow⟩
  notes := by
    intro noteId hnote
    obtain ⟨noteIds, hread, hknown⟩ := hpassed.notes
    obtain ⟨_, _, hids⟩ := htold _ hread
    have heq : noteIds = stored.noteIds := hids
    obtain ⟨_, hgrows, htruth⟩ := htold _ (hknown noteId (heq ▸ hnote))
    exact hgrows.knows noteId (show true = _ from htruth).symm
  bridge := by
    obtain ⟨state, hread, hconsistent⟩ := hpassed.adapter
    obtain ⟨_, _, hstate⟩ := htold _ hread
    have heq : state = stored.bridge := hstate
    rw [← heq]
    refine hconsistent.of_seen ?_ ?_ ?_
    · intro endpoints hentry
      obtain ⟨earlier, hgrows, htruth⟩ := htold _ hentry
      have hplace : endpoints = earlier.endpoints := htruth
      exact congrArg Except.ok (hplace.trans hgrows.endpoints.symm)
    · rintro _ ⟨note, status, hnote, hholds, hentry⟩
      obtain ⟨earlier, hgrows, htruth⟩ := htold _ hentry
      have hstatus : status = earlier.status (config.codec.noteId note) :=
        htruth
      exact seen_iff.mpr ⟨note, hnote, hgrows.onChain _ (hstatus ▸ hholds)⟩
    · rintro _ ⟨note, status, hnote, hholds, hentry⟩
      obtain ⟨earlier, hgrows, htruth⟩ := htold _ hentry
      have hstatus : status = earlier.status (config.codec.noteId note) :=
        htruth
      exact seen_iff.mpr ⟨note, hnote, hgrows.present _ (hstatus ▸ hholds)⟩

section

variable (htold : ∀ entry ∈ entries, ∃ later : Deployment Fr,
  deployment.Grows later ∧ Told later stored entry)

include htold

/-- A status that was told later keeps what the deployment had already. -/
theorem status_of_told {noteId : Fr} {status : ℕ}
    (hentry : ofAdapter ⟨.noteStatus noteId, .ok status⟩ ∈ entries) :
    (deployment.status noteId ≠ 0 → status ≠ 0) ∧
      (OnChain (deployment.status noteId) → OnChain status) := by
  obtain ⟨later, hgrows, htruth⟩ := htold _ hentry
  have hstatus : status = later.status noteId := htruth
  rw [hstatus]
  exact ⟨hgrows.present noteId, hgrows.onChain noteId⟩

theorem NotesMissed.not_seen {notes : List StoredNote}
    (hmissed : NotesMissed config (fun entry => ofAdapter entry ∈ entries)
      notes) : ¬ NotesSeen config deployment.Tells notes := by
  rintro ⟨hnonempty, hseen⟩
  rcases hmissed with hnil | ⟨missed, hmissing, note, status, hnote, hfails,
    hentry⟩
  · exact hnonempty hnil
  · obtain ⟨found, hfound, hholds⟩ := seen_iff.mp (hseen missed hmissing)
    rw [hnote] at hfound
    cases hfound
    exact hfails ((status_of_told htold hentry).2 hholds)

/-- A deployment which accounts for the stores is never contradicted. -/
theorem Contradicted.not_accountsFor
    (hcontradicted : Contradicted config entries) :
    ¬ deployment.AccountsFor config stored := by
  intro haccounts
  cases hcontradicted with
  | @ahead head kind hhead hahead =>
      obtain ⟨position, block, hread, hblock, hlt⟩ := hahead
      obtain ⟨later, hgrows, htruth⟩ := htold _ hhead
      obtain ⟨_, _, hcursor⟩ := htold _ hread
      have hposition : some position = stored.cursors kind := hcursor
      obtain ⟨number, hnumber, hle⟩ :=
        haccounts.cursors kind position hposition.symm
      rw [hblock] at hnumber
      cases hnumber
      have hnow : head = later.head := htruth
      have hgrown := hgrows.head
      omega
  | @unknown noteIds noteId hnotes hnote hunknown =>
      obtain ⟨_, _, hids⟩ := htold _ hnotes
      have heq : noteIds = stored.noteIds := hids
      obtain ⟨later, hgrows, htruth⟩ := htold _ hunknown
      have hknows := hgrows.knows noteId (haccounts.notes noteId (heq ▸ hnote))
      have hknown : false = later.knows noteId := htruth
      rw [hknows] at hknown
      cases hknown
  | @adapter state hstate hinconsistent =>
      obtain ⟨_, _, hread⟩ := htold _ hstate
      have heq : state = stored.bridge := hread
      have hbridge := heq ▸ haccounts.bridge
      cases hinconsistent with
      | @misplaced attempt endpoints hattempt hentry helsewhere =>
          obtain ⟨there, hplace, hhere⟩ := hbridge.placed attempt hattempt
          obtain ⟨later, hgrows, htruth⟩ := htold _ hentry
          have hsame : endpoints = later.endpoints := htruth
          have hthere : (.ok there : Except ClientFailure _) =
              .ok deployment.endpoints := hplace
          cases hthere
          rw [hsame, hgrows.endpoints, hhere] at helsewhere
          cases helsewhere
      | unknown hattempts hinputs houtputs =>
          rcases hbridge.spent _ _ hattempts with
            hseen | ⟨attempt, hattempt, hattempted, hseen⟩
          · exact hinputs.not_seen htold hseen
          · exact (houtputs attempt hattempt hattempted).not_seen htold hseen
      | absent hstored hseen =>
          obtain ⟨note, status, hnote, hzero, hentry⟩ := hseen
          obtain ⟨found, hfound, hholds⟩ :=
            seen_iff.mp (hbridge.unspent _ hstored)
          rw [hnote] at hfound
          cases hfound
          exact (status_of_told htold hentry).1 hholds hzero

end

end

/-! ## Every run -/

/-- The stores stay as they were, the deployment grows from entry to entry,
and every entry was true when it was logged. -/
structure Truthful (start : EndpointWorld Fr) (since : List (DatedEntry Fr))
    (world : EndpointWorld Fr) : Prop where
  stored : world.stored = start.stored
  log : world.log = start.log ++ since
  grows : start.deployment.Grows world.deployment
  told : ∀ dated ∈ since, Told dated.1 start.stored dated.2
  began : ∀ dated ∈ since, start.deployment.Grows dated.1
  came : ∀ dated ∈ since, dated.1.Grows world.deployment
  ordered : since.Pairwise fun dated later => dated.1.Grows later.1

theorem Truthful.refl (start : EndpointWorld Fr) : Truthful start [] start where
  stored := rfl
  log := (List.append_nil _).symm
  grows := .refl _
  told := by simp
  began := by simp
  came := by simp
  ordered := .nil

theorem Truthful.ask {start world after : EndpointWorld Fr}
    {since : List (DatedEntry Fr)} {request : PoolCall Fr}
    {reply : request.Reply} (htruthful : Truthful start since world)
    (henv : EndpointWorld.truthful world request reply after) :
    Truthful start (since ++ [(world.deployment, ⟨request, reply⟩)])
      after := by
  obtain ⟨htells, rfl⟩ := henv
  rw [htruthful.stored] at htells
  constructor
  case stored => exact htruthful.stored
  case log =>
    rw [htruthful.log]
    exact List.append_assoc _ _ _
  case grows => exact htruthful.grows
  case told =>
    exact List.forall_mem_append.mpr
      ⟨htruthful.told, List.forall_mem_singleton.mpr htells⟩
  case began =>
    exact List.forall_mem_append.mpr
      ⟨htruthful.began, List.forall_mem_singleton.mpr htruthful.grows⟩
  case came =>
    exact List.forall_mem_append.mpr
      ⟨htruthful.came, List.forall_mem_singleton.mpr (.refl _)⟩
  case ordered =>
    refine List.pairwise_append.mpr
      ⟨htruthful.ordered, List.pairwise_singleton _ _, ?_⟩
    intro dated hdated later hlater
    rw [List.mem_singleton.mp hlater]
    exact htruthful.came dated hdated

theorem Truthful.pass {start world after : EndpointWorld Fr}
    {since : List (DatedEntry Fr)} (htruthful : Truthful start since world)
    (hdrift : EndpointWorld.growing world after) :
    Truthful start since after := by
  obtain ⟨deployment, hgrows, rfl⟩ := hdrift
  exact
    { htruthful with
      grows := htruthful.grows.trans hgrows
      came := fun dated hdated => (htruthful.came dated hdated).trans hgrows }

theorem Truthful.reaches {config : SdkConfig Fr}
    {gate later : Gate Fr (EndpointWorld Fr)}
    (hreaches : OnceCell.Reaches EndpointWorld.truthful EndpointWorld.growing
      (· = reconcile config) gate later) :
    ∃ since, Truthful gate.world since later.world := by
  refine @OnceCell.always _ _ _ _ _ _ _ _ _ _
    (fun world => ∃ since, Truthful gate.world since world) hreaches ?_ ?_
    ⟨[], .refl _⟩
  · rintro world request reply after ⟨since, htruthful⟩ henv
    exact ⟨_, htruthful.ask henv⟩
  · rintro world after ⟨since, htruthful⟩ hdrift
    exact ⟨since, htruthful.pass hdrift⟩

/-- A check which had an operation wait began while the deployment did not
account for the stores. -/
theorem Truthful.not_accountsFor {config : SdkConfig Fr}
    {start world : EndpointWorld Fr} {since check : List (DatedEntry Fr)}
    {deployment : Deployment Fr} (htruthful : Truthful start since world)
    (hwithin : check <:+: since)
    (hgrows : ∀ dated ∈ check, deployment.Grows dated.1)
    (hcontradicted : Contradicted config (check.map Prod.snd)) :
    ¬ deployment.AccountsFor config start.stored := by
  apply hcontradicted.not_accountsFor
  intro entry hentry
  obtain ⟨dated, hdated, rfl⟩ := List.mem_map.mp hentry
  exact ⟨dated.1, hgrows dated hdated,
    htruthful.told dated (hwithin.subset hdated)⟩

/-! ## An index which catches up -/

def stoppedAt : CurvyCursorText := .new 5 0 0 0

/-- Block 5 was read, one owned note is recorded, and one is to be
committed. -/
def stoppedState : StoredState where
  cursors
    | .pending => some stoppedAt
    | .committed => none
  noteIds := ["0x01"]
  bridge := pendingState

def deploymentAt (head : ℕ) : Deployment (Fin 10) where
  head := head
  knows _ := true
  status _ := 2
  endpoints := digitEndpoints

def reopened : EndpointWorld (Fin 10) := ⟨deploymentAt 4, stoppedState, []⟩

/-- The entries, all of them asked while the head was the block. -/
def datedAt (head : ℕ) (entries : List (PoolEntry (Fin 10))) :
    List (DatedEntry (Fin 10)) :=
  entries.map (deploymentAt head, ·)

def behindEntries : List (PoolEntry (Fin 10)) :=
  [⟨.indexedHead, .ok 4⟩, ⟨.cursor .pending, .ok (some stoppedAt)⟩]

def caughtUpEntries : List (PoolEntry (Fin 10)) :=
  [⟨.indexedHead, .ok 7⟩, ⟨.cursor .pending, .ok (some stoppedAt)⟩,
    ⟨.cursor .committed, .ok none⟩, ⟨.ownedNoteIds, .ok ["0x01"]⟩,
    ⟨.noteKnown "0x01", .ok true⟩, ⟨.adapter .readState, pendingState⟩,
    ⟨.adapter .client, .ok digitEndpoints⟩,
    ⟨.adapter (.noteStatus (digit 1)), .ok 2⟩]

theorem stoppedAt_block : cursorComponent stoppedAt.block "block" = .ok 5 := by
  decide +kernel

theorem behind_traces : (reconcile (digitConfig .relayer)).Traces
    behindEntries (.error .reconciliationPending) := by
  refine .call (.call ?_)
  dsimp only [Program.raise, Program.bind_eq, Program.bind]
  rw [stoppedAt_block]
  exact .throw _

theorem caughtUp_traces : (reconcile (digitConfig .relayer)).Traces
    caughtUpEntries (.ok ()) := by
  refine .call (.call ?_)
  dsimp only [Program.raise, Program.bind_eq, Program.bind]
  rw [stoppedAt_block]
  refine .call (.call (.call (.call ?_)))
  exact .call (.call (.pure ()))

/-- One operation was refused, and waits no more; the next one is let
through. -/
def refusedGate : Gate (Fin 10) (EndpointWorld (Fin 10)) :=
  (Gate.closed reopened).answered (.error .reconciliationPending)
    { reopened with log := datedAt 4 behindEntries }

def caughtUp : EndpointWorld (Fin 10) :=
  ⟨deploymentAt 7, stoppedState, datedAt 4 behindEntries⟩

def caughtUpGate : Gate (Fin 10) (EndpointWorld (Fin 10)) :=
  OnceCell.answered { refusedGate with world := caughtUp } (.ok ())
    { caughtUp with
      log := datedAt 4 behindEntries ++ datedAt 7 caughtUpEntries }

theorem reaches_caughtUpGate : OnceCell.Reaches EndpointWorld.truthful
    EndpointWorld.growing (· = reconcile (digitConfig .relayer))
    (Gate.closed reopened) caughtUpGate := by
  have hclosed : (Gate.closed reopened : Gate (Fin 10) _).Quiet := by
    simp [OnceCell.Quiet, Gate.closed]
  have hrefused : OnceCell.Reaches EndpointWorld.truthful
      EndpointWorld.growing (· = reconcile (digitConfig .relayer))
      (Gate.closed reopened) refusedGate := by
    refine OnceCell.reaches_answered ?_ rfl hclosed behind_traces ?_
    · rfl
    · exact ⟨_, ⟨rfl, rfl⟩, _, ⟨rfl, rfl⟩, rfl⟩
  have hgrows : EndpointWorld.growing refusedGate.world caughtUp := by
    refine ⟨deploymentAt 7, ⟨by decide, fun _ h => h, fun _ h => h,
      fun _ h => h, rfl⟩, rfl⟩
  refine (hrefused.tail (.pass hgrows)).trans ?_
  refine OnceCell.reaches_answered ?_ rfl hclosed.answered caughtUp_traces ?_
  · rfl
  · exact ⟨_, ⟨rfl, rfl⟩, _, ⟨rfl, rfl⟩, _, ⟨rfl, rfl⟩, _, ⟨rfl, rfl⟩, _,
      ⟨rfl, rfl⟩, _, ⟨rfl, rfl⟩, _, ⟨rfl, rfl⟩, _, ⟨rfl, rfl⟩, rfl⟩

theorem answered_caughtUpGate :
    Caller.answered (.ok ()) ∈ caughtUpGate.callers :=
  List.mem_append_right _ List.mem_cons_self

/-! ## The gate of a pool -/

/-- An operation is let through only after one unbroken check in which the
endpoint accounted for everything the stores were read to hold, and nothing is
asked after it.  An operation is told to wait only because a check met a
contradiction.  One check runs at a time, and a check only reads. -/
theorem reconciledOnce (hlogs : OnceCell.Logs env drift log)
    (hreaches : OnceCell.Reaches env drift (· = reconcile config)
      (Gate.closed start) gate) :
    Guarded config
      (OnceCell.Reaches env drift (· = reconcile config) gate) log start
      gate := by
  have htraced := gate_traced hlogs hreaches
  constructor
  case letThrough =>
    intro hanswered
    obtain ⟨hsettled, hpassed⟩ := letThrough_passed htraced hanswered
    refine ⟨hpassed, fun later hlater => ?_⟩
    obtain ⟨hstays, hlog⟩ := hlogs.reaches hsettled hlater
    exact ⟨hstays.value_eq, hstays.quiet, hlog⟩
  case refused => exact refused_contradicted htraced
  case alone => exact htraced.alone
  case onlyRead => exact htraced.asked

theorem reconciledOnce_caughtUp :
    ∃ check, check <:+ behindEntries ++ caughtUpEntries ∧
      (reconcile (digitConfig .relayer)).Traces check (.ok ()) ∧
      Passed (digitConfig .relayer) check :=
  ((reconciledOnce EndpointWorld.truthful_logs
    reaches_caughtUpGate).letThrough answered_caughtUpGate).1

/-- Whom the gate of a truthful endpoint lets through, and whom it has wait, by
what the deployment accounts for. -/
structure TruthfullyGuarded (config : SdkConfig Fr) (stored : StoredState)
    (Later : Gate Fr (EndpointWorld Fr) → Prop)
    (gate : Gate Fr (EndpointWorld Fr)) : Prop where
  letThrough : Caller.answered (.ok ()) ∈ gate.callers →
    gate.world.deployment.AccountsFor config stored
  refused : Caller.answered (.error .reconciliationPending) ∈ gate.callers →
    ∃ first rest, first :: rest <:+: gate.world.log ∧
      (reconcile config).Traces ((first :: rest).map Prod.snd)
        (.error .reconciliationPending) ∧
      ¬ first.1.AccountsFor config stored
  caughtUp : gate.Quiet →
    gate.world.deployment.AccountsFor config stored →
    ∀ later, Later later → ∀ index : ℕ,
      later.callers[index]? =
        some (.answered (.error .reconciliationPending)) →
      gate.callers[index]? =
        some (.answered (.error .reconciliationPending))

/-- An operation is let through only where the deployment accounts for what
the stores hold.  A check has an operation wait only if it began while the
deployment did not, and once the deployment does, no operation is told to wait
but by a check which was already running. -/
theorem reconciledTruthfully {config : SdkConfig Fr}
    {start : EndpointWorld Fr} {gate : Gate Fr (EndpointWorld Fr)}
    (hfresh : start.log = [])
    (hreaches : OnceCell.Reaches EndpointWorld.truthful EndpointWorld.growing
      (· = reconcile config) (Gate.closed start) gate) :
    TruthfullyGuarded config start.stored
      (OnceCell.Reaches EndpointWorld.truthful EndpointWorld.growing
        (· = reconcile config) gate) gate := by
  obtain ⟨since, htruthful⟩ := Truthful.reaches hreaches
  have hlog : gate.world.log = since := by
    rw [htruthful.log, Gate.closed, hfresh, List.nil_append]
  have htraced := gate_traced EndpointWorld.truthful_logs hreaches
  constructor
  case letThrough =>
    intro hanswered
    obtain ⟨_, check, hsuffix, _, hpassed⟩ :=
      letThrough_passed htraced hanswered
    apply hpassed.accountsFor
    intro entry hentry
    obtain ⟨dated, hdated, rfl⟩ :=
      List.mem_map.mp (hsuffix.subset hentry)
    rw [hlog] at hdated
    exact ⟨dated.1, htruthful.came dated hdated,
      htruthful.told dated hdated⟩
  case refused =>
    intro hanswered
    obtain ⟨check, hwithin, htraces, hcontradicted⟩ :=
      refused_contradicted htraced hanswered
    obtain ⟨dated, hdated, rfl⟩ := List.infix_map_iff.mp hwithin
    cases dated with
    | nil => cases htraces
    | cons first rest =>
        refine ⟨first, rest, hdated, htraces, ?_⟩
        rw [hlog] at hdated
        refine htruthful.not_accountsFor hdated ?_ hcontradicted
        have hordered := htruthful.ordered.sublist hdated.sublist
        exact List.forall_mem_cons.mpr
          ⟨.refl _, (List.pairwise_cons.mp hordered).1⟩
  case caughtUp =>
    intro hquiet haccounts later hlater index hcaller
    obtain ⟨after, hafter⟩ := Truthful.reaches hlater
    have hstored : gate.world.stored = start.stored := htruthful.stored
    rcases OnceCell.failed_since EndpointWorld.truthful_logs
        (by rintro _ rfl; exact reconcile_reads config) hreaches hquiet hlater
        hcaller with
      hbefore | ⟨added, check, hadded, hwithin, _, rfl, htraces⟩
    · exact hbefore
    · have hsince : added = after.map Prod.snd := by
        rw [EndpointWorld.entries, hafter.log, List.map_append] at hadded
        exact (List.append_cancel_left hadded).symm
      rw [hsince] at hwithin
      obtain ⟨dated, hdated, rfl⟩ := List.infix_map_iff.mp hwithin
      have hcontradicted := (reconcile_traces htraces).2 rfl
      rw [← hstored] at haccounts
      refine absurd haccounts (hafter.not_accountsFor hdated ?_ hcontradicted)
      exact fun entry hentry => hafter.began entry (hdated.subset hentry)

/-- The first operation came while the head was behind, the second one once it
had caught up. -/
theorem reconciledTruthfully_caughtUp :
    caughtUpGate.world.deployment.AccountsFor (digitConfig .relayer)
        stoppedState ∧
      ∃ first rest, first :: rest <:+: caughtUpGate.world.log ∧
        (reconcile (digitConfig .relayer)).Traces
          ((first :: rest).map Prod.snd) (.error .reconciliationPending) ∧
        ¬ first.1.AccountsFor (digitConfig .relayer) stoppedState := by
  have hguarded := reconciledTruthfully rfl reaches_caughtUpGate
  exact ⟨hguarded.letThrough answered_caughtUpGate,
    hguarded.refused (List.mem_append_left _ List.mem_cons_self)⟩

end HoprStrategy.Curvy.Reconciliation
