import HoprStrategy.CurvyRefundClasses
import HoprStrategy.CurvyRelayAggregation
import HoprStrategy.Library.CallTrace
import HoprStrategy.Library.ProgramTranslation
import HoprStrategy.RecoveryRecords

/-!
# Reconciliation of a Curvy pool

A pool which is opened over durable state of an earlier run must not spend
before the endpoint can account for that state.  The check compares the
index's head with the stored cursors, asks for every owned note, and has the
SDK bridge compare its journals and notes with the chain.  `ensure_reconciled`
keeps the check in a once cell: operations wait for it, a failed check leaves
the cell empty, and the next operation checks again.

Every answer of the check rests on the entries of one check, whatever the
endpoint replied and whatever else wrote to the stores meanwhile.
-/

namespace HoprStrategy.Curvy

open Library

/-! ## The bridge's own check -/

namespace SdkM

variable {Fr : Type}

def anyOutputsKnown (config : SdkConfig Fr) :
    List StoredRelayAggregation → SdkM Fr Bool
  | [] => return false
  | attempt :: rest => do
      if ← relayOutputsKnown config attempt then return true
      else anyOutputsKnown config rest

/-- The attempt was made on another deployment. -/
def elsewhere (endpoints : CurvyChainEndpoints)
    (attempt : StoredRelayAggregation) : Bool :=
  attempt.chainId ≠ endpoints.chainId ||
    !eqIgnoreAsciiCase attempt.aggregator endpoints.aggregator

/-- A pending spend is of this deployment if its inputs or the outputs of some
attempt are known. -/
def attemptsConsistent (config : SdkConfig Fr) :
    List StoredRelayAggregation → SdkM Fr Bool
  | [] => return true
  | first :: rest => do
      let endpoints ← client
      if (first :: rest).any (elsewhere endpoints) then return false
      else if ← notesKnown config first.inputs then return true
      else anyOutputsKnown config (first :: rest)

def notesPresent (config : SdkConfig Fr) : List StoredNote → SdkM Fr Bool
  | [] => return true
  | stored :: rest => do
      let note ← ofExcept (stored.toOwned config.codec)
      let status ← noteStatus (config.codec.noteId note)
      if status = 0 then return false else notesPresent config rest

/-- The funding which no attempt spends, and the notes to be committed. -/
def unspentNotes (state : SdkState) : List StoredNote :=
  (state.funding.filter fun note =>
    !state.relayAggregations.any fun attempt => attempt.inputs.contains note) ++
      state.pending

def notesConsistent (config : SdkConfig Fr) (notes : List StoredNote) :
    SdkM Fr Bool :=
  if notes.isEmpty then .pure true
  else do
    let _ ← client
    notesPresent config notes

def chainStateIsConsistent (config : SdkConfig Fr) : SdkM Fr Bool := do
  let state ← readState
  if ← attemptsConsistent config state.relayAggregations then
    notesConsistent config (unspentNotes state)
  else return false

end SdkM

namespace Reconciliation

open SdkM

variable {Fr : Type}

/-! ## The pool's check -/

inductive PoolCall (Fr : Type) where
  | indexedHead
  | cursor (kind : CurvyEventKind)
  | ownedNoteIds
  | noteKnown (noteId : String)
  | adapter (request : SdkCall Fr)

def PoolCall.Reply : PoolCall Fr → Type
  | .indexedHead => Except String ℕ
  | .cursor _ => Except CurvyStateError (Option CurvyCursorText)
  | .ownedNoteIds => Except CurvyStateError (List String)
  | .noteKnown _ => Except String Bool
  | .adapter request => request.Reply

abbrev PoolM (Fr : Type) : Type → Type :=
  Program (PoolCall Fr) PoolCall.Reply Refund.CurvyDepositPoolError

def indexedHead : PoolM Fr ℕ := .call .indexedHead (.raise .indexer)

def cursor (kind : CurvyEventKind) : PoolM Fr (Option CurvyCursorText) :=
  .call (.cursor kind) (.raise .state)

def ownedNoteIds : PoolM Fr (List String) :=
  .call .ownedNoteIds (.raise .state)

def noteKnown (noteId : String) : PoolM Fr Bool :=
  .call (.noteKnown noteId) (.raise .indexer)

/-- What the bridge runs, as a part of the pool. -/
def adapter {α : Type} (program : SdkM Fr α) : PoolM Fr α :=
  program.translate (fun request => .call (.adapter request) .pure)
    fun error => .adapter (.sdk error)

/-- Whether a cursor of one of the kinds is past the head. -/
def cursorsAhead (head : ℕ) : List CurvyEventKind → PoolM Fr Bool
  | [] => return false
  | kind :: rest => do
      match ← cursor kind with
      | none => cursorsAhead head rest
      | some found =>
          let block ← .raise .state (cursorComponent found.block "block")
          if head < block then return true else cursorsAhead head rest

def someUnknown : List String → PoolM Fr Bool
  | [] => return false
  | noteId :: rest => do
      if ← noteKnown noteId then someUnknown rest else return true

def stateNeedsSync (config : SdkConfig Fr) : PoolM Fr Bool := do
  let head ← indexedHead
  if ← cursorsAhead head [.pending, .committed] then return true
  else
    let noteIds ← ownedNoteIds
    if ← someUnknown noteIds then return true
    else
      let consistent ← adapter (chainStateIsConsistent config)
      return !consistent

/-- What `ensure_reconciled` runs where the check has not passed yet. -/
def reconcile (config : SdkConfig Fr) : PoolM Fr Unit := do
  if ← stateNeedsSync config then .throw .reconciliationPending
  else return ()

/-! ## What the replies say -/

abbrev SdkEntry (Fr : Type) : Type := CallEntry (SdkCall Fr) SdkCall.Reply

abbrev PoolEntry (Fr : Type) : Type := CallEntry (PoolCall Fr) PoolCall.Reply

def ofAdapter (entry : SdkEntry Fr) : PoolEntry Fr :=
  ⟨.adapter entry.request, entry.reply⟩

section

variable (config : SdkConfig Fr) (told : SdkEntry Fr → Prop)

/-- The chain gave a status of the note. -/
def Seen (holds : ℕ → Prop) (stored : StoredNote) : Prop :=
  ∃ note status, stored.toOwned config.codec = .ok note ∧ holds status ∧
    told ⟨.noteStatus (config.codec.noteId note), .ok status⟩

def OnChain (status : ℕ) : Prop := status = 1 ∨ status = 2

/-- There are notes, and the chain knows them all. -/
def NotesSeen (notes : List StoredNote) : Prop :=
  notes ≠ [] ∧ ∀ stored ∈ notes, Seen config told OnChain stored

def NotesMissed (notes : List StoredNote) : Prop :=
  notes = [] ∨ ∃ stored ∈ notes,
    Seen config told (fun status => ¬ OnChain status) stored

/-- The chain accounts for everything the bridge has in its state. -/
structure Consistent (state : SdkState) : Prop where
  placed : ∀ attempt ∈ state.relayAggregations, ∃ endpoints,
    told ⟨.client, .ok endpoints⟩ ∧ elsewhere endpoints attempt = false
  spent : ∀ first rest, state.relayAggregations = first :: rest →
    NotesSeen config told first.inputs ∨
      ∃ attempt ∈ state.relayAggregations, attempt.attempted = true ∧
        NotesSeen config told attempt.emitted
  unspent : ∀ stored ∈ unspentNotes state,
    Seen config told (fun status => status ≠ 0) stored

/-- The chain contradicts the bridge's state. -/
inductive Inconsistent (state : SdkState) : Prop
  | misplaced {attempt : StoredRelayAggregation}
      {endpoints : CurvyChainEndpoints}
      (hattempt : attempt ∈ state.relayAggregations)
      (htold : told ⟨.client, .ok endpoints⟩)
      (helsewhere : elsewhere endpoints attempt = true)
  | unknown {first : StoredRelayAggregation}
      {rest : List StoredRelayAggregation}
      (hattempts : state.relayAggregations = first :: rest)
      (hinputs : NotesMissed config told first.inputs)
      (houtputs : ∀ attempt ∈ state.relayAggregations,
        attempt.attempted = true → NotesMissed config told attempt.emitted)
  | absent {stored : StoredNote} (hstored : stored ∈ unspentNotes state)
      (hseen : Seen config told (fun status => status = 0) stored)

end

/-- The cursor of the kind was read, and it is not past the head. -/
def Behind (head : ℕ) (entries : List (PoolEntry Fr))
    (kind : CurvyEventKind) : Prop :=
  ∃ found, (⟨.cursor kind, .ok found⟩ : PoolEntry Fr) ∈ entries ∧
    ∀ position, found = some position → ∃ block,
      cursorComponent position.block "block" = .ok block ∧ block ≤ head

/-- The cursor of the kind was read, and it is past the head. -/
def Ahead (head : ℕ) (entries : List (PoolEntry Fr))
    (kind : CurvyEventKind) : Prop :=
  ∃ position block,
    (⟨.cursor kind, .ok (some position)⟩ : PoolEntry Fr) ∈ entries ∧
    cursorComponent position.block "block" = .ok block ∧ head < block

/-- The endpoint accounts for what the stores were read to hold. -/
structure Passed (config : SdkConfig Fr) (entries : List (PoolEntry Fr)) :
    Prop where
  cursors : ∃ head, (⟨.indexedHead, .ok head⟩ : PoolEntry Fr) ∈ entries ∧
    ∀ kind, Behind head entries kind
  notes : ∃ noteIds,
    (⟨.ownedNoteIds, .ok noteIds⟩ : PoolEntry Fr) ∈ entries ∧
    ∀ noteId ∈ noteIds, (⟨.noteKnown noteId, .ok true⟩ : PoolEntry Fr) ∈
      entries
  adapter : ∃ state, ofAdapter ⟨.readState, state⟩ ∈ entries ∧
    Consistent config (fun entry => ofAdapter entry ∈ entries) state

/-- The endpoint contradicts something the stores were read to hold. -/
inductive Contradicted (config : SdkConfig Fr)
    (entries : List (PoolEntry Fr)) : Prop
  | ahead {head : ℕ} {kind : CurvyEventKind}
      (hhead : (⟨.indexedHead, .ok head⟩ : PoolEntry Fr) ∈ entries)
      (hcursor : Ahead head entries kind)
  | unknown {noteIds : List String} {noteId : String}
      (hnotes : (⟨.ownedNoteIds, .ok noteIds⟩ : PoolEntry Fr) ∈ entries)
      (hnote : noteId ∈ noteIds)
      (hunknown : (⟨.noteKnown noteId, .ok false⟩ : PoolEntry Fr) ∈ entries)
  | adapter {state : SdkState}
      (hstate : ofAdapter ⟨.readState, state⟩ ∈ entries)
      (hinconsistent : Inconsistent config
        (fun entry => ofAdapter entry ∈ entries) state)

/-! ## What an answer of the bridge rests on -/

/-- The answer is yes for the first reason, and no for the second one. -/
def Judged (yes no : Prop) : Bool → Prop
  | true => yes
  | false => no

section

variable {config : SdkConfig Fr} {entries : List (SdkEntry Fr)}
  {told wider : SdkEntry Fr → Prop} {answer : Bool}

theorem Judged.mono {yes no wideYes wideNo : Prop} {answer : Bool}
    (hjudged : Judged yes no answer) (hyes : yes → wideYes)
    (hno : no → wideNo) : Judged wideYes wideNo answer := by
  cases answer with
  | true => exact hyes hjudged
  | false => exact hno hjudged

theorem Seen.mono {holds : ℕ → Prop} {stored : StoredNote}
    (hseen : Seen config told holds stored)
    (hwider : ∀ entry, told entry → wider entry) :
    Seen config wider holds stored := by
  obtain ⟨note, status, hnote, hholds, htold⟩ := hseen
  exact ⟨note, status, hnote, hholds, hwider _ htold⟩

theorem NotesSeen.mono {notes : List StoredNote}
    (hseen : NotesSeen config told notes)
    (hwider : ∀ entry, told entry → wider entry) :
    NotesSeen config wider notes :=
  ⟨hseen.1, fun stored hstored => (hseen.2 stored hstored).mono hwider⟩

theorem NotesMissed.mono {notes : List StoredNote}
    (hmissed : NotesMissed config told notes)
    (hwider : ∀ entry, told entry → wider entry) :
    NotesMissed config wider notes := by
  rcases hmissed with hnil | ⟨stored, hstored, hseen⟩
  · exact Or.inl hnil
  · exact Or.inr ⟨stored, hstored, hseen.mono hwider⟩

theorem client_traces {endpoints : CurvyChainEndpoints}
    (htraces : (client : SdkM Fr CurvyChainEndpoints).Traces entries
      (.ok endpoints)) : entries = [⟨.client, .ok endpoints⟩] := by
  obtain ⟨reply, rfl, rfl⟩ := htraces.of_request
  rfl

/-- One note was read, and its status was given. -/
theorem noteStatus_traces {stored : StoredNote} {β : Type}
    {next : ℕ → SdkM Fr β} {result : β}
    (htraces : ((ofExcept (stored.toOwned config.codec)).bind fun note =>
      (noteStatus (config.codec.noteId note)).bind next).Traces entries
        (.ok result)) :
    ∃ note status rest, stored.toOwned config.codec = .ok note ∧
      entries = ⟨.noteStatus (config.codec.noteId note), .ok status⟩ :: rest ∧
      (next status).Traces rest (.ok result) := by
  obtain ⟨_, _, note, rfl, hstored, hread⟩ := htraces.of_bind_ok
  obtain ⟨rfl, hnote⟩ := hstored.of_raise_ok
  obtain ⟨_, rest, status, rfl, hstatus, hnext⟩ := hread.of_bind_ok
  obtain ⟨reply, rfl, rfl⟩ := hstatus.of_request
  exact ⟨note, status, rest, hnote, rfl, hnext⟩

/-- One more note was read, and its status is as it should be. -/
theorem Judged.note_cons {holds fails : ℕ → Prop} {stored : StoredNote}
    {rest : List StoredNote} {entry : SdkEntry Fr} {answer : Bool}
    (hjudged : Judged
      (∀ stored ∈ rest, Seen config (· ∈ entries) holds stored)
      (∃ stored ∈ rest, Seen config (· ∈ entries) fails stored) answer)
    (hseen : Seen config (· ∈ entry :: entries) holds stored) :
    Judged
      (∀ other ∈ stored :: rest,
        Seen config (· ∈ entry :: entries) holds other)
      (∃ other ∈ stored :: rest,
        Seen config (· ∈ entry :: entries) fails other) answer := by
  have hwider : ∀ other ∈ entries, other ∈ entry :: entries :=
    fun other hother => List.mem_cons_of_mem _ hother
  refine hjudged.mono ?_ ?_
  · intro hrest
    exact List.forall_mem_cons.mpr ⟨hseen, fun other hother =>
      (hrest other hother).mono hwider⟩
  · rintro ⟨other, hother, hfails⟩
    exact ⟨other, List.mem_cons_of_mem _ hother, hfails.mono hwider⟩

theorem notesKnownFrom_traces {notes : List StoredNote}
    (htraces : (notesKnownFrom config notes).Traces entries (.ok answer)) :
    Judged (∀ stored ∈ notes, Seen config (· ∈ entries) OnChain stored)
      (∃ stored ∈ notes,
        Seen config (· ∈ entries) (fun status => ¬ OnChain status) stored)
      answer := by
  induction notes generalizing entries with
  | nil =>
      obtain ⟨_, hanswer⟩ := htraces.of_pure
      cases hanswer
      simp [Judged]
  | cons stored rest ih =>
      obtain ⟨note, status, more, hnote, rfl, hnext⟩ :=
        noteStatus_traces htraces
      split at hnext
      · rename_i hstatus
        exact (ih hnext).note_cons ⟨note, status, hnote, hstatus,
          List.mem_cons_self⟩
      · rename_i hstatus
        obtain ⟨_, hanswer⟩ := hnext.of_pure
        cases hanswer
        exact ⟨stored, List.mem_cons_self, note, status, hnote, hstatus,
          List.mem_cons_self⟩

theorem notesKnown_traces {notes : List StoredNote}
    (htraces : (notesKnown config notes).Traces entries (.ok answer)) :
    Judged (NotesSeen config (· ∈ entries) notes)
      (NotesMissed config (· ∈ entries) notes) answer := by
  cases notes with
  | nil =>
      obtain ⟨_, hanswer⟩ := htraces.of_pure
      cases hanswer
      exact Or.inl rfl
  | cons stored rest =>
      obtain ⟨asked, more, endpoints, rfl, _, hnext⟩ := htraces.of_bind_ok
      have hwider : ∀ entry ∈ more, entry ∈ asked ++ more :=
        fun entry hentry => List.mem_append_right _ hentry
      refine (notesKnownFrom_traces hnext).mono ?_ ?_
      · intro hall
        exact ⟨List.cons_ne_nil _ _, fun other hother =>
          (hall other hother).mono hwider⟩
      · rintro ⟨other, hother, hseen⟩
        exact Or.inr ⟨other, hother, hseen.mono hwider⟩

theorem relayOutputsKnown_traces {attempt : StoredRelayAggregation}
    (htraces : (relayOutputsKnown config attempt).Traces entries
      (.ok answer)) :
    Judged (attempt.attempted = true ∧
        NotesSeen config (· ∈ entries) attempt.emitted)
      (attempt.attempted = true →
        NotesMissed config (· ∈ entries) attempt.emitted) answer := by
  unfold relayOutputsKnown at htraces
  split at htraces
  · rename_i hattempted
    exact (notesKnown_traces htraces).mono (fun hseen => ⟨hattempted, hseen⟩)
      fun hmissed _ => hmissed
  · rename_i hattempted
    obtain ⟨_, hanswer⟩ := htraces.of_pure
    cases hanswer
    exact fun h => absurd h hattempted

theorem anyOutputsKnown_traces {attempts : List StoredRelayAggregation}
    (htraces : (anyOutputsKnown config attempts).Traces entries
      (.ok answer)) :
    Judged (∃ attempt ∈ attempts, attempt.attempted = true ∧
        NotesSeen config (· ∈ entries) attempt.emitted)
      (∀ attempt ∈ attempts, attempt.attempted = true →
        NotesMissed config (· ∈ entries) attempt.emitted) answer := by
  induction attempts generalizing entries with
  | nil =>
      obtain ⟨_, hanswer⟩ := htraces.of_pure
      cases hanswer
      simp [Judged]
  | cons attempt rest ih =>
      obtain ⟨first, second, known, rfl, hknown, hnext⟩ := htraces.of_bind_ok
      have hfirst : ∀ entry ∈ first, entry ∈ first ++ second :=
        fun entry hentry => List.mem_append_left _ hentry
      have hsecond : ∀ entry ∈ second, entry ∈ first ++ second :=
        fun entry hentry => List.mem_append_right _ hentry
      have hjudged := relayOutputsKnown_traces hknown
      cases known with
      | true =>
          obtain ⟨_, hanswer⟩ := hnext.of_pure
          cases hanswer
          obtain ⟨hattempted, hseen⟩ := hjudged
          exact ⟨attempt, List.mem_cons_self, hattempted, hseen.mono hfirst⟩
      | false =>
          refine (ih hnext).mono ?_ ?_
          · rintro ⟨other, hother, hattempted, hseen⟩
            exact ⟨other, List.mem_cons_of_mem _ hother, hattempted,
              hseen.mono hsecond⟩
          · intro hmissed
            refine List.forall_mem_cons.mpr ⟨?_, ?_⟩
            · exact fun hattempted => (hjudged hattempted).mono hfirst
            · exact fun other hother hattempted =>
                (hmissed other hother hattempted).mono hsecond

theorem attemptsConsistent_traces {attempts : List StoredRelayAggregation}
    (htraces : (attemptsConsistent config attempts).Traces entries
      (.ok answer)) :
    Judged ((∀ attempt ∈ attempts, ∃ endpoints,
          (⟨.client, .ok endpoints⟩ : SdkEntry Fr) ∈ entries ∧
            elsewhere endpoints attempt = false) ∧
        ∀ first rest, attempts = first :: rest →
          NotesSeen config (· ∈ entries) first.inputs ∨
            ∃ attempt ∈ attempts, attempt.attempted = true ∧
              NotesSeen config (· ∈ entries) attempt.emitted)
      ((∃ attempt ∈ attempts, ∃ endpoints,
          (⟨.client, .ok endpoints⟩ : SdkEntry Fr) ∈ entries ∧
            elsewhere endpoints attempt = true) ∨
        ∃ first rest, attempts = first :: rest ∧
          NotesMissed config (· ∈ entries) first.inputs ∧
          ∀ attempt ∈ attempts, attempt.attempted = true →
            NotesMissed config (· ∈ entries) attempt.emitted) answer := by
  cases attempts with
  | nil =>
      obtain ⟨_, hanswer⟩ := htraces.of_pure
      cases hanswer
      simp [Judged]
  | cons first rest =>
      obtain ⟨_, more, endpoints, rfl, hclient, hnext⟩ := htraces.of_bind_ok
      cases client_traces hclient
      have hendpoints : (⟨.client, .ok endpoints⟩ : SdkEntry Fr) ∈
          [⟨.client, .ok endpoints⟩] ++ more := List.mem_cons_self
      split at hnext
      · rename_i hany
        obtain ⟨_, hanswer⟩ := hnext.of_pure
        cases hanswer
        obtain ⟨attempt, hattempt, helsewhere⟩ := List.any_eq_true.mp hany
        exact Or.inl ⟨attempt, hattempt, endpoints, hendpoints, helsewhere⟩
      · rename_i hany
        have hplaced : ∀ attempt ∈ first :: rest, ∃ endpoints',
            (⟨.client, .ok endpoints'⟩ : SdkEntry Fr) ∈
              [⟨.client, .ok endpoints⟩] ++ more ∧
              elsewhere endpoints' attempt = false := by
          intro attempt hattempt
          refine ⟨endpoints, hendpoints, ?_⟩
          rw [List.any_eq_true, not_exists] at hany
          simpa using fun h => hany attempt ⟨hattempt, h⟩
        obtain ⟨early, late, known, rfl, hknown, hlast⟩ := hnext.of_bind_ok
        have hearly : ∀ entry ∈ early, entry ∈
            ([⟨.client, .ok endpoints⟩] : List (SdkEntry Fr)) ++
              (early ++ late) := by
          intro entry hentry
          simp [hentry]
        have hlate : ∀ entry ∈ late, entry ∈
            ([⟨.client, .ok endpoints⟩] : List (SdkEntry Fr)) ++
              (early ++ late) := by
          intro entry hentry
          simp [hentry]
        have hinputs := notesKnown_traces hknown
        cases known with
        | true =>
            obtain ⟨_, hanswer⟩ := hlast.of_pure
            cases hanswer
            refine ⟨hplaced, ?_⟩
            rintro _ _ ⟨_⟩
            exact Or.inl (NotesSeen.mono hinputs hearly)
        | false =>
            refine (anyOutputsKnown_traces hlast).mono ?_ ?_
            · rintro ⟨attempt, hattempt, hattempted, hseen⟩
              refine ⟨hplaced, ?_⟩
              intro _ _ _
              exact Or.inr ⟨attempt, hattempt, hattempted, hseen.mono hlate⟩
            · intro hmissed
              exact Or.inr ⟨first, rest, rfl, NotesMissed.mono hinputs hearly,
                fun attempt hattempt hattempted =>
                  (hmissed attempt hattempt hattempted).mono hlate⟩

theorem notesPresent_traces {notes : List StoredNote}
    (htraces : (notesPresent config notes).Traces entries (.ok answer)) :
    Judged (∀ stored ∈ notes,
        Seen config (· ∈ entries) (fun status => status ≠ 0) stored)
      (∃ stored ∈ notes,
        Seen config (· ∈ entries) (fun status => status = 0) stored)
      answer := by
  induction notes generalizing entries with
  | nil =>
      obtain ⟨_, hanswer⟩ := htraces.of_pure
      cases hanswer
      simp [Judged]
  | cons stored rest ih =>
      obtain ⟨note, status, more, hnote, rfl, hnext⟩ :=
        noteStatus_traces htraces
      split at hnext
      · rename_i hstatus
        obtain ⟨_, hanswer⟩ := hnext.of_pure
        cases hanswer
        exact ⟨stored, List.mem_cons_self, note, status, hnote, hstatus,
          List.mem_cons_self⟩
      · rename_i hstatus
        exact (ih hnext).note_cons ⟨note, status, hnote, hstatus,
          List.mem_cons_self⟩

theorem notesConsistent_traces {notes : List StoredNote}
    (htraces : (notesConsistent config notes).Traces entries (.ok answer)) :
    Judged (∀ stored ∈ notes,
        Seen config (· ∈ entries) (fun status => status ≠ 0) stored)
      (∃ stored ∈ notes,
        Seen config (· ∈ entries) (fun status => status = 0) stored)
      answer := by
  unfold notesConsistent at htraces
  split at htraces
  · rename_i hempty
    obtain ⟨_, hanswer⟩ := htraces.of_pure
    cases hanswer
    rw [List.isEmpty_iff] at hempty
    simp [Judged, hempty]
  · obtain ⟨asked, more, endpoints, rfl, _, hnext⟩ := htraces.of_bind_ok
    have hwider : ∀ entry ∈ more, entry ∈ asked ++ more :=
      fun entry hentry => List.mem_append_right _ hentry
    refine (notesPresent_traces hnext).mono ?_ ?_
    · exact fun hall stored hstored => (hall stored hstored).mono hwider
    · rintro ⟨stored, hstored, hseen⟩
      exact ⟨stored, hstored, hseen.mono hwider⟩

/-- What is seen of the notes of a consistent state may be told
differently. -/
theorem Consistent.of_seen {state : SdkState}
    (hconsistent : Consistent config told state)
    (hclient : ∀ endpoints, told ⟨.client, .ok endpoints⟩ →
      wider ⟨.client, .ok endpoints⟩)
    (honChain : ∀ stored, Seen config told OnChain stored →
      Seen config wider OnChain stored)
    (hpresent : ∀ stored, Seen config told (fun status => status ≠ 0) stored →
      Seen config wider (fun status => status ≠ 0) stored) :
    Consistent config wider state where
  placed := by
    intro attempt hattempt
    obtain ⟨endpoints, htold, hplace⟩ := hconsistent.placed attempt hattempt
    exact ⟨endpoints, hclient _ htold, hplace⟩
  spent := by
    intro first rest hattempts
    rcases hconsistent.spent first rest hattempts with
      hseen | ⟨attempt, hattempt, hattempted, hseen⟩
    · exact Or.inl ⟨hseen.1, fun stored hstored =>
        honChain stored (hseen.2 stored hstored)⟩
    · exact Or.inr ⟨attempt, hattempt, hattempted, hseen.1,
        fun stored hstored => honChain stored (hseen.2 stored hstored)⟩
  unspent := fun stored hstored =>
    hpresent stored (hconsistent.unspent stored hstored)

theorem Consistent.mono {state : SdkState}
    (hconsistent : Consistent config told state)
    (hwider : ∀ entry, told entry → wider entry) :
    Consistent config wider state :=
  hconsistent.of_seen (fun _ htold => hwider _ htold)
    (fun _ hseen => hseen.mono hwider) fun _ hseen => hseen.mono hwider

theorem Inconsistent.mono {state : SdkState}
    (hinconsistent : Inconsistent config told state)
    (hwider : ∀ entry, told entry → wider entry) :
    Inconsistent config wider state := by
  cases hinconsistent with
  | misplaced hattempt htold helsewhere =>
      exact .misplaced hattempt (hwider _ htold) helsewhere
  | unknown hattempts hinputs houtputs =>
      exact .unknown hattempts (hinputs.mono hwider)
        fun attempt hattempt hattempted =>
          (houtputs attempt hattempt hattempted).mono hwider
  | absent hstored hseen => exact .absent hstored (hseen.mono hwider)

/-- The bridge answers by what it was told of the state which it read
first. -/
theorem chainStateIsConsistent_traces
    (htraces : (chainStateIsConsistent config).Traces entries (.ok answer)) :
    ∃ state, (⟨.readState, state⟩ : SdkEntry Fr) ∈ entries ∧
      Judged (Consistent config (· ∈ entries) state)
        (Inconsistent config (· ∈ entries) state) answer := by
  obtain ⟨read, more, state, rfl, hread, hnext⟩ := htraces.of_bind_ok
  obtain ⟨reply, rest, rfl, hstate⟩ := hread.of_ask
  obtain ⟨rfl, hstate⟩ := hstate.of_pure
  cases hstate
  obtain ⟨early, late, placed, rfl, hplaced, hlast⟩ := hnext.of_bind_ok
  refine ⟨state, List.mem_cons_self, ?_⟩
  have hearly : ∀ entry ∈ early, entry ∈
      ([⟨.readState, state⟩] : List (SdkEntry Fr)) ++ (early ++ late) := by
    intro entry hentry
    simp [hentry]
  have hlate : ∀ entry ∈ late, entry ∈
      ([⟨.readState, state⟩] : List (SdkEntry Fr)) ++ (early ++ late) := by
    intro entry hentry
    simp [hentry]
  have hattempts := attemptsConsistent_traces hplaced
  cases placed with
  | true =>
      obtain ⟨hplace, hspent⟩ := hattempts
      refine (notesConsistent_traces hlast).mono ?_ ?_
      · intro hunspent
        constructor
        · intro attempt hattempt
          obtain ⟨endpoints, htold, helsewhere⟩ := hplace attempt hattempt
          exact ⟨endpoints, hearly _ htold, helsewhere⟩
        · intro first rest hstate
          rcases hspent first rest hstate with
            hseen | ⟨attempt, hattempt, hattempted, hseen⟩
          · exact Or.inl (hseen.mono hearly)
          · exact Or.inr ⟨attempt, hattempt, hattempted, hseen.mono hearly⟩
        · exact fun stored hstored => (hunspent stored hstored).mono hlate
      · rintro ⟨stored, hstored, hseen⟩
        exact .absent hstored (hseen.mono hlate)
  | false =>
      obtain ⟨_, hanswer⟩ := hlast.of_pure
      cases hanswer
      rcases hattempts with ⟨attempt, hattempt, endpoints, htold, helsewhere⟩ |
        ⟨first, rest, hstate, hinputs, houtputs⟩
      · exact .misplaced hattempt (hearly _ htold) helsewhere
      · exact .unknown hstate (hinputs.mono hearly)
          fun attempt hattempt hattempted =>
            (houtputs attempt hattempt hattempted).mono hearly

end

/-! ## What an answer of the pool rests on -/

section

variable {config : SdkConfig Fr} {entries : List (PoolEntry Fr)}
  {answer : Bool}

theorem adapter_traces {α : Type} {program : SdkM Fr α} {value : α}
    (htraces : (adapter program).Traces entries (.ok value)) :
    ∃ asked, entries = asked.map ofAdapter ∧
      program.Traces asked (.ok value) := by
  induction program generalizing entries with
  | pure found =>
      obtain ⟨rfl, hvalue⟩ := htraces.of_pure
      cases hvalue
      exact ⟨[], rfl, .pure value⟩
  | throw error => cases htraces
  | call request rest ih =>
      obtain ⟨reply, more, rfl, hmore⟩ := htraces.of_ask
      obtain ⟨asked, rfl, hasked⟩ := ih reply hmore
      exact ⟨⟨request, reply⟩ :: asked, rfl, .call hasked⟩
  | outOfFuel => cases htraces

theorem cursor_traces {kind : CurvyEventKind}
    {found : Option CurvyCursorText}
    (htraces : (cursor kind : PoolM Fr _).Traces entries (.ok found)) :
    entries = [⟨.cursor kind, .ok found⟩] := by
  obtain ⟨reply, rfl, rfl⟩ := htraces.of_request
  rfl

theorem Behind.mono {head : ℕ} {kind : CurvyEventKind}
    {wider : List (PoolEntry Fr)} (hbehind : Behind head entries kind)
    (hwider : ∀ entry ∈ entries, entry ∈ wider) : Behind head wider kind := by
  obtain ⟨found, hread, hblock⟩ := hbehind
  exact ⟨found, hwider _ hread, hblock⟩

theorem Ahead.mono {head : ℕ} {kind : CurvyEventKind}
    {wider : List (PoolEntry Fr)} (hahead : Ahead head entries kind)
    (hwider : ∀ entry ∈ entries, entry ∈ wider) : Ahead head wider kind := by
  obtain ⟨position, block, hread, hblock⟩ := hahead
  exact ⟨position, block, hwider _ hread, hblock⟩

/-- One more cursor was read, and it is not past the head. -/
theorem Judged.cursor_cons {head : ℕ} {kind : CurvyEventKind}
    {rest : List CurvyEventKind} {wider : List (PoolEntry Fr)}
    (hjudged : Judged (∃ kind, Ahead head entries kind)
      (∀ kind ∈ rest, Behind head entries kind) answer)
    (hwider : ∀ entry ∈ entries, entry ∈ wider)
    (hbehind : Behind head wider kind) :
    Judged (∃ kind, Ahead head wider kind)
      (∀ other ∈ kind :: rest, Behind head wider other) answer := by
  refine hjudged.mono ?_ ?_
  · rintro ⟨other, hahead⟩
    exact ⟨other, hahead.mono hwider⟩
  · intro hrest
    exact List.forall_mem_cons.mpr ⟨hbehind, fun other hother =>
      (hrest other hother).mono hwider⟩

theorem cursorsAhead_traces {head : ℕ} {kinds : List CurvyEventKind}
    (htraces : (cursorsAhead head kinds).Traces entries (.ok answer)) :
    Judged (∃ kind, Ahead head entries kind)
      (∀ kind ∈ kinds, Behind head entries kind) answer := by
  induction kinds generalizing entries with
  | nil =>
      obtain ⟨_, hanswer⟩ := htraces.of_pure
      cases hanswer
      simp [Judged]
  | cons kind rest ih =>
      obtain ⟨_, more, found, rfl, hcursor, hnext⟩ := htraces.of_bind_ok
      cases cursor_traces hcursor
      have hread : (⟨.cursor kind, .ok found⟩ : PoolEntry Fr) ∈
          [⟨.cursor kind, .ok found⟩] ++ more := List.mem_cons_self
      have hwider : ∀ entry ∈ more, entry ∈
          ([⟨.cursor kind, .ok found⟩] : List (PoolEntry Fr)) ++ more :=
        fun entry hentry => List.mem_append_right _ hentry
      cases found with
      | none => exact (ih hnext).cursor_cons hwider ⟨none, hread, by simp⟩
      | some position =>
          obtain ⟨parsed, late, block, rfl, hparsed, hlast⟩ :=
            hnext.of_bind_ok
          obtain ⟨rfl, hblock⟩ := hparsed.of_raise_ok
          split at hlast
          · rename_i hahead
            obtain ⟨_, hanswer⟩ := hlast.of_pure
            cases hanswer
            exact ⟨kind, position, block, hread, hblock, hahead⟩
          · rename_i hbehind
            refine (ih hlast).cursor_cons hwider ⟨some position, hread, ?_⟩
            rintro _ ⟨_⟩
            exact ⟨block, hblock, not_lt.mp hbehind⟩

theorem someUnknown_traces {noteIds : List String}
    (htraces : (someUnknown noteIds).Traces entries (.ok answer)) :
    Judged
      (∃ noteId ∈ noteIds,
        (⟨.noteKnown noteId, .ok false⟩ : PoolEntry Fr) ∈ entries)
      (∀ noteId ∈ noteIds,
        (⟨.noteKnown noteId, .ok true⟩ : PoolEntry Fr) ∈ entries)
      answer := by
  induction noteIds generalizing entries with
  | nil =>
      obtain ⟨_, hanswer⟩ := htraces.of_pure
      cases hanswer
      simp [Judged]
  | cons noteId rest ih =>
      obtain ⟨_, more, known, rfl, hknown, hnext⟩ := htraces.of_bind_ok
      obtain ⟨reply, rfl, rfl⟩ := hknown.of_request
      cases known with
      | true =>
          refine (ih hnext).mono ?_ ?_
          · rintro ⟨other, hother, hentry⟩
            exact ⟨other, List.mem_cons_of_mem _ hother,
              List.mem_append_right _ hentry⟩
          · intro hrest
            exact List.forall_mem_cons.mpr ⟨List.mem_cons_self,
              fun other hother => List.mem_append_right _
                (hrest other hother)⟩
      | false =>
          obtain ⟨_, hanswer⟩ := hnext.of_pure
          cases hanswer
          exact ⟨noteId, List.mem_cons_self, List.mem_cons_self⟩

/-- A check which comes to an answer has a reason for it. -/
theorem stateNeedsSync_traces
    (htraces : (stateNeedsSync config).Traces entries (.ok answer)) :
    Judged (Contradicted config entries) (Passed config entries) answer := by
  obtain ⟨_, later, head, rfl, hhead, hnext⟩ := htraces.of_bind_ok
  obtain ⟨reply, rfl, rfl⟩ := hhead.of_request
  obtain ⟨first, second, ahead, rfl, hahead, hnotes⟩ := hnext.of_bind_ok
  have hread : (⟨.indexedHead, .ok head⟩ : PoolEntry Fr) ∈
      [⟨.indexedHead, .ok head⟩] ++ (first ++ second) := List.mem_cons_self
  have hfirst : ∀ entry ∈ first, entry ∈
      ([⟨.indexedHead, .ok head⟩] : List (PoolEntry Fr)) ++
        (first ++ second) := by
    intro entry hentry
    simp [hentry]
  have hcursors := cursorsAhead_traces hahead
  cases ahead with
  | true =>
      obtain ⟨_, hanswer⟩ := hnotes.of_pure
      cases hanswer
      obtain ⟨kind, hkind⟩ := hcursors
      exact .ahead hread (hkind.mono hfirst)
  | false =>
      obtain ⟨_, after, noteIds, rfl, hids, hknown⟩ := hnotes.of_bind_ok
      obtain ⟨reply, rfl, rfl⟩ := hids.of_request
      obtain ⟨asked, last, unknown, rfl, hunknown, hlast⟩ :=
        hknown.of_bind_ok
      have hsome := someUnknown_traces hunknown
      cases unknown with
      | true =>
          obtain ⟨_, hanswer⟩ := hlast.of_pure
          cases hanswer
          obtain ⟨noteId, hnote, hentry⟩ := hsome
          exact .unknown (by simp) hnote (by simp [hentry])
      | false =>
          obtain ⟨_, rest, consistent, rfl, hadapter, hend⟩ :=
            hlast.of_bind_ok
          obtain ⟨told, rfl, htold⟩ := adapter_traces hadapter
          obtain ⟨rfl, hanswer⟩ := hend.of_pure
          cases hanswer
          obtain ⟨state, hstate, hjudged⟩ :=
            chainStateIsConsistent_traces htold
          have hwider : ∀ entry ∈ told, ofAdapter entry ∈
              ([⟨.indexedHead, .ok head⟩] : List (PoolEntry Fr)) ++
                (first ++ ([⟨.ownedNoteIds, .ok noteIds⟩] ++
                  (asked ++ (told.map ofAdapter ++ [])))) := by
            intro entry hentry
            simp only [List.mem_append]
            exact Or.inr (Or.inr (Or.inr (Or.inr (Or.inl
              (List.mem_map_of_mem hentry)))))
          cases consistent with
          | true =>
              exact
                { cursors := ⟨head, hread, fun kind => (hcursors kind (by
                    cases kind <;> simp)).mono hfirst⟩
                  notes := ⟨noteIds, by simp, fun noteId hnote => by
                    simp [hsome noteId hnote]⟩
                  adapter := ⟨state, hwider _ hstate,
                    Consistent.mono hjudged hwider⟩ }
          | false =>
              exact .adapter (hwider _ hstate)
                (Inconsistent.mono hjudged hwider)

end

/-! ## The check only reads -/

def SdkReads : SdkCall Fr → Prop
  | .readState | .client | .noteStatus _ => True
  | _ => False

def Reads : PoolCall Fr → Prop
  | .adapter request => SdkReads request
  | _ => True

abbrev ReadsOnly {α : Type} (program : SdkM Fr α) : Prop :=
  program.Only SdkReads fun _ => True

theorem client_reads : ReadsOnly (client : SdkM Fr CurvyChainEndpoints) :=
  ⟨trivial, fun _ => Program.only_raise fun _ => trivial⟩

theorem noteStatus_reads (config : SdkConfig Fr) (stored : StoredNote)
    {β : Type} {next : ℕ → SdkM Fr β}
    (hnext : ∀ status, ReadsOnly (next status)) :
    ReadsOnly ((ofExcept (stored.toOwned config.codec)).bind fun note =>
      (noteStatus (config.codec.noteId note)).bind next) := by
  apply Program.Only.bind (Program.only_raise fun _ => trivial)
  intro note
  exact Program.Only.bind
    ⟨trivial, fun _ => Program.only_raise fun _ => trivial⟩ hnext

theorem notesKnown_reads (config : SdkConfig Fr) (notes : List StoredNote) :
    ReadsOnly (notesKnown config notes) := by
  have hfrom : ∀ notes : List StoredNote,
      ReadsOnly (notesKnownFrom config notes) := by
    intro notes
    induction notes with
    | nil => trivial
    | cons stored rest ih =>
        apply noteStatus_reads config stored
        intro status
        split
        · exact ih
        · trivial
  cases notes with
  | nil => trivial
  | cons stored rest => exact client_reads.bind fun _ => hfrom _

theorem anyOutputsKnown_reads (config : SdkConfig Fr)
    (attempts : List StoredRelayAggregation) :
    ReadsOnly (anyOutputsKnown config attempts) := by
  induction attempts with
  | nil => trivial
  | cons attempt rest ih =>
      refine Program.Only.bind ?_ fun known => ?_
      · unfold relayOutputsKnown
        split
        · exact notesKnown_reads config _
        · trivial
      · split
        · trivial
        · exact ih

theorem attemptsConsistent_reads (config : SdkConfig Fr)
    (attempts : List StoredRelayAggregation) :
    ReadsOnly (attemptsConsistent config attempts) := by
  cases attempts with
  | nil => trivial
  | cons first rest =>
      refine client_reads.bind fun endpoints => ?_
      split
      · trivial
      · refine (notesKnown_reads config _).bind fun known => ?_
        split
        · trivial
        · exact anyOutputsKnown_reads config _

theorem notesConsistent_reads (config : SdkConfig Fr)
    (notes : List StoredNote) : ReadsOnly (notesConsistent config notes) := by
  have hpresent : ∀ notes : List StoredNote,
      ReadsOnly (notesPresent config notes) := by
    intro notes
    induction notes with
    | nil => trivial
    | cons stored rest ih =>
        apply noteStatus_reads config stored
        intro status
        split
        · trivial
        · exact ih
  unfold notesConsistent
  split
  · trivial
  · exact client_reads.bind fun _ => hpresent notes

theorem chainStateIsConsistent_reads (config : SdkConfig Fr) :
    ReadsOnly (chainStateIsConsistent config) := by
  refine Program.Only.bind ⟨trivial, fun _ => trivial⟩ fun state => ?_
  refine (attemptsConsistent_reads config _).bind fun placed => ?_
  split
  · exact notesConsistent_reads config _
  · trivial

/-- What the check of the pool fails with, other than its answer. -/
abbrev Unpending (error : Refund.CurvyDepositPoolError) : Prop :=
  error ≠ .reconciliationPending

theorem adapter_reads {α : Type} {program : SdkM Fr α}
    (hreads : ReadsOnly program) :
    (adapter program).Only Reads Unpending := by
  induction program with
  | pure value => trivial
  | throw error => exact fun heq => by cases heq
  | call request rest ih =>
      exact ⟨hreads.1, fun reply => ih reply (hreads.2 reply)⟩
  | outOfFuel => trivial

theorem cursorsAhead_reads (head : ℕ) (kinds : List CurvyEventKind) :
    (cursorsAhead head kinds : PoolM Fr Bool).Only Reads Unpending := by
  induction kinds with
  | nil => trivial
  | cons kind rest ih =>
      refine Program.Only.bind
        ⟨trivial, fun _ => Program.only_raise (by simp)⟩ fun found => ?_
      split
      · exact ih
      · refine (Program.only_raise (by simp)).bind fun block => ?_
        split
        · trivial
        · exact ih

theorem someUnknown_reads (noteIds : List String) :
    (someUnknown noteIds : PoolM Fr Bool).Only Reads Unpending := by
  induction noteIds with
  | nil => trivial
  | cons noteId rest ih =>
      refine Program.Only.bind
        ⟨trivial, fun _ => Program.only_raise (by simp)⟩ fun known => ?_
      split
      · exact ih
      · trivial

theorem stateNeedsSync_reads (config : SdkConfig Fr) :
    (stateNeedsSync config).Only Reads Unpending := by
  refine Program.Only.bind
    ⟨trivial, fun _ => Program.only_raise (by simp)⟩ fun head => ?_
  refine (cursorsAhead_reads head _).bind fun ahead => ?_
  split
  · trivial
  · refine Program.Only.bind
      ⟨trivial, fun _ => Program.only_raise (by simp)⟩ fun noteIds => ?_
    refine (someUnknown_reads noteIds).bind fun unknown => ?_
    split
    · trivial
    · exact (adapter_reads (chainStateIsConsistent_reads config)).bind
        fun _ => trivial

theorem reconcile_reads (config : SdkConfig Fr) :
    (reconcile config).Only Reads fun _ => True := by
  refine Program.Only.bind ?_ fun needs => ?_
  · exact (stateNeedsSync_reads config).mono fun _ _ => trivial
  · split <;> trivial

/-- A check lets its caller through for a reason, and has it wait for one. -/
theorem reconcile_traces {config : SdkConfig Fr}
    {entries : List (PoolEntry Fr)}
    {result : Except Refund.CurvyDepositPoolError Unit}
    (htraces : (reconcile config).Traces entries result) :
    (result = .ok () → Passed config entries) ∧
      (result = .error .reconciliationPending →
        Contradicted config entries) := by
  rcases htraces.of_bind with ⟨first, second, needs, rfl, hneeds, hnext⟩ |
    ⟨error, rfl, herror⟩
  · have hjudged := stateNeedsSync_traces hneeds
    cases needs with
    | true =>
        cases hnext
        exact ⟨by simp, fun _ => by rwa [List.append_nil]⟩
    | false =>
        cases hnext
        exact ⟨fun _ => by rwa [List.append_nil], by simp⟩
  · refine ⟨by simp, ?_⟩
    rintro ⟨_⟩
    exact absurd rfl ((herror.only (stateNeedsSync_reads config)).2 _ rfl)

end Reconciliation

end HoprStrategy.Curvy
