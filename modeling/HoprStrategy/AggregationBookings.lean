import HoprStrategy.CurvyDurability
import Mathlib.Tactic

/-!
# The three bookings of an aggregation

An aggregation which landed is booked by `finishRelayAggregation`, by
`finishOperatorAggregation`, or, when an earlier version left it behind, by
`bookAmbiguous` inside `reconcileAmbiguousAllocation`.  The first two compute
the next state aside, save it with the completed records in one transaction and
then assign it.  The third one changes the locked state first, and it books the
change note without looking at its amount.
-/

namespace HoprStrategy.Curvy

open Library

variable {Fr : Type}

/-! ## What a booking is -/

/-- What each journal keeps of an attempt. -/
structure Booking where
  inputs : List StoredNote
  change : StoredNote
  emitted : List StoredNote
  allocationIds : List PixAddressId
  deriving DecidableEq

def StoredRelayAggregation.booking (attempt : StoredRelayAggregation) :
    Booking :=
  ⟨attempt.inputs, attempt.change, attempt.emitted, attempt.allocationIds⟩

def StoredOperatorAggregation.booking (attempt : StoredOperatorAggregation) :
    Booking :=
  ⟨attempt.inputs, attempt.change, attempt.emitted, attempt.allocationIds⟩

/-- The legacy aggregation, whose change note is `change`. -/
def SdkState.ambiguousBooking (state : SdkState) (change : StoredNote) :
    Booking :=
  ⟨state.ambiguousInputs, change, state.ambiguousEmitted,
    state.ambiguousAllocationIds⟩

inductive AggregationJournal where
  | relay
  | operator
  | ambiguous
  deriving DecidableEq

/-- The state without what the journal kept. -/
def SdkState.forget (state : SdkState) : AggregationJournal → SdkState
  | .relay => { state with relayAggregations := [] }
  | .operator => { state with operatorAggregations := [] }
  | .ambiguous =>
      { state with
        ambiguousAllocation := false
        ambiguousInputs := []
        ambiguousChange := none
        ambiguousEmitted := []
        ambiguousAllocationIds := [] }

/-- The inputs leave the funding, the change joins it, and the outputs are to
be committed. -/
def SdkState.booked (state : SdkState) (booking : Booking)
    (change : List StoredNote) : SdkState :=
  { state with
    funding := state.fundingAfter booking.inputs change
    pending := state.pending ++ booking.emitted }

def StoredAllocation.complete (record : StoredAllocation) :
    StoredAllocation :=
  { record with stage := .completed }

/-- The whole state change of a booking, in memory and on disk at once. -/
structure Books (config : SdkConfig Fr) (journal : AggregationJournal)
    (booking : Booking) (before after : SdkWorld Fr) : Prop where
  memory : ∃ change,
    SdkM.bookedChange config booking.change = .ok change ∧
      after.memory = (before.memory.booked booking change).forget journal
  disk : after.disk = after.memory
  completed : ∀ id, after.records.find id =
    if id ∈ booking.allocationIds then
      (before.records.find id).map StoredAllocation.complete
    else before.records.find id
  recorded : ∀ id ∈ booking.allocationIds, (before.records.find id).isSome

/-- Memory, disk and records are what they were. -/
structure Unmoved (before after : SdkWorld Fr) : Prop where
  memory : after.memory = before.memory
  disk : after.disk = before.disk
  records : after.records = before.records

/-- A run books everything, or it fails and leaves everything. -/
def BooksAtomically {α : Type} (config : SdkConfig Fr) (journal : AggregationJournal)
    (booking : Booking) (before : SdkWorld Fr) (outcome : Outcome SdkError α)
    (after : SdkWorld Fr) : Prop :=
  outcome.Satisfies (fun _ last => Books config journal booking before last)
    (fun _ last => Unmoved before last) after

/-! ## What the store answered -/

/-- A refused access to the store. -/
def SdkEvent.storeFailed : SdkEvent Fr → Bool
  | ⟨.saveUpdate _ _ _ _, reply⟩ => !(reply : Except String Unit).isOk
  | ⟨.allocation _ _, reply⟩ =>
      !(reply : Except String (Option StoredAllocation)).isOk
  | _ => false

def storeFailures (world : SdkWorld Fr) : ℕ :=
  world.history.countP SdkEvent.storeFailed

/-- The change note is worth something. -/
def WorthBooking (config : SdkConfig Fr) (change : StoredNote) : Prop :=
  ∃ note, change.toOwned config.codec = .ok note ∧
    config.codec.frToBiguint note.amount ≠ 0

/-- Every id has its record, and the store refused nothing during the run. -/
structure StoreServes (ids : List PixAddressId) (before after : SdkWorld Fr) :
    Prop where
  recorded : ∀ id ∈ ids, (before.records.find id).isSome
  answered : storeFailures after = storeFailures before

/-! ## The reads and the save of a booking -/

/-- Runs against every reply which agrees with the world. -/
abbrev Yields {α : Type} (program : SdkM Fr α)
    (post : α → SdkWorld Fr → Prop) (fail : SdkError → SdkWorld Fr → Prop)
    (world : SdkWorld Fr) : Prop :=
  program.Obeys sdkEnvironment (fun _ _ => True) post fail world

theorem Unmoved.refl (world : SdkWorld Fr) : Unmoved world world :=
  ⟨rfl, rfl, rfl⟩

theorem Unmoved.trans {first second third : SdkWorld Fr}
    (hfirst : Unmoved first second) (hsecond : Unmoved second third) :
    Unmoved first third where
  memory := hsecond.memory.trans hfirst.memory
  disk := hsecond.disk.trans hfirst.disk
  records := hsecond.records.trans hfirst.records

/-- A read of the records which did not get one. -/
def ReadFailed (ids : List PixAddressId) (before after : SdkWorld Fr) :
    Prop :=
  Unmoved before after ∧
    ((∃ id ∈ ids, before.records.find id = none) ∨
      storeFailures before < storeFailures after)

theorem preparedAllocations_yields (reader : RecordReader)
    (ids : List PixAddressId) (world : SdkWorld Fr) :
    Yields (SdkM.preparedAllocations reader ids)
      (fun records after => Unmoved world after ∧
        storeFailures after = storeFailures world ∧
        List.Forall₂ (fun id record => world.records.find id = some record)
          ids records)
      (fun _ after => ReadFailed ids world after) world := by
  induction ids generalizing world with
  | nil => exact ⟨Unmoved.refl world, rfl, List.Forall₂.nil⟩
  | cons id rest ih =>
      refine Program.obeys_call trivial ?_
      rintro reply after ⟨hpermits, rfl⟩
      rcases reply with error | _ | record
      · refine ⟨⟨rfl, rfl, rfl⟩, Or.inr ?_⟩
        simp [storeFailures, SdkWorld.after, SdkWorld.record,
          SdkWorld.stranded, SdkEvent.storeFailed, Except.isOk,
          Except.toBool]
      · refine ⟨⟨rfl, rfl, rfl⟩, Or.inl ⟨id, List.mem_cons_self, ?_⟩⟩
        rcases hpermits with h | ⟨error, h⟩
        · exact (Except.ok.inj h).symm
        · cases h
      · have hfind : world.records.find id = some record := by
          rcases hpermits with h | ⟨error, h⟩
          · exact (Except.ok.inj h).symm
          · cases h
        have hcount : storeFailures (world.after (.allocation reader id)
            (.ok (some record))) = storeFailures world := by
          simp [storeFailures, SdkWorld.after, SdkWorld.record,
            SdkEvent.storeFailed, Except.isOk, Except.toBool]
        have hmoved : Unmoved world (world.after (.allocation reader id)
            (.ok (some record))) := ⟨rfl, rfl, rfl⟩
        apply Program.Obeys.seq (ih _)
        · rintro error last ⟨hlast, hfailed⟩
          refine ⟨hmoved.trans hlast, ?_⟩
          rw [hmoved.records, hcount] at hfailed
          rcases hfailed with ⟨missing, hmissing, hnone⟩ | hmore
          · exact Or.inl ⟨missing, List.mem_cons_of_mem _ hmissing, hnone⟩
          · exact Or.inr hmore
        · rintro records last ⟨hlast, hsame, hrecords⟩
          rw [hmoved.records] at hrecords
          exact ⟨hmoved.trans hlast, hsame.trans hcount,
            List.Forall₂.cons hfind hrecords⟩

/-- The records which were read are those the table holds. -/
theorem find_of_read {table : AllocationTable} {ids : List PixAddressId}
    {records : List StoredAllocation}
    (hrecords : List.Forall₂ (fun id record => table.find id = some record)
      ids records) :
    records.map StoredAllocation.id = ids ∧
      ∀ record ∈ records, table.find record.id = some record := by
  induction hrecords with
  | nil => exact ⟨rfl, List.forall_mem_nil _⟩
  | cons hfind _ ih =>
      have hkeyed := table.keyed _ _ hfind
      rw [List.map_cons, ih.1, hkeyed]
      refine ⟨rfl, List.forall_mem_cons.mpr ⟨?_, ih.2⟩⟩
      rwa [hkeyed]

/-- The table with the records of the ids set to completed. -/
theorem update_completed_find {table : AllocationTable}
    {ids : List PixAddressId} {records : List StoredAllocation}
    (hrecords : List.Forall₂ (fun id record => table.find id = some record)
      ids records) (id : PixAddressId) :
    (table.update (records.map StoredAllocation.complete) []).find id =
      if id ∈ ids then (table.find id).map StoredAllocation.complete
      else table.find id := by
  obtain ⟨hids, hfind⟩ := find_of_read hrecords
  have hcompleted : (records.map StoredAllocation.complete).map
      StoredAllocation.id = ids := by
    rw [← hids, List.map_map]
    rfl
  by_cases hmem : id ∈ ids
  · rw [if_pos hmem]
    have hsome : ((records.map StoredAllocation.complete).reverse.find?
        fun record => record.id = id).isSome := by
      rw [← hcompleted] at hmem
      obtain ⟨record, hrecord, hid⟩ := List.mem_map.mp hmem
      rw [List.find?_isSome]
      exact ⟨record, List.mem_reverse.mpr hrecord, by simpa using hid⟩
    obtain ⟨found, hfound⟩ := Option.isSome_iff_exists.mp hsome
    have hid : found.id = id := by simpa using List.find?_some hfound
    have hin := List.mem_reverse.mp (List.mem_of_find?_eq_some hfound)
    obtain ⟨record, hrecord, rfl⟩ := List.mem_map.mp hin
    have hstored := hfind record hrecord
    have hsame : record.id = id := hid
    rw [hsame] at hstored
    simp [AllocationTable.update, hfound, hstored]
  · rw [if_neg hmem]
    exact AllocationTable.update_find_of_not_mem (by simp)
      (by rwa [hcompleted])

theorem completedAllocations_yields (update : Update)
    (ids : List PixAddressId) (world : SdkWorld Fr) :
    Yields (SdkM.completedAllocations update ids)
      (fun completed after => Unmoved world after ∧
        storeFailures after = storeFailures world ∧
        (∀ id ∈ ids, (world.records.find id).isSome) ∧
        ∀ id, (world.records.update completed []).find id =
          if id ∈ ids then (world.records.find id).map
            StoredAllocation.complete
          else world.records.find id)
      (fun _ after => ReadFailed ids world after) world := by
  apply Program.Obeys.seq (preparedAllocations_yields _ ids world)
  · exact fun _ _ h => h
  · rintro records after ⟨hunmoved, hsame, hrecords⟩
    refine ⟨hunmoved, hsame, ?_, update_completed_find hrecords⟩
    intro id hid
    obtain ⟨hids, hfind⟩ := find_of_read hrecords
    rw [← hids] at hid
    obtain ⟨record, hrecord, rfl⟩ := List.mem_map.mp hid
    rw [hfind record hrecord]
    rfl

/-- A save writes everything, or nothing and counts as a failure. -/
theorem saveUpdate_yields (update : Update) (state : SdkState)
    (allocations : List StoredAllocation) (world : SdkWorld Fr) :
    Yields (SdkM.saveUpdate update state allocations [])
      (fun _ after => after.memory = world.memory ∧ after.disk = state ∧
        after.records = world.records.update allocations [] ∧
        storeFailures after = storeFailures world)
      (fun _ after => Unmoved world after ∧
        storeFailures world < storeFailures after) world := by
  refine Program.obeys_call trivial ?_
  rintro reply after ⟨-, rfl⟩
  rcases reply with error | _
  · refine ⟨⟨rfl, rfl, rfl⟩, ?_⟩
    simp [storeFailures, SdkWorld.after, SdkWorld.record, SdkWorld.stranded,
      SdkEvent.storeFailed, Except.isOk, Except.toBool]
  · refine ⟨rfl, rfl, rfl, ?_⟩
    simp [storeFailures, SdkWorld.after, SdkWorld.record, SdkWorld.saved,
      SdkEvent.storeFailed, Except.isOk, Except.toBool]

theorem readState_yields {α : Type} {next : SdkState → SdkM Fr α}
    {post : α → SdkWorld Fr → Prop} {fail : SdkError → SdkWorld Fr → Prop}
    {world : SdkWorld Fr} (hnext : Yields (next world.memory) post fail world) :
    Yields (SdkM.readState >>= next) post fail world := by
  refine Program.obeys_call trivial ?_
  intro state after henv
  have hmemory : state = world.memory := henv.1
  have hafter : after = world := henv.2
  rw [hmemory, hafter]
  exact hnext

/-! ## The bookings which save first -/

/-- The records read, the next state saved with them, and only then
assigned. -/
theorem saveFirst_yields {α : Type} {config : SdkConfig Fr}
    (journal : AggregationJournal) (booking : Booking) {world : SdkWorld Fr}
    (update : Update) (value : α) :
    Yields (do
        let change ← SdkM.ofExcept (SdkM.bookedChange config booking.change)
        let completed ←
          SdkM.completedAllocations update booking.allocationIds
        let next := (world.memory.booked booking change).forget journal
        SdkM.saveUpdate update next completed []
        SdkM.writeState next
        return value)
      (fun _ after => Books config journal booking world after)
      (fun _ after => Unmoved world after) world := by
  have hread : Yields
      (SdkM.ofExcept (SdkM.bookedChange config booking.change))
      (fun change after => after = world ∧
        SdkM.bookedChange config booking.change = .ok change)
      (fun _ after => Unmoved world after) world :=
    Program.obeys_raise (fun change hchange => ⟨rfl, hchange⟩)
      fun _ _ => Unmoved.refl world
  apply hread.seq
  · exact fun _ _ h => h
  · rintro change _ ⟨rfl, hchange⟩
    apply Program.Obeys.seq (completedAllocations_yields _ _ _)
    · exact fun _ _ h => h.1
    · rintro completed read ⟨hread, -, hrecorded, htable⟩
      apply Program.Obeys.seq (saveUpdate_yields _ _ _ read)
      · exact fun _ _ h => hread.trans h.1
      · rintro - saved ⟨hmemory, hdisk, hrecords, -⟩
        refine Program.obeys_call trivial ?_
        rintro reply last ⟨-, rfl⟩
        refine ⟨⟨change, hchange, rfl⟩, hdisk, ?_, hrecorded⟩
        intro id
        rw [← htable id, ← hread.records, ← hrecords]
        rfl

theorem finishRelayAggregation_yields {config : SdkConfig Fr}
    {world : SdkWorld Fr} {index : ℕ} {attempt : StoredRelayAggregation}
    (hattempt : world.memory.relayAggregations[index]? = some attempt) :
    Yields (SdkM.finishRelayAggregation config (some index))
      (fun _ after => Books config .relay attempt.booking world after)
      (fun _ after => Unmoved world after) world := by
  apply readState_yields
  have hwins : ¬ (some index = none ∧
      world.memory.relayAggregations.length > 1) := by simp
  simp only [Program.require, if_pos hwins, Option.getD_some, hattempt]
  exact saveFirst_yields .relay attempt.booking _ _

theorem finishOperatorAggregation_yields {config : SdkConfig Fr}
    {world : SdkWorld Fr} {index : ℕ} {attempt : StoredOperatorAggregation}
    (hattempt : world.memory.operatorAggregations[index]? = some attempt) :
    Yields (SdkM.finishOperatorAggregation config (some index))
      (fun _ after => Books config .operator attempt.booking world after)
      (fun _ after => Unmoved world after) world := by
  apply readState_yields
  simp only [Option.getD_some, hattempt]
  exact saveFirst_yields .operator attempt.booking _ ()

/-! ## The booking which changes memory first -/

/-- The legacy booking, with the change note whatever it is worth. -/
structure BooksAnyChange (change : StoredNote) (before after : SdkWorld Fr) :
    Prop where
  memory : after.memory =
    (before.memory.booked (before.memory.ambiguousBooking change)
      [change]).forget .ambiguous
  disk : after.disk = after.memory
  completed : ∀ id, after.records.find id =
    if id ∈ before.memory.ambiguousAllocationIds then
      (before.records.find id).map StoredAllocation.complete
    else before.records.find id
  serves : StoreServes before.memory.ambiguousAllocationIds before after

/-- The legacy booking after a refused access: memory has moved on. -/
structure Stranded (before after : SdkWorld Fr) : Prop where
  moved : after.memory.ambiguousAllocation = false
  unserved : ¬ StoreServes before.memory.ambiguousAllocationIds before after

theorem bookAmbiguous_yields (change : StoredNote) (world : SdkWorld Fr) :
    Yields (SdkM.bookAmbiguous world.memory.ambiguousInputs change
        world.memory.ambiguousEmitted world.memory.ambiguousAllocationIds)
      (fun _ after => BooksAnyChange change world after)
      (fun _ after => Stranded world after) world := by
  apply readState_yields
  refine Program.obeys_call trivial ?_
  intro _ moved hmoved
  have hmovedWorld := hmoved.2
  have hrecords : moved.records = world.records := by
    rw [hmovedWorld]
    rfl
  have hfailures : storeFailures moved = storeFailures world := by
    rw [hmovedWorld]
    rfl
  apply Program.Obeys.seq (completedAllocations_yields _ _ moved)
  · rintro error read ⟨hread, hfailed⟩
    constructor
    · rw [hread.memory, hmovedWorld]
      rfl
    · intro hserves
      rw [hrecords, hfailures] at hfailed
      rcases hfailed with ⟨id, hid, hnone⟩ | hmore
      · have hsome := hserves.recorded id hid
        rw [hnone] at hsome
        cases hsome
      · have hsame := hserves.answered
        omega
  · rintro completed read ⟨hread, hsame, hrecorded, htable⟩
    rw [hrecords] at hrecorded htable
    refine Program.obeys_call trivial ?_
    intro _ last hlast
    have hlastWorld := hlast.2
    have hlastRecords : last.records = world.records := by
      rw [hlastWorld]
      exact hread.records.trans hrecords
    have hlastFailures : storeFailures last = storeFailures world := by
      rw [hlastWorld]
      exact hsame.trans hfailures
    apply (saveUpdate_yields _ _ _ last).mono
    · rintro - saved ⟨hmemory, hdisk, hsaved, hcount⟩
      have hlastMemory : saved.memory =
          (world.memory.booked (world.memory.ambiguousBooking change)
            [change]).forget .ambiguous := by
        rw [hmemory, hlastWorld]
        rfl
      refine ⟨hlastMemory, ?_, ?_, hrecorded, hcount.trans hlastFailures⟩
      · rw [hdisk, hlastMemory]
        rfl
      · intro id
        rw [hsaved, hlastRecords]
        exact htable id
    · rintro error saved ⟨hunmoved, hmore⟩
      constructor
      · rw [hunmoved.memory, hlastWorld]
        rfl
      · intro hserves
        have hanswered := hserves.answered
        omega

theorem bookedChange_eq_singleton {config : SdkConfig Fr}
    {change : StoredNote} :
    SdkM.bookedChange config change = .ok [change] ↔
      WorthBooking config change := by
  unfold SdkM.bookedChange WorthBooking
  cases change.toOwned config.codec with
  | error error => simp [Except.map]
  | ok note =>
      by_cases hzero : config.codec.frToBiguint note.amount = 0
      · simp [Except.map, hzero]
      · simp [Except.map, hzero]

theorem BooksAnyChange.books_iff {config : SdkConfig Fr}
    {change : StoredNote} {before after : SdkWorld Fr}
    (hbooks : BooksAnyChange change before after) :
    Books config .ambiguous (before.memory.ambiguousBooking change) before
        after ↔ WorthBooking config change := by
  constructor
  · intro hexact
    obtain ⟨booked, hbooked, hmemory⟩ := hexact.memory
    have hfunding : before.memory.fundingAfter before.memory.ambiguousInputs
        [change] = before.memory.fundingAfter before.memory.ambiguousInputs
          booked :=
      congrArg SdkState.funding (hbooks.memory.symm.trans hmemory)
    have hsame : [change] = booked := List.append_cancel_left hfunding
    rw [← bookedChange_eq_singleton, hsame]
    exact hbooked
  · intro hworth
    exact ⟨⟨[change], bookedChange_eq_singleton.mpr hworth, hbooks.memory⟩,
      hbooks.disk, hbooks.completed, hbooks.serves.recorded⟩

/-- The legacy booking is the booking of the other journals exactly when its
change note is worth something and the store refuses nothing. -/
theorem bookAmbiguous_booksAtomically_iff {config : SdkConfig Fr}
    {change : StoredNote} {world after : SdkWorld Fr}
    {outcome : Outcome SdkError Unit}
    (hambiguous : world.memory.ambiguousAllocation = true)
    (hruns : (SdkM.bookAmbiguous world.memory.ambiguousInputs change
      world.memory.ambiguousEmitted
        world.memory.ambiguousAllocationIds).Runs sdkEnvironment world outcome
          after)
    (hcomplete : outcome ≠ .crashed) :
    BooksAtomically config .ambiguous (world.memory.ambiguousBooking change)
        world outcome after ↔
      WorthBooking config change ∧
        StoreServes world.memory.ambiguousAllocationIds world after := by
  have hyields := hruns.satisfies (bookAmbiguous_yields change world)
  cases outcome with
  | returned value =>
      have hbooks : BooksAnyChange change world after := hyields
      constructor
      · intro hatomic
        exact ⟨hbooks.books_iff.mp hatomic, hbooks.serves⟩
      · intro hsound
        exact hbooks.books_iff.mpr hsound.1
  | failed error =>
      have hstranded : Stranded world after := hyields
      constructor
      · intro hunmoved
        have hmemory : after.memory = world.memory := Unmoved.memory hunmoved
        have hmoved := hstranded.moved
        rw [hmemory, hambiguous] at hmoved
        cases hmoved
      · intro hsound
        exact absurd hsound.2 hstranded.unserved
  | crashed => exact absurd rfl hcomplete

/-- The relay and the operator journal are booked in one step or not at all.
The legacy aggregation is booked so exactly in the runs whose change note is
worth something and whose store accesses all succeed. -/
theorem aggregationBookings_agree (config : SdkConfig Fr)
    (world after : SdkWorld Fr) :
    (∀ index attempt outcome,
        world.memory.relayAggregations[index]? = some attempt →
        (SdkM.finishRelayAggregation config (some index)).Runs sdkEnvironment
          world outcome after →
        BooksAtomically config .relay attempt.booking world outcome after) ∧
      (∀ index attempt outcome,
        world.memory.operatorAggregations[index]? = some attempt →
        (SdkM.finishOperatorAggregation config (some index)).Runs
          sdkEnvironment world outcome after →
        BooksAtomically config .operator attempt.booking world outcome
          after) ∧
      ∀ change outcome,
        world.memory.ambiguousAllocation = true →
        world.memory.ambiguousChange = some change →
        (SdkM.bookAmbiguous world.memory.ambiguousInputs change
          world.memory.ambiguousEmitted
            world.memory.ambiguousAllocationIds).Runs sdkEnvironment world
              outcome after →
        outcome ≠ .crashed →
        (BooksAtomically config .ambiguous
            (world.memory.ambiguousBooking change) world outcome after ↔
          WorthBooking config change ∧
            StoreServes world.memory.ambiguousAllocationIds world after) := by
  refine ⟨?_, ?_, ?_⟩
  · intro index attempt outcome hattempt hruns
    exact hruns.satisfies (finishRelayAggregation_yields hattempt)
  · intro index attempt outcome hattempt hruns
    exact hruns.satisfies (finishOperatorAggregation_yields hattempt)
  · intro change outcome hambiguous _ hruns hcomplete
    exact bookAmbiguous_booksAtomically_iff hambiguous hruns hcomplete

/-! ## A change note worth nothing -/

/-- A store which refuses nothing. -/
def storeServing (world : SdkWorld (Fin 10)) (call : SdkCall (Fin 10)) :
    call.Reply × SdkWorld (Fin 10) :=
  let reply : call.Reply := match call with
    | .saveUpdate _ _ _ _ => .ok ()
    | .allocation _ id => .ok (world.records.find id)
    | call => unreachable world call
  (reply, world.after call reply)

/-- A legacy aggregation of one note into one allocation, with its change. -/
def legacyAllocation (change : Fin 10) : SdkState :=
  { SdkState.fresh none with
    funding :=
      [StoredNote.ofOwned digitCodec (digitNote (digit 1) (digit 5))]
    ambiguousAllocation := true
    ambiguousInputs :=
      [StoredNote.ofOwned digitCodec (digitNote (digit 1) (digit 5))]
    ambiguousChange :=
      some (StoredNote.ofOwned digitCodec (digitNote (digit 2) change))
    ambiguousEmitted :=
      [StoredNote.ofOwned digitCodec (digitNote (digit 3) (digit 4))]
    ambiguousAllocationIds := [[1]] }

def legacyRecords : AllocationTable :=
  AllocationTable.empty.update [⟨[1], [], [], 4, .prepared⟩] []

def legacyWorld (change : Fin 10) : SdkWorld (Fin 10) :=
  SdkWorld.agreeing (legacyAllocation change) legacyRecords

/-- The booking of the legacy aggregation. -/
def legacyBooking (change : Fin 10) : SdkM (Fin 10) Unit :=
  SdkM.bookAmbiguous
    [StoredNote.ofOwned digitCodec (digitNote (digit 1) (digit 5))]
    (StoredNote.ofOwned digitCodec (digitNote (digit 2) change))
    [StoredNote.ofOwned digitCodec (digitNote (digit 3) (digit 4))] [[1]]

theorem legacyBooking_runs (change : Fin 10) :
    (legacyBooking change).Runs sdkEnvironment (legacyWorld change)
      (.returned ())
      ((legacyBooking change).play storeServing (legacyWorld change)).2 :=
  Program.play_runs storeServing (fun world call => by
    refine ⟨?_, rfl⟩
    cases call with
    | saveUpdate update state allocations remove => trivial
    | allocation reader id => exact Or.inl rfl
    | _ => exact permits_unreachable world _) _ _

/-- With a change of 2 the legacy booking is the one of the other journals. -/
theorem aggregationBookings_agree_legacyChange :
    BooksAtomically (digitConfig .operator) .ambiguous
      ((legacyAllocation 2).ambiguousBooking
        (StoredNote.ofOwned digitCodec (digitNote 2 2)))
      (legacyWorld 2) (.returned () : Outcome SdkError Unit)
      ((legacyBooking 2).play storeServing (legacyWorld 2)).2 := by
  apply ((aggregationBookings_agree (digitConfig .operator) (legacyWorld 2)
    _).2.2 _ _ rfl rfl (legacyBooking_runs 2) (by rintro ⟨⟩)).mpr
  refine ⟨⟨digitNote 2 2, toOwned_ofOwned digitCodec _, by decide⟩, ?_, rfl⟩
  decide

/-- With a change of nothing the legacy booking adds a note of zero to the
funding. -/
theorem aggregationBookings_disagree :
    ¬ ∀ (config : SdkConfig (Fin 10)) (world after : SdkWorld (Fin 10))
      (change : StoredNote) (outcome : Outcome SdkError Unit),
      world.memory.ambiguousAllocation = true →
      world.memory.ambiguousChange = some change →
      (SdkM.bookAmbiguous world.memory.ambiguousInputs change
        world.memory.ambiguousEmitted
          world.memory.ambiguousAllocationIds).Runs sdkEnvironment world
            outcome after →
      outcome ≠ .crashed →
      BooksAtomically config .ambiguous (world.memory.ambiguousBooking change)
        world outcome after := by
  intro hagree
  have hbooks : Books (digitConfig .operator) .ambiguous _ _ _ :=
    hagree (digitConfig .operator) (legacyWorld 0) _ _ _ rfl rfl
      (legacyBooking_runs 0) (by rintro ⟨⟩)
  obtain ⟨change, hchange, hmemory⟩ := hbooks.memory
  have hnone : SdkM.bookedChange (digitConfig .operator)
      (StoredNote.ofOwned digitCodec (digitNote 2 0)) = .ok [] := by rfl
  have hempty : change = [] := by
    have heq := hchange.symm.trans hnone
    cases heq
    rfl
  have hfunding := congrArg SdkState.funding hmemory
  rw [hempty] at hfunding
  revert hfunding
  decide

end HoprStrategy.Curvy
