import HoprStrategy.CurvyLifecycle

/-!
# Who owns a recorded note, and how much is committed

Every record belongs to the allocation its note is attributed to, as long as no
two registered allocations recompute one note id.  The committed amount of an
allocation changes only when one of its notes is completed.
-/

namespace HoprStrategy.Curvy

open Library

variable {Id Addr Secret Field Owner Note : Type}

namespace CurvyNoteDetector

variable [DecidableEq Field]

/-- A registered allocation recomputes the note id. -/
def Recomputes (detector : CurvyNoteDetector Addr Secret Field Owner Note)
    (registered : Set (WatchedAllocation Id Addr Secret)) (id : Id)
    (noteIdKey : Field) : Prop :=
  ∃ allocation ∈ registered, allocation.id = id ∧
    ∃ announcement viewTag amount note,
      detector.judge announcement viewTag allocation =
        .recomputed amount note ∧
      announcement.noteId = noteIdKey

theorem Recomputes.unique
    {detector : CurvyNoteDetector Addr Secret Field Owner Note}
    {registered : Set (WatchedAllocation Id Addr Secret)} {id other : Id}
    {noteIdKey : Field} (hsound : detector.Sound registered)
    (hid : detector.Recomputes registered id noteIdKey)
    (hother : detector.Recomputes registered other noteIdKey) : id = other := by
  obtain ⟨allocation, hmem, hallocation, announcement, viewTag, amount, note,
    hjudge, hkey⟩ := hid
  obtain ⟨allocation', hmem', hallocation', announcement', viewTag', amount',
    note', hjudge', hkey'⟩ := hother
  have hsame := hsound.unique announcement viewTag announcement' viewTag'
    allocation hmem allocation' hmem' amount note amount' note' hjudge hjudge'
    (hkey.trans hkey'.symm)
  rw [← hallocation, ← hallocation']
  exact hsame.1

/-- Whoever a candidate is detected for recomputes its note id. -/
theorem recomputes_of_detected
    {detector : CurvyNoteDetector Addr Secret Field Owner Note}
    {registered : Set (WatchedAllocation Id Addr Secret)}
    {watched : List (WatchedAllocation Id Addr Secret)}
    {candidate : CurvyPendingNote} {detected : DetectedCurvyNote Id Addr Note}
    (hregistered : ∀ other ∈ watched, other ∈ registered)
    (hdetect : detector.detectOwnedNote candidate watched =
      .ok (some detected)) :
    ∃ key, detector.parseNoteId candidate.noteId = .ok key ∧
      detector.Recomputes registered detected.deposit.id key := by
  obtain ⟨announcement, viewTag, other, hother, amount, note, hparse, hjudge,
    hid⟩ := detectOwnedNote_some hdetect
  exact ⟨announcement.noteId, parseCandidate_noteId hparse, other,
    hregistered other hother, hid.symm, announcement, viewTag, amount, note,
    hjudge, rfl⟩

end CurvyNoteDetector

section Records

variable {record : OwnedNoteRecord Id Addr Note}
  {note : StoredOwnedNote Id Addr Note}

theorem decodeOwnedNote_ok (hdecode : decodeOwnedNote record = .ok note) :
    note.detected = record.detected ∧ note.committed = record.committed := by
  unfold decodeOwnedNote at hdecode
  by_cases hflag : record.committed ≠
      (if record.rawLeafIndex ≠ -1 then some record.rawLeafIndex
        else none).isSome
  · simp only [if_pos hflag] at hdecode
    cases hdecode
  · simp only [if_neg hflag] at hdecode
    cases hdecode
    exact ⟨rfl, rfl⟩

theorem decodeOwnedNote_pending (detected : DetectedCurvyNote Id Addr Note) :
    decodeOwnedNote (encodeOwnedNote ⟨detected, false, none⟩) =
      .ok ⟨detected, false, none⟩ := by
  unfold decodeOwnedNote encodeOwnedNote
  simp

end Records

namespace CurvyDepositState

variable [DecidableEq Id] [DecidableEq Field]
  {state after : CurvyDepositState Id Addr Field Note} {id other : Id}
  {noteIdKey key : Field} {leafIndex : UInt64} {cursor : CurvyEventCursor}

/-- What a completion does, with the note which it returns. -/
theorem recordCompletion_ok {committed : Option (CommittedCurvyNote Id Addr Note)}
    (hrecord : state.recordCompletion key leafIndex cursor =
      .ok (after, committed)) :
    (after = { state with committedCursor := some cursor } ∧
        committed = none ∧ ∀ id, ¬ state.Attributed id key) ∨
      ∃ id record note, state.noteSessions.lookup key = some id ∧
        state.ownedNotes.lookup (id, key) = some record ∧
        decodeOwnedNote record = .ok note ∧
        after = { state with
          committedCursor := some cursor
          ownedNotes := state.ownedNotes.insert (id, key)
            ⟨record.detected, true, leafIndex⟩ } ∧
        committed =
          some ⟨record.detected.deposit, record.detected.note, leafIndex⟩ := by
  unfold recordCompletion at hrecord
  dsimp only at hrecord
  cases hsession : state.noteSessions.lookup key with
  | none =>
      simp only [hsession, Except.ok.injEq, Prod.mk.injEq] at hrecord
      refine Or.inl ⟨hrecord.1.symm, hrecord.2.symm, ?_⟩
      intro id hattributed
      rw [Attributed, hsession] at hattributed
      cases hattributed.1
  | some id =>
      simp only [hsession] at hrecord
      cases hlookup : state.ownedNotes.lookup (id, key) with
      | none =>
          simp only [hlookup, Except.ok.injEq, Prod.mk.injEq] at hrecord
          refine Or.inl ⟨hrecord.1.symm, hrecord.2.symm, ?_⟩
          intro other hattributed
          rw [Attributed, hsession, Option.some.injEq] at hattributed
          rw [← hattributed.1, hlookup] at hattributed
          cases hattributed.2
      | some record =>
          simp only [hlookup] at hrecord
          cases hdecode : decodeOwnedNote record with
          | error error =>
              simp only [hdecode] at hrecord
              cases hrecord
          | ok note =>
              simp only [hdecode, Except.ok.injEq, Prod.mk.injEq] at hrecord
              have hdetected := (decodeOwnedNote_ok hdecode).1
              refine Or.inr ⟨id, record, note, rfl, hlookup, hdecode, ?_, ?_⟩
              · rw [← hrecord.1, ← hdetected]
                rfl
              · rw [← hrecord.2, ← hdetected]

/-! ## Amounts -/

theorem filter_kerase {Value : Type}
    (entries : List (Sigma fun _ : Id × Field => Value))
    (hne : id ≠ other) :
    (entries.kerase (id, key)).filter (fun entry => entry.1.1 = other) =
      entries.filter (fun entry => entry.1.1 = other) := by
  induction entries with
  | nil => rfl
  | cons entry rest ih =>
      by_cases heq : (id, key) = entry.1
      · rw [List.kerase_cons_eq heq, List.filter_cons_of_neg]
        simp only [decide_eq_true_eq, ← heq]
        exact hne
      · rw [List.kerase_cons_ne heq]
        by_cases hkeep : entry.1.1 = other
        · rw [List.filter_cons_of_pos (by simpa using hkeep),
            List.filter_cons_of_pos (by simpa using hkeep), ih]
        · rw [List.filter_cons_of_neg (by simpa using hkeep),
            List.filter_cons_of_neg (by simpa using hkeep), ih]

/-- Writing a record of one allocation leaves the records of the others. -/
theorem sessionRecords_insert_ne {record : OwnedNoteRecord Id Addr Note}
    (hnotes : after.ownedNotes = state.ownedNotes.insert (id, key) record)
    (hne : id ≠ other) :
    after.sessionRecords other = state.sessionRecords other := by
  unfold sessionRecords
  rw [hnotes, AList.entries_insert,
    List.filter_cons_of_neg (by simpa using hne), filter_kerase _ hne]

omit [DecidableEq Field] in
theorem committedAmount_congr
    (hrecords : after.sessionRecords id = state.sessionRecords id) :
    after.committedAmount id = state.committedAmount id := by
  unfold committedAmount
  rw [hrecords]

/-- A discovery changes no committed amount. -/
theorem recordOwnedCandidate_amount (note : DetectedCurvyNote Id Addr Note) :
    (state.recordOwnedCandidate key note cursor).committedAmount id =
      state.committedAmount id := by
  by_cases hnew : (state.ownedNotes.lookup (note.deposit.id, key)).isNone = true
  · have hnotes : (state.recordOwnedCandidate key note cursor).ownedNotes =
        state.ownedNotes.insert (note.deposit.id, key)
          (encodeOwnedNote ⟨note, false, none⟩) := by
      unfold recordOwnedCandidate
      simp only
      rw [if_pos hnew]
    by_cases hid : note.deposit.id = id
    · unfold committedAmount sessionRecords
      have hfresh : (note.deposit.id, key) ∉ state.ownedNotes := by
        rw [← AList.lookup_eq_none]
        exact Option.isNone_iff_eq_none.mp hnew
      rw [hnotes, AList.entries_insert_of_notMem hfresh,
        List.filter_cons_of_pos (by simpa using hid), List.map_cons,
        List.foldlM_cons, decodeOwnedNote_pending]
      rfl
    · exact committedAmount_congr (sessionRecords_insert_ne hnotes hid)
  · have hnotes : (state.recordOwnedCandidate key note cursor).ownedNotes =
        state.ownedNotes := by
      unfold recordOwnedCandidate
      simp only
      rw [if_neg hnew]
    apply committedAmount_congr
    unfold sessionRecords
    rw [hnotes]

omit [DecidableEq Id] in
/-- A total which grew counts a committed record. -/
theorem exists_committed_of_foldlM
    {records : List (OwnedNoteRecord Id Addr Note)}
    {start total : HoprBalance}
    (htotal : records.foldlM (fun total record => do
        let note ← decodeOwnedNote record
        if note.committed then .ok (total + note.detected.deposit.amount)
        else .ok total) start =
      (.ok total : Except CurvyStateError HoprBalance))
    (hne : total ≠ start) : ∃ record ∈ records, record.committed = true := by
  induction records generalizing start with
  | nil =>
      cases htotal
      exact absurd rfl hne
  | cons record rest ih =>
      by_cases hcommitted : record.committed = true
      · exact ⟨record, List.mem_cons_self, hcommitted⟩
      · rw [List.foldlM_cons] at htotal
        obtain ⟨middle, hmiddle, hrest⟩ := bind_eq_ok.mp htotal
        obtain ⟨note, hdecode, hsum⟩ := bind_eq_ok.mp hmiddle
        rw [(decodeOwnedNote_ok hdecode).2, if_neg hcommitted] at hsum
        cases hsum
        obtain ⟨found, hmem, hfound⟩ := ih hrest hne
        exact ⟨found, List.mem_cons_of_mem record hmem, hfound⟩

/-- A positive amount has a committed note behind it. -/
theorem exists_recorded_of_amount {amount : HoprBalance}
    (hamount : state.committedAmount id = .ok amount)
    (hpos : 0 < amount.wei) : ∃ key, state.RecordedCommitted id key := by
  have hne : amount ≠ HoprBalance.zero := by
    intro hzero
    rw [hzero] at hpos
    exact Nat.lt_irrefl 0 hpos
  obtain ⟨record, hmem, hcommitted⟩ := exists_committed_of_foldlM hamount hne
  obtain ⟨entry, hentry, hrecord⟩ := List.mem_map.mp hmem
  obtain ⟨hentries, hid⟩ := List.mem_filter.mp hentry
  have hlookup : state.ownedNotes.lookup entry.1 = some entry.2 :=
    AList.mem_lookup_iff.mpr hentries
  simp only [decide_eq_true_eq] at hid
  refine ⟨entry.1.2, record, ?_, hcommitted⟩
  rw [← hid, ← hrecord]
  exact hlookup

/-! ## The order of the records -/

/-- One record more in the total. -/
def addRecord (total : HoprBalance) (record : OwnedNoteRecord Id Addr Note) :
    Except CurvyStateError HoprBalance := do
  let note ← decodeOwnedNote record
  if note.committed then .ok (total + note.detected.deposit.amount)
  else .ok total

omit [DecidableEq Field] in
theorem committedAmount_eq : state.committedAmount id =
    (state.sessionRecords id).foldlM addRecord HoprBalance.zero := rfl

omit [DecidableEq Id] in
/-- A record is undecodable for one reason only. -/
theorem decodeOwnedNote_error {record : OwnedNoteRecord Id Addr Note}
    {error : CurvyStateError} (hdecode : decodeOwnedNote record = .error error) :
    error = .corrupt "owned-note commitment flag and leaf index disagree" := by
  unfold decodeOwnedNote at hdecode
  by_cases hflag : record.committed ≠
      (if record.rawLeafIndex ≠ -1 then some record.rawLeafIndex
        else none).isSome
  · simp only [if_pos hflag] at hdecode
    cases hdecode
    rfl
  · simp only [if_neg hflag] at hdecode
    cases hdecode

omit [DecidableEq Id] in
theorem addRecord_ok {record : OwnedNoteRecord Id Addr Note}
    {note : StoredOwnedNote Id Addr Note}
    (hdecode : decodeOwnedNote record = .ok note) (total : HoprBalance) :
    addRecord total record = .ok
      (if note.committed then total + note.detected.deposit.amount
        else total) := by
  unfold addRecord
  rw [hdecode]
  cases hcommitted : note.committed with
  | true => simp [bind, Except.bind, hcommitted]
  | false => simp [bind, Except.bind, hcommitted]

omit [DecidableEq Id] in
theorem addRecord_error {record : OwnedNoteRecord Id Addr Note}
    {error : CurvyStateError} (hdecode : decodeOwnedNote record = .error error)
    (total : HoprBalance) : addRecord total record = .error error := by
  unfold addRecord
  rw [hdecode]
  rfl

theorem add_right_comm (total left right : HoprBalance) :
    total + left + right = total + right + left := by
  apply HoprBalance.ext
  simp only [HoprBalance.add_wei]
  omega

omit [DecidableEq Id] in
theorem addRecord_comm (total : HoprBalance)
    (first second : OwnedNoteRecord Id Addr Note) :
    (do let middle ← addRecord total first; addRecord middle second) =
      (do let middle ← addRecord total second; addRecord middle first) := by
  cases hfirst : decodeOwnedNote first with
  | error error =>
      cases hsecond : decodeOwnedNote second with
      | error other =>
          rw [addRecord_error hfirst, addRecord_error hsecond,
            decodeOwnedNote_error hfirst, decodeOwnedNote_error hsecond]
          rfl
      | ok note =>
          rw [addRecord_error hfirst, addRecord_ok hsecond]
          exact (addRecord_error hfirst _).symm
  | ok note =>
      cases hsecond : decodeOwnedNote second with
      | error other =>
          rw [addRecord_error hsecond, addRecord_ok hfirst]
          exact addRecord_error hsecond _
      | ok other =>
          rw [addRecord_ok hfirst, addRecord_ok hsecond]
          show addRecord _ second = addRecord _ first
          rw [addRecord_ok hfirst, addRecord_ok hsecond]
          cases note.committed with
          | false => rfl
          | true =>
              cases other.committed with
              | false => rfl
              | true => exact congrArg Except.ok (add_right_comm _ _ _)

omit [DecidableEq Id] in
theorem foldlM_addRecord_perm
    {records others : List (OwnedNoteRecord Id Addr Note)}
    (hperm : records.Perm others) (total : HoprBalance) :
    records.foldlM addRecord total = others.foldlM addRecord total := by
  induction hperm generalizing total with
  | nil => rfl
  | cons record _ ih =>
      rw [List.foldlM_cons, List.foldlM_cons]
      exact congrArg _ (funext ih)
  | swap first second rest =>
      simp only [List.foldlM_cons]
      rw [← bind_assoc, ← bind_assoc, addRecord_comm]
  | trans _ _ ih ih' => exact (ih total).trans (ih' total)

/-- The tables alone decide the amounts. -/
theorem committedAmount_of_lookup
    (hlookup : ∀ key, after.ownedNotes.lookup key =
      state.ownedNotes.lookup key) :
    after.committedAmount id = state.committedAmount id := by
  have hperm : after.ownedNotes.entries.Perm state.ownedNotes.entries := by
    apply List.lookup_ext after.ownedNotes.nodupKeys state.ownedNotes.nodupKeys
    intro key record
    have hsame := hlookup key
    unfold AList.lookup at hsame
    rw [hsame]
  rw [committedAmount_eq, committedAmount_eq]
  exact foldlM_addRecord_perm ((hperm.filter _).map _) _

/-! ## Comparing amounts -/

/-- What a record adds to the amount. -/
def recordValue (record : OwnedNoteRecord Id Addr Note) : ℕ :=
  if record.committed then record.detected.deposit.amount.wei else 0

omit [DecidableEq Id] in
theorem foldlM_addRecord_wei {records : List (OwnedNoteRecord Id Addr Note)}
    {total amount : HoprBalance} {sum : ℕ}
    (hfold : records.foldlM addRecord total = .ok amount)
    (htotal : total.wei = min sum (2 ^ 256 - 1)) :
    amount.wei = min (sum + (records.map recordValue).sum) (2 ^ 256 - 1) := by
  induction records generalizing total sum with
  | nil =>
      cases hfold
      simpa using htotal
  | cons record rest ih =>
      rw [List.foldlM_cons] at hfold
      obtain ⟨middle, hmiddle, hrest⟩ := bind_eq_ok.mp hfold
      have hadd : middle.wei = min (sum + recordValue record) (2 ^ 256 - 1) := by
        obtain ⟨note, hdecode, hsum⟩ := bind_eq_ok.mp hmiddle
        obtain ⟨hdetected, hcommitted⟩ := decodeOwnedNote_ok hdecode
        unfold recordValue
        rw [← hdetected, ← hcommitted]
        cases hnote : note.committed with
        | true =>
            rw [hnote, if_pos rfl] at hsum
            cases hsum
            rw [HoprBalance.add_wei, if_pos rfl]
            omega
        | false =>
            rw [hnote, if_neg (by simp)] at hsum
            cases hsum
            simpa using htotal
      rw [ih hrest hadd, List.map_cons, List.sum_cons, Nat.add_assoc]

omit [DecidableEq Field] in
theorem committedAmount_wei {amount : HoprBalance}
    (hamount : state.committedAmount id = .ok amount) :
    amount.wei =
      min ((state.sessionRecords id).map recordValue).sum (2 ^ 256 - 1) := by
  rw [committedAmount_eq] at hamount
  have hzero : HoprBalance.zero.wei = min 0 (2 ^ 256 - 1) := by simp
  have hwei := foldlM_addRecord_wei hamount hzero
  rwa [Nat.zero_add] at hwei

/-- The keys of one allocation's records. -/
def sessionKeys (state : CurvyDepositState Id Addr Field Note) (id : Id) :
    List (Id × Field) :=
  (state.ownedNotes.entries.filter fun entry => entry.1.1 = id).map (·.1)

def valueAt (state : CurvyDepositState Id Addr Field Note) (key : Id × Field) :
    ℕ :=
  ((state.ownedNotes.lookup key).map recordValue).getD 0

omit [DecidableEq Field] in
theorem sessionKeys_nodup : (state.sessionKeys id).Nodup := by
  have hkeys : (state.ownedNotes.entries.map (·.1)).Nodup :=
    state.ownedNotes.nodupKeys
  exact hkeys.sublist (List.filter_sublist.map _)

theorem mem_sessionKeys {key : Id × Field} :
    key ∈ state.sessionKeys id ↔
      key.1 = id ∧ (state.ownedNotes.lookup key).isSome = true := by
  unfold sessionKeys
  rw [List.mem_map]
  constructor
  · intro hmem
    obtain ⟨entry, hentry, rfl⟩ := hmem
    obtain ⟨hin, hid⟩ := List.mem_filter.mp hentry
    have hlookup : state.ownedNotes.lookup entry.1 = some entry.2 :=
      AList.mem_lookup_iff.mpr hin
    exact ⟨by simpa using hid, by rw [hlookup]; rfl⟩
  · intro hboth
    obtain ⟨record, hlookup⟩ := Option.isSome_iff_exists.mp hboth.2
    exact ⟨⟨key, record⟩, List.mem_filter.mpr
      ⟨AList.mem_lookup_iff.mp hlookup, by simpa using hboth.1⟩, rfl⟩

theorem sum_sessionRecords :
    ((state.sessionRecords id).map recordValue).sum =
      ∑ key ∈ (state.sessionKeys id).toFinset, state.valueAt key := by
  rw [List.sum_toFinset _ sessionKeys_nodup]
  unfold sessionRecords sessionKeys
  rw [List.map_map, List.map_map]
  congr 1
  apply List.map_congr_left
  intro entry hentry
  have hlookup : state.ownedNotes.lookup entry.1 = some entry.2 :=
    AList.mem_lookup_iff.mpr (List.mem_filter.mp hentry).1
  simp [valueAt, hlookup]

/-- Records which are all there, and worth as much, make an amount as large. -/
theorem committedAmount_le {other : CurvyDepositState Id Addr Field Note}
    {amount larger : HoprBalance}
    (hvalue : ∀ key record, state.ownedNotes.lookup (id, key) = some record →
      ∃ record', other.ownedNotes.lookup (id, key) = some record' ∧
        recordValue record ≤ recordValue record')
    (hamount : state.committedAmount id = .ok amount)
    (hlarger : other.committedAmount id = .ok larger) :
    amount.wei ≤ larger.wei := by
  have hsum : ((state.sessionRecords id).map recordValue).sum ≤
      ((other.sessionRecords id).map recordValue).sum := by
    rw [sum_sessionRecords, sum_sessionRecords]
    have hkey : ∀ key ∈ (state.sessionKeys id).toFinset,
        key ∈ (other.sessionKeys id).toFinset ∧
          state.valueAt key ≤ other.valueAt key := by
      intro key hmem
      rw [List.mem_toFinset, mem_sessionKeys] at hmem
      obtain ⟨rfl, hsome⟩ := hmem
      obtain ⟨record, hlookup⟩ := Option.isSome_iff_exists.mp hsome
      obtain ⟨record', hlookup', hle⟩ := hvalue key.2 record hlookup
      constructor
      · rw [List.mem_toFinset, mem_sessionKeys]
        exact ⟨rfl, by rw [hlookup']; rfl⟩
      · unfold valueAt
        rw [hlookup, hlookup']
        exact hle
    calc ∑ key ∈ (state.sessionKeys id).toFinset, state.valueAt key
        ≤ ∑ key ∈ (state.sessionKeys id).toFinset, other.valueAt key :=
          Finset.sum_le_sum fun key hmem => (hkey key hmem).2
      _ ≤ ∑ key ∈ (other.sessionKeys id).toFinset, other.valueAt key :=
          Finset.sum_le_sum_of_subset fun key hmem => (hkey key hmem).1
  rw [committedAmount_wei hamount, committedAmount_wei hlarger]
  omega

end CurvyDepositState

end HoprStrategy.Curvy
