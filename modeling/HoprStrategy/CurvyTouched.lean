import HoprStrategy.CurvyAllocationOnce
import HoprStrategy.CurvyRelayJournal

/-!
# What becomes of a touched aggregation

An allocation whose aggregation was submitted, resumed or completed stays in a
journal or is recorded as completed, unless the aggregation was given up since.
An aggregation is given up only on a report of its own, which comes right
before.
-/

namespace HoprStrategy.Curvy

open Library SdkWorld

variable {Fr : Type} {start : SdkState} {world : SdkWorld Fr}

namespace SdkState

def relayIds (state : SdkState) : List PixAddressId :=
  (state.relayAggregations.map (·.allocationIds)).flatten

def operatorIds (state : SdkState) : List PixAddressId :=
  (state.operatorAggregations.map (·.allocationIds)).flatten

/-- The attempts of a journal compete for the same allocations. -/
structure Competing (state : SdkState) : Prop where
  relay : ∀ first ∈ state.relayAggregations,
    ∀ second ∈ state.relayAggregations,
      first.allocationIds = second.allocationIds
  operator : ∀ first ∈ state.operatorAggregations,
    ∀ second ∈ state.operatorAggregations,
      first.allocationIds = second.allocationIds

end SdkState

/-- The allocations which an update gives up with the only aggregation of
their journal. -/
def Update.givesUp (state : SdkState) : Update → List PixAddressId
  | .finishRelay none => state.relayIds
  | .finishOperator none => state.operatorIds
  | _ => []

namespace SdkEvent

/-- The allocations whose aggregation an event submits, resumes or
completes, by the journals of the stored state. -/
def touches (state : SdkState) : SdkEvent Fr → List PixAddressId
  | ⟨.relaySubmit body, _⟩ =>
      if body.action = .aggregation then state.relayIds else []
  | ⟨.relayStatus _, _⟩ => state.relayIds
  | ⟨.relayByIntent _ _, _⟩ => state.relayIds
  | ⟨.awaitInclusion _, _⟩ => state.relayIds
  | ⟨.buildPixAggregation _ _ _ _, _⟩ => state.relayIds
  | ⟨.submitPixAggregation _, _⟩ => state.operatorIds
  | ⟨.saveUpdate _ _ allocations _, reply⟩ =>
      if (reply : Except String Unit).isOk then
        (allocations.filter fun record => record.stage = .completed).map
          StoredAllocation.id
      else []
  | _ => []

/-- The allocations which an event gives up. -/
def givesUp (state : SdkState) : SdkEvent Fr → List PixAddressId
  | ⟨.saveUpdate update _ _ _, reply⟩ =>
      if (reply : Except String Unit).isOk then update.givesUp state else []
  | _ => []

end SdkEvent

/-- The allocations touched in a history which started from `start`. -/
def touched (start : SdkState) : List (SdkEvent Fr) → List PixAddressId
  | [] => []
  | event :: earlier =>
      event.touches (stored start earlier) ++ touched start earlier

/-- The allocations given up in a history which started from `start`. -/
def givenUp (start : SdkState) : List (SdkEvent Fr) → List PixAddressId
  | [] => []
  | event :: earlier =>
      event.givesUp (stored start earlier) ++ givenUp start earlier

/-- The allocations touched and not given up since, in a history which started
from `start`. -/
def unreleased (start : SdkState) : List (SdkEvent Fr) → List PixAddressId
  | [] => []
  | event :: earlier =>
      (event.touches (stored start earlier) ++ unreleased start earlier).filter
        (· ∉ event.givesUp (stored start earlier))

theorem mem_unreleased_or_givenUp {history : List (SdkEvent Fr)}
    {id : PixAddressId} (hid : id ∈ touched start history) :
    id ∈ unreleased start history ∨ id ∈ givenUp start history := by
  induction history with
  | nil => cases hid
  | cons event earlier ih =>
      by_cases hgiven : id ∈ event.givesUp (stored start earlier)
      · exact Or.inr (List.mem_append_left _ hgiven)
      · have hkept : ∀ {ids : List PixAddressId}, id ∈ ids →
            id ∈ ids.filter (· ∉ event.givesUp (stored start earlier)) :=
          fun hmem => List.mem_filter.mpr ⟨hmem, decide_eq_true hgiven⟩
        rcases List.mem_append.mp hid with hid | hid
        · exact Or.inl (hkept (List.mem_append_left _ hid))
        · exact (ih hid).imp (fun h => hkept (List.mem_append_right _ h))
            (List.mem_append_right _)

/-- Without a save only what is journalled is touched. -/
theorem SdkEvent.touches_journalled {event : SdkEvent Fr} {state : SdkState}
    (hstores : event.stores = none) {id : PixAddressId}
    (htouches : id ∈ event.touches state) :
    id ∈ state.relayIds ∨ id ∈ state.operatorIds ∧
      ∃ request, event.call = .submitPixAggregation request := by
  rcases event with ⟨call, reply⟩
  cases call with
  | relaySubmit body =>
      simp only [touches] at htouches
      split at htouches
      · exact Or.inl htouches
      · cases htouches
  | relayStatus => exact Or.inl htouches
  | relayByIntent => exact Or.inl htouches
  | awaitInclusion => exact Or.inl htouches
  | buildPixAggregation => exact Or.inl htouches
  | submitPixAggregation request => exact Or.inr ⟨htouches, request, rfl⟩
  | saveUpdate update next allocations remove =>
      simp only [stores] at hstores
      split at hstores
      · cases hstores
      · rename_i hreply
        simp [touches, hreply] at htouches
  | _ => cases htouches

/-- Where a touched allocation is found. -/
def Held (world : SdkWorld Fr) (id : PixAddressId) : Prop :=
  id ∈ world.disk.relayIds ∨ id ∈ world.disk.operatorIds ∨
    world.records.Completed id

/-! ## A clone which is saved -/

/-- The allocations of the journals are still there, are recorded by the save,
or are `lost` with it; the records which are saved are completed, or those of a
journal. -/
structure Carried (before next : SdkState)
    (allocations : List StoredAllocation) (lost : List PixAddressId) :
    Prop where
  relay : ∀ id ∈ before.relayIds,
    id ∈ next.relayIds ∨ id ∈ allocations.map StoredAllocation.id ∨ id ∈ lost
  operator : ∀ id ∈ before.operatorIds,
    id ∈ next.operatorIds ∨ id ∈ allocations.map StoredAllocation.id ∨
      id ∈ lost
  recorded : (∀ record ∈ allocations, record.stage = .completed) ∨
    ∀ id ∈ allocations.map StoredAllocation.id,
      id ∈ next.relayIds ∨ id ∈ next.operatorIds

section

variable [DecidableEq Fr] {config : SdkConfig Fr} {distinct : Prop}
  {update : Update} {next : SdkState} {allocations : List StoredAllocation}
  {remove : List PixAddressId}

omit [DecidableEq Fr] in
theorem competing_of_map {state next : SdkState}
    (hcompeting : state.Competing)
    (hrelay : next.relayAggregations.map (·.allocationIds) =
      state.relayAggregations.map (·.allocationIds))
    (hoperator : next.operatorAggregations = state.operatorAggregations) :
    next.Competing := by
  have hids : ∀ attempt ∈ next.relayAggregations,
      ∃ same ∈ state.relayAggregations,
        same.allocationIds = attempt.allocationIds := by
    intro attempt hattempt
    have hmem := List.mem_map_of_mem (f := (·.allocationIds)) hattempt
    rw [hrelay] at hmem
    exact List.mem_map.mp hmem
  refine ⟨fun first hfirst second hsecond => ?_, hoperator ▸
    hcompeting.operator⟩
  obtain ⟨one, hone, hfirst⟩ := hids first hfirst
  obtain ⟨other, hother, hsecond⟩ := hids second hsecond
  rw [← hfirst, ← hsecond]
  exact hcompeting.relay one hone other hother

omit [DecidableEq Fr] in
/-- Among competing attempts each names what any names. -/
theorem mem_relayIds {state : SdkState} (hcompeting : state.Competing)
    {attempt : StoredRelayAggregation}
    (hattempt : attempt ∈ state.relayAggregations) {id : PixAddressId} :
    id ∈ state.relayIds ↔ id ∈ attempt.allocationIds := by
  simp only [SdkState.relayIds, List.mem_flatten, List.mem_map]
  constructor
  · rintro ⟨_, ⟨other, hother, rfl⟩, hid⟩
    rw [hcompeting.relay attempt hattempt other hother]
    exact hid
  · exact fun hid => ⟨_, ⟨attempt, hattempt, rfl⟩, hid⟩

omit [DecidableEq Fr] in
theorem mem_operatorIds {state : SdkState} (hcompeting : state.Competing)
    {attempt : StoredOperatorAggregation}
    (hattempt : attempt ∈ state.operatorAggregations) {id : PixAddressId} :
    id ∈ state.operatorIds ↔ id ∈ attempt.allocationIds := by
  simp only [SdkState.operatorIds, List.mem_flatten, List.mem_map]
  constructor
  · rintro ⟨_, ⟨other, hother, rfl⟩, hid⟩
    rw [hcompeting.operator attempt hattempt other hother]
    exact hid
  · exact fun hid => ⟨_, ⟨attempt, hattempt, rfl⟩, hid⟩

omit [DecidableEq Fr] in
/-- A rewritten journal names the same allocations. -/
theorem Carried.of_map {state next : SdkState}
    {allocations : List StoredAllocation}
    (hrelay : next.relayAggregations.map (·.allocationIds) =
      state.relayAggregations.map (·.allocationIds))
    (hoperator : next.operatorAggregations = state.operatorAggregations)
    {lost : List PixAddressId}
    (hrecorded : ∀ record ∈ allocations, record.stage = .completed) :
    Carried state next allocations lost where
  relay id hid := Or.inl (by rw [SdkState.relayIds, hrelay]; exact hid)
  operator id hid :=
    Or.inl (by rw [SdkState.operatorIds, hoperator]; exact hid)
  recorded := Or.inl hrecorded

omit [DecidableEq Fr] in
theorem AttemptStep.rewritten_ids {state : SdkState} {cause : AttemptUpdate}
    {attempt rewritten : StoredRelayAggregation}
    (hlast : state.relayAggregations.getLast? = some attempt)
    (hstep : AttemptStep world.history state.relayAggregations.length attempt
      cause rewritten) :
    (state.relayAggregations.set (state.relayAggregations.length - 1)
      rewritten).map (·.allocationIds) =
      state.relayAggregations.map (·.allocationIds) :=
  map_set_same (List.getLast?_eq_getElem?.symm.trans hlast)
    (congrArg Spend.allocationIds hstep.spend)

omit [DecidableEq Fr] in
/-- Dropping one of several competing attempts loses no allocation. -/
theorem competing_dropLast {α : Type} {ids : α → List PixAddressId}
    {attempts : List α}
    (hcompeting : ∀ first ∈ attempts, ∀ second ∈ attempts,
      ids first = ids second) (hlength : attempts.length ≠ 1) :
    ∀ id ∈ (attempts.map ids).flatten,
      id ∈ (attempts.dropLast.map ids).flatten := by
  intro id hid
  obtain ⟨_, hlist, hid⟩ := List.mem_flatten.mp hid
  obtain ⟨attempt, hattempt, rfl⟩ := List.mem_map.mp hlist
  have hpos : 0 < attempts.dropLast.length := by
    have := List.length_pos_of_mem hattempt
    rw [List.length_dropLast]
    omega
  obtain ⟨other, hother⟩ := List.exists_mem_of_length_pos hpos
  have hmem := List.mem_of_mem_dropLast hother
  refine List.mem_flatten.mpr ⟨ids other, List.mem_map_of_mem hother, ?_⟩
  rw [hcompeting other hmem attempt hattempt]
  exact hid

omit [DecidableEq Fr] in
theorem DurableStep.competing
    (hstep : DurableStep config distinct world update next allocations remove)
    (hcompeting : world.memory.Competing) : next.Competing := by
  have happend : ∀ {α : Type} {ids : α → List PixAddressId}
      {attempts : List α} {attempt : α},
      (∀ first ∈ attempts, ∀ second ∈ attempts, ids first = ids second) →
      (∀ previous, attempts.getLast? = some previous →
        ids previous = ids attempt) →
      ∀ first ∈ attempts ++ [attempt], ∀ second ∈ attempts ++ [attempt],
        ids first = ids second := by
    intro α ids attempts attempt hsame hlast
    have hnew : ∀ other ∈ attempts ++ [attempt], ids other = ids attempt := by
      intro other hother
      rcases List.mem_append.mp hother with hother | hother
      · cases hget : attempts.getLast? with
        | none =>
            rw [List.getLast?_eq_none_iff.mp hget] at hother
            cases hother
        | some previous =>
            rw [hsame other hother previous (List.mem_of_getLast? hget)]
            exact hlast previous hget
      · rw [List.mem_singleton.mp hother]
    exact fun first hfirst second hsecond =>
      (hnew first hfirst).trans (hnew second hsecond).symm
  cases hstep with
  | prepareRelay hintent hproved hlength hspend =>
      refine ⟨happend hcompeting.relay fun previous hlast => ?_,
        hcompeting.operator⟩
      rw [hlast] at hspend
      exact (replaces_iff.mp hspend.2.1).2.1
  | saveRelayAttempt hlast hunmarked hstep =>
      exact competing_of_map hcompeting (hstep.rewritten_ids hlast) rfl
  | winnerMetadata hattempt hattempted hknown hhash hrequest =>
      exact competing_of_map hcompeting (map_set_same hattempt rfl) rfl
  | bookRelay => exact ⟨List.forall_mem_nil _, hcompeting.operator⟩
  | releaseRelay => exact ⟨List.forall_mem_nil _, hcompeting.operator⟩
  | dropRejectedAttempt hlast hattempts hrefused =>
      exact ⟨fun first hfirst second hsecond => hcompeting.relay first
        (List.mem_of_mem_dropLast hfirst) second
        (List.mem_of_mem_dropLast hsecond), hcompeting.operator⟩
  | prepareOperator hproved hrelay hlength hspend =>
      refine ⟨hcompeting.relay, happend hcompeting.operator
        fun previous hlast => ?_⟩
      rw [hlast] at hspend
      exact (competesWith_iff.mp hspend.1).2.1
  | bookOperator => exact ⟨hcompeting.relay, List.forall_mem_nil _⟩
  | releaseOperator => exact ⟨hcompeting.relay, List.forall_mem_nil _⟩
  | dropOperatorAttempt hlast hattempts hfailed =>
      exact ⟨hcompeting.relay, fun first hfirst second hsecond =>
        hcompeting.operator first (List.mem_of_mem_eraseIdx hfirst) second
          (List.mem_of_mem_eraseIdx hsecond)⟩

omit [DecidableEq Fr] in
/-- A save carries on the journalled allocations which it does not give up, and
removes the records of no others. -/
theorem DurableStep.carried
    (hstep : DurableStep config distinct world update next allocations remove)
    (hcompeting : world.memory.Competing) :
    Carried world.memory next allocations (update.givesUp world.memory) ∧
      remove ⊆ update.givesUp world.memory := by
  cases hstep with
  | prepareRelay hintent hproved hlength hspend =>
      refine ⟨⟨fun id hid => Or.inl ?_, fun id hid => Or.inl hid,
        Or.inr fun id hid => Or.inl ?_⟩, List.nil_subset _⟩
      · simp only [SdkState.relayIds, List.map_append, List.flatten_append]
        exact List.mem_append_left _ hid
      · simp only [SdkState.relayIds, List.map_append, List.flatten_append]
        apply List.mem_append_right
        simpa [SdkM.relayAttempt] using hid
  | saveRelayAttempt hlast hunmarked hstep =>
      refine ⟨?_, List.nil_subset _⟩
      apply Carried.of_map _ _ (List.forall_mem_nil _)
      · exact hstep.rewritten_ids hlast
      · rfl
  | winnerMetadata hattempt hattempted hknown hhash hrequest =>
      refine ⟨?_, List.nil_subset _⟩
      apply Carried.of_map _ _ (List.forall_mem_nil _)
      · exact map_set_same hattempt rfl
      · rfl
  | bookRelay hattempt hattempted hknown hfinal hchange hcompleted =>
      refine ⟨⟨fun id hid => Or.inr (Or.inl ?_), fun id hid => Or.inl hid,
        Or.inl hcompleted.stage⟩, List.nil_subset _⟩
      rw [hcompleted.ids]
      exact (mem_relayIds hcompeting (List.mem_of_getElem? hattempt)).mp hid
  | releaseRelay hattempts hunmarked hdead =>
      refine ⟨⟨fun id hid => Or.inr (Or.inr hid), fun id hid => Or.inl hid,
        Or.inl (List.forall_mem_nil _)⟩, fun id hid => ?_⟩
      exact (mem_relayIds hcompeting (hattempts ▸
        List.mem_singleton_self _)).mpr hid
  | dropRejectedAttempt hlast hattempts hrefused =>
      exact ⟨⟨fun id hid => Or.inl (competing_dropLast hcompeting.relay
        hattempts id hid), fun id hid => Or.inl hid,
        Or.inl (List.forall_mem_nil _)⟩, List.nil_subset _⟩
  | prepareOperator hproved hrelay hlength hspend =>
      refine ⟨⟨fun id hid => Or.inl hid, fun id hid => Or.inl ?_,
        Or.inr fun id hid => Or.inr ?_⟩, List.nil_subset _⟩
      · simp only [SdkState.operatorIds, List.map_append, List.flatten_append]
        exact List.mem_append_left _ hid
      · simp only [SdkState.operatorIds, List.map_append, List.flatten_append]
        apply List.mem_append_right
        simpa [SdkM.operatorAttempt] using hid
  | bookOperator hattempt hwinner hfinal hchange hcompleted =>
      refine ⟨⟨fun id hid => Or.inl hid, fun id hid => Or.inr (Or.inl ?_),
        Or.inl hcompleted.stage⟩, List.nil_subset _⟩
      rw [hcompleted.ids]
      exact (mem_operatorIds hcompeting
        (List.mem_of_getElem? hattempt)).mp hid
  | releaseOperator hattempts hfailed =>
      refine ⟨⟨fun id hid => Or.inl hid, fun id hid => Or.inr (Or.inr hid),
        Or.inl (List.forall_mem_nil _)⟩, fun id hid => ?_⟩
      exact (mem_operatorIds hcompeting (hattempts ▸
        List.mem_singleton_self _)).mpr hid
  | dropOperatorAttempt hlast hattempts hfailed =>
      refine ⟨⟨fun id hid => Or.inl hid, fun id hid => Or.inl ?_,
        Or.inl (List.forall_mem_nil _)⟩, List.nil_subset _⟩
      rw [SdkState.operatorIds, List.eraseIdx_length_sub_one]
      exact competing_dropLast hcompeting.operator hattempts id hid

omit [DecidableEq Fr] in
/-- What was held, or is recorded by the save, is held after it or lost. -/
theorem Carried.held {before next : SdkState}
    {allocations : List StoredAllocation} {remove lost : List PixAddressId}
    {table : AllocationTable}
    (hcarried : Carried before next allocations lost) (hremove : remove ⊆ lost)
    {id : PixAddressId}
    (hid : id ∈ before.relayIds ∨ id ∈ before.operatorIds ∨
      table.Completed id ∨ id ∈ allocations.map StoredAllocation.id) :
    (id ∈ next.relayIds ∨ id ∈ next.operatorIds ∨
      (table.update allocations remove).Completed id) ∨ id ∈ lost := by
  by_cases hlost : id ∈ lost
  · exact Or.inr hlost
  left
  have hkept : (table.update allocations remove).find id =
      (table.update allocations []).find id := by
    have hmem : id ∉ remove := fun h => hlost (hremove h)
    simp [AllocationTable.update, hmem]
  have hrecorded : id ∈ allocations.map StoredAllocation.id →
      id ∈ next.relayIds ∨ id ∈ next.operatorIds ∨
        (table.update allocations remove).Completed id := by
    intro hmem
    rcases hcarried.recorded with hcompleted | hjournalled
    · refine Or.inr (Or.inr ?_)
      unfold AllocationTable.Completed
      rw [hkept]
      exact AllocationTable.stage_after_update hcompleted (Or.inl hmem)
    · exact (hjournalled id hmem).imp_right Or.inl
  rcases hid with hid | hid | hid | hid
  · rcases hcarried.relay id hid with h | h | h
    · exact Or.inl h
    · exact hrecorded h
    · exact absurd h hlost
  · rcases hcarried.operator id hid with h | h | h
    · exact Or.inr (Or.inl h)
    · exact hrecorded h
    · exact absurd h hlost
  · by_cases hmem : id ∈ allocations.map StoredAllocation.id
    · exact hrecorded hmem
    · refine Or.inr (Or.inr ?_)
      unfold AllocationTable.Completed
      rw [hkept, AllocationTable.update_find_of_not_mem List.not_mem_nil hmem]
      exact hid
  · exact hrecorded hid

/-! ## The invariant -/

/-- What was touched is held, unless it was given up since. -/
structure Tracked (start : SdkState) (world : SdkWorld Fr) : Prop where
  stored : stored start world.history = world.disk
  journals : world.phase ≠ .saved →
    world.memory.relayAggregations = world.disk.relayAggregations ∧
      world.memory.operatorAggregations = world.disk.operatorAggregations
  competing : world.disk.Competing
  held : ∀ id ∈ unreleased start world.history, Held world id

omit [DecidableEq Fr] in
theorem competing_congr {state next : SdkState}
    (hcompeting : state.Competing)
    (hrelay : next.relayAggregations = state.relayAggregations)
    (hoperator : next.operatorAggregations = state.operatorAggregations) :
    next.Competing :=
  competing_of_map hcompeting (by rw [hrelay]) hoperator

namespace Tracked

omit [DecidableEq Fr] in
/-- An event which stores nothing. -/
theorem noted (htracked : Tracked start world) {event : SdkEvent Fr}
    {after : SdkWorld Fr} (hstores : event.stores = none)
    (hhistory : after.history = event :: world.history)
    (hdisk : after.disk = world.disk) (hrecords : after.records = world.records)
    (hjournals : after.phase ≠ .saved →
      after.memory.relayAggregations = world.disk.relayAggregations ∧
        after.memory.operatorAggregations =
          world.disk.operatorAggregations) : Tracked start after where
  stored := by
    rw [hhistory, hdisk]
    exact (stored_of_stores_none hstores).trans htracked.stored
  journals := by
    rw [hdisk]
    exact hjournals
  competing := by
    rw [hdisk]
    exact htracked.competing
  held := by
    rw [hhistory]
    intro id hid
    unfold Held
    rw [hdisk, hrecords]
    rcases List.mem_append.mp (List.mem_of_mem_filter hid) with hid | hid
    · rw [htracked.stored] at hid
      rcases SdkEvent.touches_journalled hstores hid with hrelay | hoperator
      · exact Or.inl hrelay
      · exact Or.inr (Or.inl hoperator.1)
    · exact htracked.held id hid

omit [DecidableEq Fr] in
/-- A save which succeeded. -/
theorem saved (htracked : Tracked start world) {after : SdkWorld Fr}
    (hhistory : after.history =
      ⟨.saveUpdate update next allocations remove, .ok ()⟩ :: world.history)
    (hdisk : after.disk = next)
    (hrecords : after.records = world.records.update allocations remove)
    (hcompeting : next.Competing)
    (hcarried : Carried world.disk next allocations
      (update.givesUp world.disk))
    (hremove : remove ⊆ update.givesUp world.disk)
    (hjournals : after.phase ≠ .saved →
      after.memory.relayAggregations = next.relayAggregations ∧
        after.memory.operatorAggregations = next.operatorAggregations) :
    Tracked start after where
  stored := by
    rw [hhistory, hdisk]
    rfl
  journals := by
    rw [hdisk]
    exact hjournals
  competing := by
    rw [hdisk]
    exact hcompeting
  held := by
    rw [hhistory]
    intro id hid
    unfold Held
    rw [hdisk, hrecords]
    obtain ⟨hid, hgiven⟩ := List.mem_filter.mp hid
    have hkept : id ∈ world.disk.relayIds ∨ id ∈ world.disk.operatorIds ∨
        world.records.Completed id ∨
        id ∈ allocations.map StoredAllocation.id := by
      rcases List.mem_append.mp hid with hid | hid
      · refine Or.inr (Or.inr (Or.inr ?_))
        obtain ⟨record, hrecord, rfl⟩ := List.mem_map.mp hid
        exact List.mem_map_of_mem (List.mem_of_mem_filter hrecord)
      · exact (htracked.held id hid).imp_right (Or.imp_right Or.inl)
    refine (hcarried.held hremove hkept).resolve_right fun hlost => ?_
    rw [htracked.stored] at hgiven
    exact of_decide_eq_true hgiven hlost

theorem step (htracked : Tracked start world) {call : SdkCall Fr}
    {reply : call.Reply} {after : SdkWorld Fr}
    (hstep : GuardedStep config distinct world call reply after) :
    Tracked start after := by
  have hjournals := htracked.journals
  cases hstep with
  | read => exact htracked
  | external reply hexternal =>
      exact htracked.noted (SdkEvent.stores_of_not_saves
        (SdkEvent.saves_external hexternal reply)) rfl rfl rfl hjournals
  | found => exact htracked.noted rfl rfl rfl rfl hjournals
  | missed => exact htracked.noted rfl rfl rfl rfl hjournals
  | missedMutated id hid hreply hphase =>
      exact htracked.noted rfl rfl rfl rfl fun _ =>
        hjournals (by simp [hphase])
  | mutated hphase hstep =>
      obtain ⟨hrelay, hoperator⟩ := hjournals (by simp [hphase])
      exact { htracked with
        journals := fun _ => ⟨hstep.journals.1.trans hrelay,
          hstep.journals.2.trans hoperator⟩ }
  | clearedIds hphase => exact { htracked with journals := hjournals }
  | assigned => exact { htracked with journals := fun _ => ⟨rfl, rfl⟩ }
  | saved hphase hupdate hstep =>
      obtain ⟨hrelay, hoperator⟩ := hjournals (by simp [hphase])
      have hcompeting := competing_congr htracked.competing hrelay hoperator
      obtain ⟨hcarried, hremove⟩ := hstep.carried hcompeting
      have hids : world.memory.relayIds = world.disk.relayIds ∧
          world.memory.operatorIds = world.disk.operatorIds := by
        simp only [SdkState.relayIds, SdkState.operatorIds, hrelay, hoperator,
          and_self]
      have hgives : ∀ update : Update,
          update.givesUp world.memory = update.givesUp world.disk := by
        intro update
        unfold Update.givesUp
        rw [hids.1, hids.2]
      rw [hgives] at hcarried hremove
      refine htracked.saved rfl rfl rfl (hstep.competing hcompeting)
        ⟨?_, ?_, hcarried.recorded⟩ hremove fun h => absurd rfl h
      · rw [← hids.1]
        exact hcarried.relay
      · rw [← hids.2]
        exact hcarried.operator
  | saveFailed => exact htracked.noted rfl rfl rfl rfl hjournals
  | persisted hphase hupdate hcompleted hread =>
      obtain ⟨hrelay, hoperator⟩ := hjournals (by simp [hphase])
      exact htracked.saved rfl rfl rfl
        (competing_congr htracked.competing hrelay hoperator)
        (.of_map (by rw [hrelay]) hoperator hcompleted.stage)
        (List.nil_subset _) fun _ => ⟨rfl, rfl⟩
  | stranded error hphase hupdate =>
      exact htracked.noted rfl rfl rfl rfl fun _ =>
        hjournals (by simp [hphase])

omit [DecidableEq Fr] in
theorem resumed (htracked : Tracked start world) (hhalted : Halted world) :
    Tracked start world.resumed :=
  { htracked with
    journals := fun _ => htracked.journals (by
      rcases hhalted with hphase | hphase <;> simp [hphase]) }

end Tracked

/-! ## Reports -/

/-- An update gives up the only aggregation of its journal, and the last reply
was about it: the relayer refused its POST or said that its request has failed,
or the SDK said that its submission has definitively failed. -/
inductive GivenUpOn (state : SdkState) (earlier : List (SdkEvent Fr)) :
    Update → Prop
  | relay {attempt : StoredRelayAggregation}
      (hattempts : state.relayAggregations = [attempt])
      (hdead : Refused earlier attempt.intent false ∨
        ∃ text, Awaited earlier attempt (.error (.failed text))) :
      GivenUpOn state earlier (.finishRelay none)
  | operator {attempt : StoredOperatorAggregation}
      (hattempts : state.operatorAggregations = [attempt])
      (hfailed : ∃ (config : SdkConfig Fr) (endpoints : CurvyChainEndpoints)
        (request : PixAggregationRequest Fr) (inputs : List (OwnedNote Fr))
        (records : List StoredAllocation) (message : String),
        attempt = SdkM.operatorAttempt config endpoints request inputs
          records ∧
        LastReported earlier (.submitPixAggregation request)
          (.error ⟨message, false⟩)) :
      GivenUpOn state earlier (.finishOperator none)

/-- Every save which gave an aggregation up directly follows a report of
it. -/
def GivenUpReported (start : SdkState) : List (SdkEvent Fr) → Prop
  | [] => True
  | event :: earlier =>
      (∀ update next, event.stores = some (update, next) →
        update.givesUp (stored start earlier) ≠ [] →
          GivenUpOn (stored start earlier) earlier update) ∧
        GivenUpReported start earlier

omit [DecidableEq Fr] in
theorem Update.givesUp_of_mutatesFirst {state : SdkState} {update : Update}
    (hupdate : update.mutatesFirst = true) : update.givesUp state = [] := by
  cases update <;> first | rfl | cases hupdate

omit [DecidableEq Fr] in
theorem GivenUpReported.cons {event : SdkEvent Fr}
    {earlier : List (SdkEvent Fr)} (hreported : GivenUpReported start earlier)
    (hstores : event.stores = none) :
    GivenUpReported start (event :: earlier) := by
  refine ⟨fun update next hsome => ?_, hreported⟩
  rw [hstores] at hsome
  cases hsome

theorem Tracked.reported (htracked : Tracked start world)
    (hreported : GivenUpReported start world.history) {call : SdkCall Fr}
    {reply : call.Reply} {after : SdkWorld Fr}
    (hstep : GuardedStep config distinct world call reply after) :
    GivenUpReported start after.history := by
  cases hstep with
  | read => exact hreported
  | external reply hexternal =>
      exact hreported.cons (SdkEvent.stores_of_not_saves
        (SdkEvent.saves_external hexternal reply))
  | found => exact hreported.cons rfl
  | missed => exact hreported.cons rfl
  | missedMutated => exact hreported.cons rfl
  | mutated => exact hreported
  | clearedIds => exact hreported
  | assigned => exact hreported
  | saved hphase hupdate hstep =>
      refine ⟨?_, hreported⟩
      rintro update next ⟨_⟩ hgives
      obtain ⟨hrelay, hoperator⟩ := htracked.journals (by simp [hphase])
      rw [htracked.stored]
      cases hstep with
      | releaseRelay hattempts hunmarked hdead =>
          exact .relay (hrelay ▸ hattempts) hdead
      | releaseOperator hattempts hfailed =>
          obtain ⟨endpoints, request, inputs, records, message, heq, hlast⟩ :=
            hfailed
          exact .operator (hoperator ▸ hattempts)
            ⟨config, endpoints, request, inputs, records, message, heq, hlast⟩
      | _ => exact absurd rfl hgives
  | saveFailed => exact hreported.cons rfl
  | persisted hphase hupdate =>
      refine ⟨?_, hreported⟩
      rintro _ next ⟨_⟩ hgives
      exact absurd (Update.givesUp_of_mutatesFirst hupdate) hgives
  | stranded => exact hreported.cons rfl

/-! ## Sessions -/

theorem trackedSession (codec : NoteCodec Fr) (hstart : start.Competing)
    (records : AllocationTable) :
    SessionInvariant sdkEnvironment
      (fun world => world = .agreeing start records)
      (JournalOperation codec) SdkWorld.resumed SdkWorld.reloaded
      (SessionGuard codec) (fun _ after => Halted after)
      (fun _ after => Halted after) (Tracked start)
      (fun world => Tracked start world ∧ Halted world) where
  started := by
    rintro _ rfl
    exact ⟨⟨rfl, fun _ => ⟨rfl, rfl⟩, hstart, by rintro _ ⟨⟩⟩, Or.inl rfl⟩
  begun := fun _ h => h.1.resumed h.2
  recovered := fun _ h =>
    ⟨{ h with journals := fun _ => ⟨rfl, rfl⟩ }, Or.inl rfl⟩
  returned := fun _ _ htracked hhalted => ⟨htracked, hhalted⟩
  failed := fun _ _ htracked hhalted => ⟨htracked, hhalted⟩
  obeys := fun _ _ hoperation _ => hoperation.obeys rfl
  step := by
    rintro before request reply after hbefore ⟨config, rfl, hguard⟩ henv
    exact hbefore.step (guardedStep_of_guard hguard henv)

/-- The stored attempts of a journal compete for the same allocations, and
every allocation whose aggregation was submitted, resumed or completed is in a
journal or recorded as completed, unless it was given up, and since then was
not touched again. -/
structure NothingLost (start : SdkState) (world : SdkWorld Fr) : Prop where
  competing : world.disk.Competing
  held : ∀ id ∈ touched start world.history,
    Held world id ∨ id ∈ givenUp start world.history
  again : ∀ id ∈ unreleased start world.history, Held world id

omit [DecidableEq Fr] in
theorem Tracked.nothingLost (htracked : Tracked start world) :
    NothingLost start world where
  competing := htracked.competing
  held := fun id hid =>
    (mem_unreleased_or_givenUp hid).imp_left (htracked.held id)
  again := htracked.held

/-- In every world a session passes through nothing is lost. -/
theorem touchedHeld {codec : NoteCodec Fr} {records : AllocationTable}
    (hstart : start.Competing)
    (hreached : JournalReached codec start records world) :
    NothingLost start world :=
  (trackedSession codec hstart records).passes
    (fun _ h => h.1.nothingLost) (fun _ h => h.nothingLost) hreached

end

/-! ## A journalled deposit which is refused a proof -/

def feeRefusal : String :=
  "fee-collector identity does not own the aggregator's feeNotePublicKey"

/-- A chain which knows every note, a relayer which accepts a POST and forgets
its request, and an SDK which refuses every proof. -/
def refusingAnswer (world : SdkWorld (Fin 10)) (call : SdkCall (Fin 10)) :
    call.Reply × SdkWorld (Fin 10) :=
  let reply : call.Reply := match call with
    | .client => .ok { digitEndpoints with shieldRouter := some "router" }
    | .token => .ok (0 : ℕ)
    | .saveUpdate _ _ _ _ => .ok ()
    | .allocation _ id => .ok (world.records.find id)
    | .noteStatus _ => .ok (1 : ℕ)
    | .commit _ => .ok []
    | .relayFee _ _ => .ok none
    | .protocolFeeCollector => .ok none
    | .pixMinimumInput _ _ => .ok (20 : ℕ)
    | .prepareDirectShield _ _ => .ok (digitNote (digit 1) (digit 9))
    | .buildPixAggregation _ _ _ _ => .error feeRefusal
    | .relaySubmit _ => .ok (.accepted ⟨"request", .queued, none, none⟩)
    | .awaitInclusion submission =>
        awaitInclusion submission [.error (.missingRequest "request")]
    | call => unreachable world call
  (reply, world.after call reply)

/-- An aggregation of a deposit which was journalled and never POSTed. -/
def journalledState : SdkState :=
  { SdkState.fresh none with
    funding := [StoredNote.ofOwned digitCodec (digitNote (digit 1) (digit 9))]
    relayAggregations :=
      [{ unpostedAttempt with
        inputs :=
          [StoredNote.ofOwned digitCodec (digitNote (digit 1) (digit 9))]
        allocationIds := [openDeposit.id] }] }

def journalledWorld : SdkWorld (Fin 10) :=
  .agreeing journalledState
    (AllocationTable.empty.update [.new openDeposit] [])

/-- It is POSTed, forgotten by the relayer, and refused another proof. -/
def refusedWorld : SdkWorld (Fin 10) :=
  ((SdkM.ensureFunded (digitConfig .relayer) (.saturating 9) "recovery").play
    refusingAnswer journalledWorld.resumed).2

theorem permits_refusingAnswer (world : SdkWorld (Fin 10))
    (call : SdkCall (Fin 10)) :
    sdkEnvironment world call (refusingAnswer world call).1
      (refusingAnswer world call).2 := by
  refine ⟨?_, rfl⟩
  cases call with
  | allocation reader id => exact Or.inl rfl
  | readState => exact permits_unreachable world .readState
  | awaitInclusion submission => exact ⟨_, rfl⟩
  | _ => trivial

theorem journalledState_competing : journalledState.Competing :=
  ⟨by simp [journalledState], by simp [journalledState, SdkState.fresh]⟩

theorem touchedHeld_refusedWorld :
    openDeposit.id ∈ touched journalledState refusedWorld.history ∧
      NothingLost journalledState refusedWorld := by
  refine ⟨by decide +kernel, touchedHeld journalledState_competing
    (Or.inr ⟨_, _, _, .start rfl, ⟨digitConfig .relayer, rfl,
      .ensureFunded (.saturating 9) "recovery", fun hreset => by cases hreset⟩,
      Program.play_runs refusingAnswer permits_refusingAnswer _ _⟩)⟩

end HoprStrategy.Curvy
