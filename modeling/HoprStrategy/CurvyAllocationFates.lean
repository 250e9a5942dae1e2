import HoprStrategy.CurvyRelayRelease

/-!
# What becomes of a journalled aggregation

An aggregation pays the ids of its attempt when it lands.  While no call names
an id twice, and no wait fails beside an earlier copy, an aggregation which
left the journals was paid or is dead.  The proofs which can land with one id
then all spend the same inputs, and the chain accepts one of them at most.
-/

namespace HoprStrategy.Curvy

open Library SdkWorld

variable {Fr : Type} {codec : NoteCodec Fr} {start state next : SdkState}
  {records written : AllocationTable} {history : List (SdkEvent Fr)}
  {event : SdkEvent Fr} {spend : Spend}

/-! ## Journalled aggregations -/

namespace SdkEvent

/-- The relay attempt an event added to the journal. -/
def relayPrepared (event : SdkEvent Fr) : Option StoredRelayAggregation :=
  match event.stores with
  | some (.prepareRelay, next) => next.relayAggregations.getLast?
  | _ => none

def operatorPrepared (event : SdkEvent Fr) :
    Option StoredOperatorAggregation :=
  match event.stores with
  | some (.prepareOperator, next) => next.operatorAggregations.getLast?
  | _ => none

def prepared (event : SdkEvent Fr) : Option Spend :=
  (event.relayPrepared.map StoredRelayAggregation.spend).or
    (event.operatorPrepared.map StoredOperatorAggregation.spend)

/-- The change of an aggregation whose submission the SDK reported as
definitely failed. -/
def abandoned (codec : NoteCodec Fr) : SdkEvent Fr → Option StoredNote
  | ⟨.submitPixAggregation request, .error ⟨_, false⟩⟩ =>
      some (StoredNote.ofOwned codec request.change)
  | _ => none

theorem relayPrepared_of_prepared (hprepared : event.prepared = none) :
    event.relayPrepared = none :=
  Option.map_eq_none_iff.mp (Option.or_eq_none_iff.mp hprepared).1

theorem prepared_of_stores_none (hstores : event.stores = none) :
    event.prepared = none := by
  simp [prepared, relayPrepared, operatorPrepared, hstores]

theorem prepared_of_update {update : Update}
    (hstores : event.stores = some (update, next))
    (hrelay : update ≠ .prepareRelay) (hoperator : update ≠ .prepareOperator) :
    event.prepared = none := by
  cases update <;>
    first
      | exact absurd rfl hrelay
      | exact absurd rfl hoperator
      | simp [prepared, relayPrepared, operatorPrepared, hstores]

theorem relayPrepared_of_concat {attempts : List StoredRelayAggregation}
    {attempt : StoredRelayAggregation}
    (hstores : event.stores = some (.prepareRelay, next))
    (hnext : next.relayAggregations = attempts ++ [attempt]) :
    event.relayPrepared = some attempt := by
  simp [relayPrepared, hstores, hnext]

theorem prepared_of_relay {attempts : List StoredRelayAggregation}
    {attempt : StoredRelayAggregation}
    (hstores : event.stores = some (.prepareRelay, next))
    (hnext : next.relayAggregations = attempts ++ [attempt]) :
    event.prepared = some attempt.spend := by
  simp [prepared, relayPrepared_of_concat hstores hnext]

theorem prepared_of_operator {attempts : List StoredOperatorAggregation}
    {attempt : StoredOperatorAggregation}
    (hstores : event.stores = some (.prepareOperator, next))
    (hnext : next.operatorAggregations = attempts ++ [attempt]) :
    event.prepared = some attempt.spend := by
  simp [prepared, relayPrepared, operatorPrepared, hstores, hnext]

end SdkEvent

/-- The relay attempts which were journalled, the last one first. -/
def relayed (history : List (SdkEvent Fr)) : List StoredRelayAggregation :=
  history.filterMap SdkEvent.relayPrepared

/-- What the journalled attempts spend, that of the last one first. -/
def aggregations (history : List (SdkEvent Fr)) : List Spend :=
  history.filterMap SdkEvent.prepared

/-- The UUIDs which were drawn. -/
def uuids (history : List (SdkEvent Fr)) : List String :=
  history.filterMap SdkEvent.drawn

/-- What the chain may accept of the journalled aggregations, each of which is
known by its change: never two over the same inputs, never one all of whose
POSTed copies are dead, and never one which was definitely not submitted. -/
structure Accepts (codec : NoteCodec Fr) (history : List (SdkEvent Fr))
    (accepted : StoredNote → Bool) : Prop where
  conflict : ∀ first ∈ aggregations history, ∀ second ∈ aggregations history,
    first.inputs = second.inputs → accepted first.change = true →
      accepted second.change = true → first.change = second.change
  posted : ∀ attempt ∈ relayed history, accepted attempt.change = true →
    ¬ NothingLands history attempt
  submitted : ∀ change ∈ history.filterMap (SdkEvent.abandoned codec),
    accepted change = false

/-- The ids which the accepted aggregations pay, once for each output. -/
def paid (accepted : StoredNote → Bool) (history : List (SdkEvent Fr)) :
    List PixAddressId :=
  ((aggregations history).filter fun spend =>
    accepted spend.change).flatMap Spend.allocationIds

theorem mem_filterMap_cons {α : Type} {find : SdkEvent Fr → Option α}
    {value : α} :
    value ∈ (event :: history).filterMap find ↔
      find event = some value ∨ value ∈ history.filterMap find := by
  cases hfind : find event <;> simp [hfind, eq_comm]

theorem relayed_of_prepared (history : List (SdkEvent Fr))
    (hprepared : event.prepared = none) :
    relayed (event :: history) = relayed history :=
  List.filterMap_cons_none (SdkEvent.relayPrepared_of_prepared hprepared)

theorem aggregations_of_prepared (history : List (SdkEvent Fr))
    (hprepared : event.prepared = none) :
    aggregations (event :: history) = aggregations history :=
  List.filterMap_cons_none hprepared

/-! ## Dead aggregations -/

/-- A POST is of an attempt which is not marked. -/
def PostsJournalled (journal : List StoredRelayAggregation)
    (event : SdkEvent Fr) : Prop :=
  ∀ intent, event.postsProof intent = true →
    ∃ attempt ∈ journal, attempt.rebuild = false ∧ attempt.intent = intent

/-- The attempts which are not marked were so before, or carry an intent which
no attempt had. -/
def RenewsIntents (journal : List StoredRelayAggregation)
    (history : List (SdkEvent Fr)) (next : List StoredRelayAggregation) :
    Prop :=
  ∀ attempt ∈ next, attempt.rebuild = false →
    (∃ old ∈ journal, old.rebuild = false ∧ old.intent = attempt.intent) ∨
      ∀ old ∈ relayed history, old.intent ≠ attempt.intent

/-- No copy of the aggregation can land any more, and none will be POSTed. -/
inductive Dead (codec : NoteCodec Fr) (journal : List StoredRelayAggregation)
    (history : List (SdkEvent Fr)) (spend : Spend) : Prop
  | relay {attempt : StoredRelayAggregation}
      (hattempt : attempt ∈ relayed history) (hspend : attempt.spend = spend)
      (hdead : NothingLands history attempt)
      (hleft : ∀ other ∈ journal, other.rebuild = false →
        other.intent ≠ attempt.intent)
  | operator
      (habandoned : spend.change ∈
        history.filterMap (SdkEvent.abandoned codec))

theorem NothingLands.cons {attempt : StoredRelayAggregation}
    (hdead : NothingLands history attempt)
    (hquiet : event.postsProof attempt.intent = false) :
    NothingLands (event :: history) attempt := by
  intro later post earlier hsplit hpost
  cases later with
  | nil =>
      cases hsplit
      rw [hquiet] at hpost
      cases hpost
  | cons head later =>
      obtain ⟨hhead, hhistory⟩ := List.cons.inj hsplit
      rw [List.append_eq] at hhistory
      rcases hdead later post earlier hhistory hpost with hrefused | hfailed
      · exact Or.inl hrefused
      · obtain ⟨recent, submission, text, between, hlater, hfailed⟩ := hfailed
        refine Or.inr ⟨head :: recent, submission, text, between, ?_, hfailed⟩
        rw [hlater, List.cons_append]

theorem Dead.cons {journal renewed : List StoredRelayAggregation}
    (hdead : Dead codec journal history spend)
    (hposts : PostsJournalled journal event)
    (hrenews : RenewsIntents journal history renewed) :
    Dead codec renewed (event :: history) spend := by
  cases hdead with
  | @relay attempt hattempt hspend hdead hleft =>
      have hquiet : event.postsProof attempt.intent = false := by
        by_contra hpost
        obtain ⟨other, hother, hunmarked, hsame⟩ :=
          hposts attempt.intent (by simpa using hpost)
        exact hleft other hother hunmarked hsame
      refine .relay (mem_filterMap_cons.mpr (Or.inr hattempt)) hspend
        (hdead.cons hquiet) ?_
      intro other hother hunmarked hsame
      rcases hrenews other hother hunmarked with ⟨old, hold, hkept, heq⟩ |
        hnew
      · exact hleft old hold hkept (heq.trans hsame)
      · exact hnew attempt hattempt hsame.symm
  | operator habandoned =>
      exact .operator (mem_filterMap_cons.mpr (Or.inr habandoned))

theorem Dead.unaccepted {journal : List StoredRelayAggregation}
    {accepted : StoredNote → Bool} (hdead : Dead codec journal history spend)
    (haccepts : Accepts codec history accepted) :
    accepted spend.change = false := by
  cases hdead with
  | @relay attempt hattempt hspend hdead _ =>
      by_contra haccepted
      have hlanded : accepted attempt.spend.change = true := by
        rw [hspend]
        simpa using haccepted
      exact haccepts.posted attempt hattempt hlanded hdead
  | operator habandoned => exact haccepts.submitted _ habandoned

/-! ## The journals and what was journalled -/

/-- Versions of one attempt. -/
structure SameProof (first second : StoredRelayAggregation) : Prop where
  intent : first.intent = second.intent
  chainId : first.chainId = second.chainId
  spend : first.spend = second.spend

/-- The attempts in the journals were journalled once, each with a change and
an intent of its own. -/
structure Ledger (codec : NoteCodec Fr) (state : SdkState)
    (history : List (SdkEvent Fr)) : Prop where
  members : ∀ spend ∈ state.spends, spend ∈ aggregations history
  proofs : ∀ attempt ∈ state.relayAggregations,
    ∃ first ∈ relayed history, SameProof first attempt
  nodup : ∀ spend ∈ aggregations history, spend.allocationIds.Nodup
  changes : ((aggregations history).map Spend.change).Nodup
  known : ∀ spend ∈ aggregations history,
    spend.change ∈ issuedNotes codec history
  unused : ∀ note ∈ issuedNotes codec (sinceSave history),
    ∀ spend ∈ aggregations history, spend.change ≠ note
  intents : ∀ attempt ∈ relayed history, attempt.intent ∈ uuids history
  unusedIntents : ∀ intent ∈ uuids (sinceSave history),
    ∀ attempt ∈ relayed history, attempt.intent ≠ intent
  posts : ∀ post ∈ history, ∀ intent, post.postsProof intent = true →
    ∃ attempt ∈ relayed history, attempt.intent = intent

namespace Ledger

/-- An event which adds no attempt. -/
theorem keep (hledger : Ledger codec state history)
    (hprepared : event.prepared = none)
    (hissued : ∀ note, event.issued codec = some note →
      note ∉ issuedNotes codec history)
    (hdrawn : ∀ intent, event.drawn = some intent → intent ∉ uuids history)
    (hposts : PostsJournalled state.relayAggregations event)
    (hspends : ∀ spend ∈ next.spends, spend ∈ state.spends)
    (hproofs : ∀ attempt ∈ next.relayAggregations,
      ∃ old ∈ state.relayAggregations, SameProof old attempt) :
    Ledger codec next (event :: history) := by
  have haggregations := aggregations_of_prepared history hprepared
  have hrelayed := relayed_of_prepared history hprepared
  have hpostsOld : ∀ intent, event.postsProof intent = true →
      ∃ attempt ∈ relayed history, attempt.intent = intent := by
    intro intent hpost
    obtain ⟨attempt, hattempt, _, rfl⟩ := hposts intent hpost
    obtain ⟨first, hfirst, hsame⟩ := hledger.proofs attempt hattempt
    exact ⟨first, hfirst, hsame.intent⟩
  constructor
  · intro spend hspend
    rw [haggregations]
    exact hledger.members spend (hspends spend hspend)
  · intro attempt hattempt
    obtain ⟨old, hold, hsame⟩ := hproofs attempt hattempt
    obtain ⟨first, hfirst, hversion⟩ := hledger.proofs old hold
    rw [hrelayed]
    exact ⟨first, hfirst, hversion.intent.trans hsame.intent,
      hversion.chainId.trans hsame.chainId, hversion.spend.trans hsame.spend⟩
  · rw [haggregations]
    exact hledger.nodup
  · rw [haggregations]
    exact hledger.changes
  · intro spend hspend
    rw [haggregations] at hspend
    exact mem_filterMap_cons.mpr (Or.inr (hledger.known spend hspend))
  · intro note hnote spend hspend
    rw [haggregations] at hspend
    cases hsaves : event.saves with
    | true =>
        rw [sinceSave_of_saves hsaves] at hnote
        cases hnote
    | false =>
        rw [sinceSave_cons hsaves] at hnote
        rcases mem_filterMap_cons.mp hnote with hnew | hold
        · intro hsame
          exact hissued note hnew (hsame ▸ hledger.known spend hspend)
        · exact hledger.unused note hold spend hspend
  · intro attempt hattempt
    rw [hrelayed] at hattempt
    exact mem_filterMap_cons.mpr (Or.inr (hledger.intents attempt hattempt))
  · intro intent hintent attempt hattempt
    rw [hrelayed] at hattempt
    cases hsaves : event.saves with
    | true =>
        rw [sinceSave_of_saves hsaves] at hintent
        cases hintent
    | false =>
        rw [sinceSave_cons hsaves] at hintent
        rcases mem_filterMap_cons.mp hintent with hnew | hold
        · intro hsame
          exact hdrawn intent hnew (hsame ▸ hledger.intents attempt hattempt)
        · exact hledger.unusedIntents intent hold attempt hattempt
  · intro post hpost intent hproof
    rw [hrelayed]
    rcases List.mem_cons.mp hpost with heq | hold
    · exact hpostsOld intent (heq ▸ hproof)
    · exact hledger.posts post hold intent hproof

/-- An attempt is journalled. -/
theorem append (hledger : Ledger codec state history)
    (hsaves : event.saves = true) (hquiet : ∀ intent,
      event.postsProof intent = false)
    (hprepared : event.prepared = some spend)
    (hissued : spend.change ∈ issuedNotes codec (sinceSave history))
    (hnodup : spend.allocationIds.Nodup)
    (hspends : ∀ other ∈ next.spends, other ∈ state.spends ∨ other = spend)
    (hproofs : ∀ attempt ∈ next.relayAggregations,
      attempt ∈ state.relayAggregations ∨
        event.relayPrepared = some attempt)
    (hintent : ∀ attempt, event.relayPrepared = some attempt →
      attempt.intent ∈ uuids history) :
    Ledger codec next (event :: history) := by
  have haggregations : aggregations (event :: history) =
      spend :: aggregations history := List.filterMap_cons_some hprepared
  have hmono : ∀ attempt ∈ relayed history,
      attempt ∈ relayed (event :: history) := fun attempt hattempt =>
    mem_filterMap_cons.mpr (Or.inr hattempt)
  constructor
  · intro other hother
    rw [haggregations]
    rcases hspends other hother with hold | heq
    · exact List.mem_cons_of_mem spend (hledger.members other hold)
    · rw [heq]
      exact List.mem_cons_self
  · intro attempt hattempt
    rcases hproofs attempt hattempt with hold | hnew
    · obtain ⟨first, hfirst, hsame⟩ := hledger.proofs attempt hold
      exact ⟨first, hmono first hfirst, hsame⟩
    · exact ⟨attempt, mem_filterMap_cons.mpr (Or.inl hnew), rfl, rfl, rfl⟩
  · rw [haggregations]
    exact List.forall_mem_cons.mpr ⟨hnodup, hledger.nodup⟩
  · rw [haggregations, List.map_cons, List.nodup_cons]
    refine ⟨?_, hledger.changes⟩
    intro hmem
    obtain ⟨other, hother, hsame⟩ := List.mem_map.mp hmem
    exact hledger.unused spend.change hissued other hother hsame
  · intro other hother
    rw [haggregations] at hother
    refine mem_filterMap_cons.mpr (Or.inr ?_)
    rcases List.mem_cons.mp hother with heq | hold
    · rw [heq]
      exact issuedNotes_sinceSave codec history hissued
    · exact hledger.known other hold
  · intro note hnote
    rw [sinceSave_of_saves hsaves] at hnote
    cases hnote
  · intro attempt hattempt
    refine mem_filterMap_cons.mpr (Or.inr ?_)
    rcases mem_filterMap_cons.mp hattempt with hnew | hold
    · exact hintent attempt hnew
    · exact hledger.intents attempt hold
  · intro intent hintent
    rw [sinceSave_of_saves hsaves] at hintent
    cases hintent
  · intro post hpost intent hproof
    rcases List.mem_cons.mp hpost with heq | hold
    · rw [heq, hquiet intent] at hproof
      cases hproof
    · obtain ⟨attempt, hattempt, hsame⟩ :=
        hledger.posts post hold intent hproof
      exact ⟨attempt, hmono attempt hattempt, hsame⟩

end Ledger

/-! ## What becomes of an aggregation -/

/-- The record of the id is Completed. -/
def AllocationTable.Completed (table : AllocationTable) (id : PixAddressId) :
    Prop :=
  ∃ record, table.find id = some record ∧ record.stage = .completed

/-- The attempts in the journals spend and pay the same.  One which left them
was paid or is dead, so that of two which pay one id one is dead, unless they
spend the same inputs. -/
structure Fates (codec : NoteCodec Fr) (state : SdkState)
    (records : AllocationTable) (history : List (SdkEvent Fr)) : Prop where
  generation : ∀ first ∈ state.spends, ∀ second ∈ state.spends,
    first.inputs = second.inputs ∧
      first.allocationIds = second.allocationIds
  fate : ∀ spend ∈ aggregations history, spend ∈ state.spends ∨
    (∀ id ∈ spend.allocationIds, records.Completed id) ∨
      Dead codec state.relayAggregations history spend
  conflicts : ∀ first ∈ aggregations history,
    ∀ second ∈ aggregations history, first.change ≠ second.change →
      ∀ id ∈ first.allocationIds, id ∈ second.allocationIds →
        first.inputs = second.inputs ∨
          Dead codec state.relayAggregations history first ∨
          Dead codec state.relayAggregations history second

namespace Fates

/-- An event which adds no attempt. -/
theorem keep (hfates : Fates codec state records history)
    (hprepared : event.prepared = none)
    (hspends : ∀ spend ∈ next.spends, spend ∈ state.spends)
    (hcompleted : ∀ id, records.Completed id → written.Completed id)
    (hdead : ∀ spend, Dead codec state.relayAggregations history spend →
      Dead codec next.relayAggregations (event :: history) spend)
    (hleft : ∀ spend ∈ state.spends, spend ∈ next.spends ∨
      (∀ id ∈ spend.allocationIds, written.Completed id) ∨
        Dead codec next.relayAggregations (event :: history) spend) :
    Fates codec next written (event :: history) where
  generation first hfirst second hsecond :=
    hfates.generation first (hspends first hfirst) second
      (hspends second hsecond)
  fate spend hspend := by
    rw [aggregations_of_prepared history hprepared] at hspend
    rcases hfates.fate spend hspend with hlive | hpaid | hold
    · exact hleft spend hlive
    · exact Or.inr (Or.inl fun id hid => hcompleted id (hpaid id hid))
    · exact Or.inr (Or.inr (hdead spend hold))
  conflicts first hfirst second hsecond hdistinct id hid hother := by
    rw [aggregations_of_prepared history hprepared] at hfirst hsecond
    rcases hfates.conflicts first hfirst second hsecond hdistinct id hid
      hother with hsame | hold | hold
    · exact Or.inl hsame
    · exact Or.inr (Or.inl (hdead first hold))
    · exact Or.inr (Or.inr (hdead second hold))

/-- Two aggregations which pay one id, the second of which is new. -/
theorem conflict_new (hfates : Fates codec state records history)
    (hgeneration : ∀ other ∈ state.spends, other.inputs = spend.inputs ∧
      other.allocationIds = spend.allocationIds)
    (hopen : ∀ id ∈ spend.allocationIds, ¬ records.Completed id)
    {other : Spend} (hother : other ∈ aggregations history)
    {id : PixAddressId} (hid : id ∈ other.allocationIds)
    (hnew : id ∈ spend.allocationIds) :
    other.inputs = spend.inputs ∨
      Dead codec state.relayAggregations history other := by
  rcases hfates.fate other hother with hlive | hpaid | hdead
  · exact Or.inl (hgeneration other hlive).1
  · exact absurd (hpaid id hid) (hopen id hnew)
  · exact Or.inr hdead

/-- An attempt is journalled. -/
theorem append (hfates : Fates codec state records history)
    (hprepared : event.prepared = some spend)
    (hspends : ∀ other, other ∈ next.spends ↔
      other ∈ state.spends ∨ other = spend)
    (hgeneration : ∀ other ∈ state.spends, other.inputs = spend.inputs ∧
      other.allocationIds = spend.allocationIds)
    (hopen : ∀ id ∈ spend.allocationIds, ¬ records.Completed id)
    (hcompleted : ∀ id, records.Completed id → written.Completed id)
    (hdead : ∀ other, Dead codec state.relayAggregations history other →
      Dead codec next.relayAggregations (event :: history) other) :
    Fates codec next written (event :: history) := by
  have haggregations : aggregations (event :: history) =
      spend :: aggregations history := List.filterMap_cons_some hprepared
  have halike : ∀ other ∈ next.spends, other.inputs = spend.inputs ∧
      other.allocationIds = spend.allocationIds := by
    intro other hother
    rcases (hspends other).mp hother with hold | heq
    · exact hgeneration other hold
    · rw [heq]
      exact ⟨rfl, rfl⟩
  constructor
  · intro first hfirst second hsecond
    obtain ⟨hinputs, hids⟩ := halike first hfirst
    obtain ⟨hinputs', hids'⟩ := halike second hsecond
    exact ⟨hinputs.trans hinputs'.symm, hids.trans hids'.symm⟩
  · intro other hother
    rw [haggregations] at hother
    rcases List.mem_cons.mp hother with heq | hold
    · exact Or.inl ((hspends other).mpr (Or.inr heq))
    · rcases hfates.fate other hold with hlive | hpaid | hold
      · exact Or.inl ((hspends other).mpr (Or.inl hlive))
      · exact Or.inr (Or.inl fun id hid => hcompleted id (hpaid id hid))
      · exact Or.inr (Or.inr (hdead other hold))
  · intro first hfirst second hsecond hdistinct id hid hother
    rw [haggregations] at hfirst hsecond
    rcases List.mem_cons.mp hfirst with hfirst | hfirst <;>
      rcases List.mem_cons.mp hsecond with hsecond | hsecond
    · rw [hfirst, hsecond] at hdistinct
      exact absurd rfl hdistinct
    · rw [hfirst] at hid ⊢
      rcases hfates.conflict_new hgeneration hopen hsecond hother hid with
        hsame | hold
      · exact Or.inl hsame.symm
      · exact Or.inr (Or.inr (hdead second hold))
    · rw [hsecond] at hother ⊢
      rcases hfates.conflict_new hgeneration hopen hfirst hid hother with
        hsame | hold
      · exact Or.inl hsame
      · exact Or.inr (Or.inl (hdead first hold))
    · rcases hfates.conflicts first hfirst second hsecond hdistinct id hid
        hother with hsame | hold | hold
      · exact Or.inl hsame
      · exact Or.inr (Or.inl (hdead first hold))
      · exact Or.inr (Or.inr (hdead second hold))

/-- The accepted aggregations pay every id once. -/
theorem paid_nodup (hfates : Fates codec state records history)
    (hledger : Ledger codec state history) {accepted : StoredNote → Bool}
    (haccepts : Accepts codec history accepted) :
    (paid accepted history).Nodup := by
  unfold paid
  rw [List.nodup_flatMap]
  constructor
  · intro spend hspend
    exact hledger.nodup spend (List.mem_of_mem_filter hspend)
  · have hchanges : (aggregations history).Pairwise
        fun first second => first.change ≠ second.change :=
      List.pairwise_map.mp hledger.changes
    apply (hchanges.filter _).imp_of_mem
    intro first second hfirst hsecond hdistinct id hid hother
    obtain ⟨hfirst, hlanded⟩ := List.mem_filter.mp hfirst
    obtain ⟨hsecond, hlanded'⟩ := List.mem_filter.mp hsecond
    rcases hfates.conflicts first hfirst second hsecond hdistinct id hid
      hother with hsame | hdead | hdead
    · exact hdistinct
        (haccepts.conflict first hfirst second hsecond hsame hlanded hlanded')
    · rw [hdead.unaccepted haccepts] at hlanded
      cases hlanded
    · rw [hdead.unaccepted haccepts] at hlanded'
      cases hlanded'

end Fates

/-! ## The records -/

theorem AllocationTable.Prepared.open {table : AllocationTable}
    {id : PixAddressId} (hprepared : table.Prepared id) :
    ¬ table.Completed id := by
  rintro ⟨record, hfind, hcompleted⟩
  obtain ⟨other, hother, hstage⟩ := hprepared
  rw [hfind, Option.some.injEq] at hother
  rw [← hother, hcompleted] at hstage
  cases hstage

theorem FreshRecords.open {world : SdkWorld Fr}
    {allocations : List StoredAllocation}
    (hfresh : FreshRecords world allocations) :
    ∀ id ∈ allocations.map StoredAllocation.id,
      ¬ world.records.Completed id := by
  intro id hid
  obtain ⟨record, hrecord, rfl⟩ := List.mem_map.mp hid
  rcases (hfresh.2 record hrecord).2 with hnone | ⟨existing, hfind, hstage, _⟩
  · rintro ⟨other, hother, _⟩
    rw [hnone] at hother
    cases hother
  · exact AllocationTable.Prepared.open ⟨existing, hfind, hstage⟩

/-- Records which are not Completed are written. -/
theorem AllocationTable.Completed.after_prepare {table : AllocationTable}
    {allocations : List StoredAllocation} {id : PixAddressId}
    (hopen : ∀ id ∈ allocations.map StoredAllocation.id,
      ¬ table.Completed id) (hcompleted : table.Completed id) :
    (table.update allocations []).Completed id := by
  have hother : id ∉ allocations.map StoredAllocation.id := fun hid =>
    hopen id hid hcompleted
  unfold AllocationTable.Completed
  rw [AllocationTable.update_find_of_not_mem List.not_mem_nil hother]
  exact hcompleted

/-- Records which are not Completed are removed. -/
theorem AllocationTable.Completed.after_remove {table : AllocationTable}
    {remove : List PixAddressId} {id : PixAddressId}
    (hopen : ∀ id ∈ remove, ¬ table.Completed id)
    (hcompleted : table.Completed id) :
    (table.update [] remove).Completed id := by
  have hother : id ∉ remove := fun hid => hopen id hid hcompleted
  unfold AllocationTable.Completed
  rw [AllocationTable.update_find_of_not_mem hother List.not_mem_nil]
  exact hcompleted

theorem CompletedRecords.ids {world : SdkWorld Fr} {ids : List PixAddressId}
    {completed : List StoredAllocation}
    (hcompleted : CompletedRecords world ids completed) :
    completed.map StoredAllocation.id = ids := by
  obtain ⟨found, hfound, rfl⟩ := hcompleted
  rw [List.map_map]
  induction hfound with
  | nil => rfl
  | @cons id record ids found hfind _ ih =>
      rw [List.map_cons, ih]
      exact congrArg (· :: ids) (world.records.keyed id record hfind)

theorem CompletedRecords.stage {world : SdkWorld Fr} {ids : List PixAddressId}
    {completed : List StoredAllocation}
    (hcompleted : CompletedRecords world ids completed) :
    ∀ record ∈ completed, record.stage = .completed := by
  obtain ⟨found, _, rfl⟩ := hcompleted
  intro record hrecord
  obtain ⟨_, _, rfl⟩ := List.mem_map.mp hrecord
  rfl

theorem AllocationTable.Completed.after_booking {world : SdkWorld Fr}
    {ids : List PixAddressId} {completed : List StoredAllocation}
    (hcompleted : CompletedRecords world ids completed) {id : PixAddressId}
    (hid : id ∈ ids ∨ world.records.Completed id) :
    (world.records.update completed []).Completed id := by
  apply AllocationTable.stage_after_update hcompleted.stage
  rw [hcompleted.ids]
  exact hid

/-! ## Saved steps -/

theorem SdkEvent.saves_of_stores {update : Update}
    (hstores : event.stores = some (update, next)) : event.saves = true := by
  by_contra hunsaved
  rw [SdkEvent.stores_of_not_saves (by simpa using hunsaved)] at hstores
  cases hstores

theorem SdkEvent.drawn_of_saves (hsaves : event.saves = true) :
    event.drawn = none := by
  rcases event with ⟨call, reply⟩
  cases call with
  | uuid => cases hsaves
  | _ => rfl

theorem PostsJournalled.of_stores {journal : List StoredRelayAggregation}
    {update : Update} (hstores : event.stores = some (update, next)) :
    PostsJournalled journal event := by
  intro intent hpost
  rw [SdkEvent.postsProof_of_stores hstores] at hpost
  cases hpost

theorem Ledger.rewrite {update : Update} (hledger : Ledger codec state history)
    (hstores : event.stores = some (update, next))
    (hrelay : update ≠ .prepareRelay) (hoperator : update ≠ .prepareOperator)
    (hspends : ∀ spend ∈ next.spends, spend ∈ state.spends)
    (hproofs : ∀ attempt ∈ next.relayAggregations,
      ∃ old ∈ state.relayAggregations, SameProof old attempt) :
    Ledger codec next (event :: history) := by
  have hsaves := SdkEvent.saves_of_stores hstores
  apply hledger.keep (SdkEvent.prepared_of_update hstores hrelay hoperator)
    _ _ (.of_stores hstores) hspends hproofs
  · intro note hissued
    rw [SdkEvent.issued_of_saves hsaves] at hissued
    cases hissued
  · intro intent hdrawn
    rw [SdkEvent.drawn_of_saves hsaves] at hdrawn
    cases hdrawn

theorem SameProof.refl (attempt : StoredRelayAggregation) :
    SameProof attempt attempt :=
  ⟨rfl, rfl, rfl⟩

theorem AttemptStep.sameProof {attempts : ℕ} {cause : AttemptUpdate}
    {attempt rewritten : StoredRelayAggregation}
    (hstep : AttemptStep history attempts attempt cause rewritten) :
    SameProof attempt rewritten := by
  cases hstep <;> exact ⟨rfl, rfl, rfl⟩

/-- The state with one entry of the relay journal rewritten. -/
abbrev SdkState.rewritten (state : SdkState) (index : ℕ)
    (attempt : StoredRelayAggregation) : SdkState :=
  { state with
    relayAggregations := state.relayAggregations.set index attempt }

theorem mem_spends_rewritten {index : ℕ}
    {attempt other : StoredRelayAggregation}
    (hattempt : state.relayAggregations[index]? = some attempt)
    (hsame : SameProof attempt other) (spend : Spend) :
    spend ∈ (state.rewritten index other).spends ↔ spend ∈ state.spends := by
  unfold SdkState.spends
  rw [map_set_same hattempt hsame.spend.symm]

theorem Ledger.rewriteAttempt {cause : AttemptUpdate} {index : ℕ}
    {attempt other : StoredRelayAggregation}
    (hledger : Ledger codec state history)
    (hattempt : state.relayAggregations[index]? = some attempt)
    (hsame : SameProof attempt other)
    (hstores : event.stores =
      some (.saveRelayAttempt cause, state.rewritten index other)) :
    Ledger codec (state.rewritten index other) (event :: history) := by
  apply hledger.rewrite hstores (fun h => by cases h) (fun h => by cases h)
  · intro spend hspend
    exact (mem_spends_rewritten hattempt hsame spend).mp hspend
  · intro version hversion
    rcases List.mem_or_eq_of_mem_set hversion with hold | heq
    · exact ⟨version, hold, .refl version⟩
    · rw [heq]
      exact ⟨attempt, List.mem_of_getElem? hattempt, hsame⟩

theorem RenewsIntents.of_subset {journal renewed : List StoredRelayAggregation}
    (hsubset : renewed ⊆ journal) : RenewsIntents journal history renewed :=
  fun attempt hattempt hunmarked =>
    Or.inl ⟨attempt, hsubset hattempt, hunmarked, rfl⟩

theorem Fates.rewriteAttempt {cause : AttemptUpdate} {index : ℕ}
    {attempt other : StoredRelayAggregation}
    (hfates : Fates codec state records history)
    (hattempt : state.relayAggregations[index]? = some attempt)
    (hsame : SameProof attempt other)
    (hmarked : other.rebuild = false → attempt.rebuild = false)
    (hstores : event.stores =
      some (.saveRelayAttempt cause, state.rewritten index other)) :
    Fates codec (state.rewritten index other) records (event :: history) := by
  have hrenews : RenewsIntents state.relayAggregations history
      (state.rewritten index other).relayAggregations := by
    intro version hversion hunmarked
    rcases List.mem_or_eq_of_mem_set hversion with hold | heq
    · exact Or.inl ⟨version, hold, hunmarked, rfl⟩
    · rw [heq] at hunmarked ⊢
      exact Or.inl ⟨attempt, List.mem_of_getElem? hattempt,
        hmarked hunmarked, hsame.intent⟩
  apply hfates.keep (SdkEvent.prepared_of_update hstores
    (fun h => by cases h) fun h => by cases h)
  · exact fun spend hspend =>
      (mem_spends_rewritten hattempt hsame spend).mp hspend
  · exact fun id hcompleted => hcompleted
  · exact fun spend hdead => hdead.cons (.of_stores hstores) hrenews
  · exact fun spend hspend =>
      Or.inl ((mem_spends_rewritten hattempt hsame spend).mpr hspend)

theorem NothingLands.version {first second : StoredRelayAggregation}
    (hdead : NothingLands history second) (hsame : SameProof first second) :
    NothingLands history first := by
  unfold NothingLands NoneLands
  rw [hsame.intent, hsame.chainId]
  exact hdead

/-- A journalled attempt no copy of which can land leaves nothing unmarked
behind. -/
theorem Ledger.dead {attempt : StoredRelayAggregation}
    {journal : List StoredRelayAggregation}
    (hledger : Ledger codec state history)
    (hattempt : attempt ∈ state.relayAggregations)
    (hdead : NothingLands history attempt)
    (hmarked : ∀ other ∈ journal, other.rebuild = true) :
    Dead codec journal history attempt.spend := by
  obtain ⟨first, hfirst, hsame⟩ := hledger.proofs attempt hattempt
  refine .relay hfirst hsame.spend (hdead.version hsame) ?_
  intro other hother hunmarked
  rw [hmarked other hother] at hunmarked
  cases hunmarked

section

variable [DecidableEq Fr] {config : SdkConfig Fr} {world : SdkWorld Fr}
  {update : Update} {allocations : List StoredAllocation}
  {remove : List PixAddressId}

omit [DecidableEq Fr] in
theorem Proved.change_issued {inputs : List (OwnedNote Fr)}
    {request : PixAggregationRequest Fr}
    (hproved : Proved (sinceSave history) inputs request) :
    StoredNote.ofOwned codec request.change ∈
      issuedNotes codec (sinceSave history) := by
  obtain ⟨_, _, _, hbuilt⟩ := hproved
  exact mem_issuedNotes hbuilt rfl

omit [DecidableEq Fr] in
theorem LastReported.drawn {intent : String}
    (hintent : LastReported history .uuid intent) :
    intent ∈ uuids (sinceSave history) := by
  obtain ⟨older, rfl⟩ := hintent.history_eq
  rw [sinceSave_cons rfl]
  exact List.mem_cons_self

omit [DecidableEq Fr] in
theorem uuids_sinceSave (history : List (SdkEvent Fr)) :
    uuids (sinceSave history) ⊆ uuids history :=
  ((List.takeWhile_sublist _).filterMap _).subset

omit [DecidableEq Fr] in
/-- What a saved step leaves of the ledger. -/
theorem DurableStep.ledger
    (hstep : DurableStep config True world update next allocations remove)
    (hledger : Ledger config.codec world.memory world.history) :
    Ledger config.codec next
      (⟨.saveUpdate update next allocations remove, .ok ()⟩ ::
        world.history) := by
  cases hstep with
  | prepareRelay hintent hproved _ hspend =>
      have hids : (allocations.map StoredAllocation.id).Nodup := by
        cases hlast : world.memory.relayAggregations.getLast? with
        | none =>
            rw [hlast] at hspend
            exact (hspend.fresh trivial).1
        | some previous =>
            rw [hlast] at hspend
            rw [← (replaces_iff.mp hspend.2.1).2.1]
            exact hledger.nodup _ (hledger.members _
              (mem_spends_relay (List.mem_of_getLast? hlast)))
      apply hledger.append rfl (SdkEvent.postsProof_of_stores rfl)
        (SdkEvent.prepared_of_relay rfl rfl)
      · exact hproved.change_issued
      · exact hids
      · intro other hother
        simp only [SdkState.spends, List.map_append, List.mem_append,
          List.map_cons, List.map_nil, List.mem_singleton] at hother ⊢
        rcases hother with (hold | hnew) | hold
        · exact Or.inl (Or.inl hold)
        · exact Or.inr hnew
        · exact Or.inl (Or.inr hold)
      · intro attempt hattempt
        rcases List.mem_append.mp hattempt with hold | hnew
        · exact Or.inl hold
        · rw [List.mem_singleton.mp hnew]
          exact Or.inr (SdkEvent.relayPrepared_of_concat rfl rfl)
      · intro attempt hattempt
        have hnew := hattempt.symm.trans
          (SdkEvent.relayPrepared_of_concat rfl rfl)
        rw [Option.some.inj hnew]
        exact uuids_sinceSave world.history hintent.drawn
  | saveRelayAttempt hlast _ hattempt =>
      exact hledger.rewriteAttempt (getElem?_of_getLast? hlast)
        hattempt.sameProof rfl
  | winnerMetadata hattempt _ _ _ _ =>
      exact hledger.rewriteAttempt hattempt ⟨rfl, rfl, rfl⟩ rfl
  | bookRelay _ _ _ _ _ _ =>
      apply hledger.rewrite rfl (fun h => by cases h) (fun h => by cases h)
      · exact fun spend hspend => List.mem_append_right _ hspend
      · exact List.forall_mem_nil _
  | releaseRelay _ _ _ =>
      apply hledger.rewrite rfl (fun h => by cases h) (fun h => by cases h)
      · exact fun spend hspend => List.mem_append_right _ hspend
      · exact List.forall_mem_nil _
  | dropRejectedAttempt _ _ _ =>
      apply hledger.rewrite rfl (fun h => by cases h) (fun h => by cases h)
      · intro spend hspend
        exact (((List.dropLast_sublist _).map _).append_right _).subset hspend
      · exact fun attempt hattempt =>
          ⟨attempt, List.dropLast_subset _ hattempt, .refl attempt⟩
  | prepareOperator hproved _ _ hspend =>
      have hids : (allocations.map StoredAllocation.id).Nodup := by
        cases hlast : world.memory.operatorAggregations.getLast? with
        | none =>
            rw [hlast] at hspend
            exact (hspend.fresh trivial).1
        | some previous =>
            rw [hlast] at hspend
            have hsame : previous.allocationIds =
                allocations.map StoredAllocation.id :=
              (competesWith_iff.mp hspend.1).2.1
            rw [← hsame]
            exact hledger.nodup _ (hledger.members _
              (mem_spends_operator (List.mem_of_getLast? hlast)))
      apply hledger.append rfl (SdkEvent.postsProof_of_stores rfl)
        (SdkEvent.prepared_of_operator rfl rfl)
      · exact hproved.change_issued
      · exact hids
      · intro other hother
        simp only [SdkState.spends, List.map_append, List.mem_append,
          List.map_cons, List.map_nil, List.mem_singleton] at hother ⊢
        rcases hother with hold | hold | hnew
        · exact Or.inl (Or.inl hold)
        · exact Or.inl (Or.inr hold)
        · exact Or.inr hnew
      · exact fun attempt hattempt => Or.inl hattempt
      · intro attempt hattempt
        cases hattempt
  | bookOperator _ _ _ _ _ =>
      apply hledger.rewrite rfl (fun h => by cases h) (fun h => by cases h)
      · intro spend hspend
        simp only [SdkState.spends, List.map_nil, List.append_nil] at hspend
        exact List.mem_append_left _ hspend
      · exact fun attempt hattempt => ⟨attempt, hattempt, .refl attempt⟩
  | releaseOperator _ _ =>
      apply hledger.rewrite rfl (fun h => by cases h) (fun h => by cases h)
      · intro spend hspend
        simp only [SdkState.spends, List.map_nil, List.append_nil] at hspend
        exact List.mem_append_left _ hspend
      · exact fun attempt hattempt => ⟨attempt, hattempt, .refl attempt⟩
  | dropOperatorAttempt _ _ _ =>
      apply hledger.rewrite rfl (fun h => by cases h) (fun h => by cases h)
      · intro spend hspend
        exact (((List.eraseIdx_sublist _ _).map _).append_left _).subset
          hspend
      · exact fun attempt hattempt => ⟨attempt, hattempt, .refl attempt⟩

omit [DecidableEq Fr] in
theorem Dead.of_failed {journal : List StoredRelayAggregation}
    {attempt : StoredOperatorAggregation}
    (hfailed : ∃ endpoints request inputs records message,
      attempt = SdkM.operatorAttempt config endpoints request inputs records ∧
        LastReported history (.submitPixAggregation request)
          (.error ⟨message, false⟩)) :
    Dead config.codec journal history attempt.spend := by
  obtain ⟨_, request, _, _, message, rfl, hlast⟩ := hfailed
  exact .operator (List.mem_filterMap.mpr ⟨_, hlast.reported, rfl⟩)

omit [DecidableEq Fr] in
/-- What a saved step leaves of the fates. -/
theorem DurableStep.fates
    (hstep : DurableStep config True world update next allocations remove)
    (hfates : Fates config.codec world.memory world.records world.history)
    (hledger : Ledger config.codec world.memory world.history)
    (hprepared : PreparedSpends world.records world.memory)
    (hinv : JournalInvariant config.codec start world)
    (hlanding : Landing SdkEvent.namesRequest start
      world.disk.relayAggregations world.history)
    (hphase : world.phase = .settled)
    (halone : FailsAlone start world.history) :
    Fates config.codec next (world.records.update allocations remove)
      (⟨.saveUpdate update next allocations remove, .ok ()⟩ ::
        world.history) := by
  have hjournal := hinv.journal (by simp [hphase])
  have hstored : (stored start world.history).relayAggregations =
      world.memory.relayAggregations := by
    rw [hinv.stored, hjournal]
  rw [← hjournal] at hlanding
  have hpreparedOpen : ∀ spend ∈ world.memory.spends,
      ∀ id ∈ spend.allocationIds, ¬ world.records.Completed id :=
    fun spend hspend id hid => (hprepared spend hspend id hid).open
  cases hstep with
  | @prepareRelay endpoints intent request inputs _ hintent _ _ hspend =>
      have halike : (∀ other ∈ world.memory.spends,
          other.inputs = inputs.map (StoredNote.ofOwned config.codec) ∧
            other.allocationIds = allocations.map StoredAllocation.id) ∧
          ∀ id ∈ allocations.map StoredAllocation.id,
            ¬ world.records.Completed id := by
        cases hlast : world.memory.relayAggregations.getLast? with
        | none =>
            rw [hlast] at hspend
            refine ⟨?_, (hspend.fresh trivial).open⟩
            simp [SdkState.spends, hspend.relay, hspend.operator]
        | some previous =>
            rw [hlast] at hspend
            have hprevious := mem_spends_relay (List.mem_of_getLast? hlast)
            obtain ⟨hinputs, hids, _⟩ := replaces_iff.mp hspend.2.1
            rw [← hinputs, ← hids]
            exact ⟨fun other hother => hfates.generation other hother _
              hprevious, hpreparedOpen _ hprevious⟩
      have hrenews : RenewsIntents world.memory.relayAggregations
          world.history (world.memory.relayAggregations ++
            [SdkM.relayAttempt config endpoints intent request
              (inputs.map (StoredNote.ofOwned config.codec))
              (allocations.map StoredAllocation.id)]) := by
        intro attempt hattempt hunmarked
        rcases List.mem_append.mp hattempt with hold | hnew
        · exact Or.inl ⟨attempt, hold, hunmarked, rfl⟩
        · rw [List.mem_singleton.mp hnew]
          exact Or.inr (hledger.unusedIntents intent hintent.drawn)
      apply hfates.append (SdkEvent.prepared_of_relay rfl rfl)
      · intro other
        simp only [SdkState.spends, List.map_append, List.mem_append,
          List.map_cons, List.map_nil, List.mem_singleton]
        exact or_right_comm
      · exact halike.1
      · exact halike.2
      · exact fun id hpaid => .after_prepare halike.2 hpaid
      · exact fun other hdead => hdead.cons (.of_stores rfl) hrenews
  | saveRelayAttempt hlast hunmarked hattempt =>
      rw [AllocationTable.update_nil]
      exact hfates.rewriteAttempt (getElem?_of_getLast? hlast)
        hattempt.sameProof (fun _ => hunmarked) rfl
  | winnerMetadata hattempt _ _ _ _ =>
      rw [AllocationTable.update_nil]
      exact hfates.rewriteAttempt hattempt ⟨rfl, rfl, rfl⟩ id rfl
  | @bookRelay index attempt change completed hattempt _ _ _ _ hcompleted =>
      apply hfates.keep (SdkEvent.prepared_of_update rfl (fun h => by cases h)
        fun h => by cases h)
      · exact fun spend hspend => List.mem_append_right _ hspend
      · exact fun id hpaid => .after_booking hcompleted (Or.inr hpaid)
      · exact fun spend hdead =>
          hdead.cons (.of_stores rfl) (.of_subset (List.nil_subset _))
      · intro spend hspend
        refine Or.inr (Or.inl fun id hid => ?_)
        have hsame := (hfates.generation spend hspend _
          (mem_spends_relay (List.mem_of_getElem? hattempt))).2
        rw [hsame] at hid
        exact .after_booking hcompleted (Or.inl hid)
  | @releaseRelay attempt hattempts hunmarked hdead =>
      have hmem : attempt ∈ world.memory.relayAggregations := by
        rw [hattempts]
        exact List.mem_singleton_self attempt
      rw [hattempts] at hlanding hstored
      have hlost : Dead config.codec [] world.history attempt.spend :=
        hledger.dead hmem
          (hlanding.releases hstored halone (.refl start _) hunmarked hdead)
          (List.forall_mem_nil _)
      apply hfates.keep (SdkEvent.prepared_of_update rfl (fun h => by cases h)
        fun h => by cases h)
      · exact fun spend hspend => List.mem_append_right _ hspend
      · exact fun id hpaid =>
          .after_remove (hpreparedOpen _ (mem_spends_relay hmem)) hpaid
      · exact fun spend hdead =>
          hdead.cons (.of_stores rfl) (.of_subset (List.nil_subset _))
      · intro spend hspend
        rcases List.mem_append.mp hspend with hrelay | hoperator
        · rw [hattempts] at hrelay
          rw [List.mem_singleton.mp hrelay]
          exact Or.inr (Or.inr (hlost.cons (.of_stores rfl)
            (.of_subset (List.Subset.refl _))))
        · exact Or.inl (List.mem_append_right _ hoperator)
  | @dropRejectedAttempt attempt hlast _ hrefused =>
      have hlost : Dead config.codec world.memory.relayAggregations.dropLast
          world.history attempt.spend := by
        apply hledger.dead (List.mem_of_getLast? hlast)
        · exact hlanding.refusal (by rw [hstored]; exact hlast) hrefused
        · rw [hjournal]
          exact hinv.kept.marked
      rw [AllocationTable.update_nil]
      apply hfates.keep (SdkEvent.prepared_of_update rfl (fun h => by cases h)
        fun h => by cases h)
      · intro spend hspend
        exact (((List.dropLast_sublist _).map _).append_right _).subset hspend
      · exact fun id hpaid => hpaid
      · exact fun spend hdead =>
          hdead.cons (.of_stores rfl) (.of_subset (List.dropLast_subset _))
      · intro spend hspend
        rcases List.mem_append.mp hspend with hrelay | hoperator
        · rw [← List.dropLast_append_getLast? attempt hlast, List.map_append,
            List.mem_append] at hrelay
          rcases hrelay with hkept | hlast
          · exact Or.inl (List.mem_append_left _ hkept)
          · rw [List.mem_singleton.mp hlast]
            exact Or.inr (Or.inr (hlost.cons (.of_stores rfl)
              (.of_subset (List.Subset.refl _))))
        · exact Or.inl (List.mem_append_right _ hoperator)
  | @prepareOperator endpoints request inputs _ _ _ _ hspend =>
      have halike : (∀ other ∈ world.memory.spends,
          other.inputs = inputs.map (StoredNote.ofOwned config.codec) ∧
            other.allocationIds = allocations.map StoredAllocation.id) ∧
          ∀ id ∈ allocations.map StoredAllocation.id,
            ¬ world.records.Completed id := by
        cases hlast : world.memory.operatorAggregations.getLast? with
        | none =>
            rw [hlast] at hspend
            refine ⟨?_, (hspend.fresh trivial).open⟩
            simp [SdkState.spends, hspend.relay, hspend.operator]
        | some previous =>
            rw [hlast] at hspend
            have hprevious := mem_spends_operator (List.mem_of_getLast? hlast)
            obtain ⟨hinputs, hids, _⟩ := competesWith_iff.mp hspend.1
            constructor
            · intro other hother
              obtain ⟨hsame, hsame'⟩ :=
                hfates.generation other hother _ hprevious
              exact ⟨hsame.trans hinputs, hsame'.trans hids⟩
            · intro id hid
              have hsame : previous.spend.allocationIds =
                  allocations.map StoredAllocation.id := hids
              rw [← hsame] at hid
              exact hpreparedOpen _ hprevious id hid
      apply hfates.append (SdkEvent.prepared_of_operator rfl rfl)
      · intro other
        simp only [SdkState.spends, List.map_append, List.mem_append,
          List.map_cons, List.map_nil, List.mem_singleton]
        exact or_assoc.symm
      · exact halike.1
      · exact halike.2
      · exact fun id hpaid => .after_prepare halike.2 hpaid
      · exact fun other hdead =>
          hdead.cons (.of_stores rfl) (.of_subset (List.Subset.refl _))
  | @bookOperator index attempt change completed hattempt _ _ _ hcompleted =>
      apply hfates.keep (SdkEvent.prepared_of_update rfl (fun h => by cases h)
        fun h => by cases h)
      · intro spend hspend
        simp only [SdkState.spends, List.map_nil, List.append_nil] at hspend
        exact List.mem_append_left _ hspend
      · exact fun id hpaid => .after_booking hcompleted (Or.inr hpaid)
      · exact fun spend hdead =>
          hdead.cons (.of_stores rfl) (.of_subset (List.Subset.refl _))
      · intro spend hspend
        refine Or.inr (Or.inl fun id hid => ?_)
        have hsame := (hfates.generation spend hspend _
          (mem_spends_operator (List.mem_of_getElem? hattempt))).2
        rw [hsame] at hid
        exact .after_booking hcompleted (Or.inl hid)
  | @releaseOperator attempt hattempts hfailed =>
      have hmem : attempt ∈ world.memory.operatorAggregations := by
        rw [hattempts]
        exact List.mem_singleton_self attempt
      apply hfates.keep (SdkEvent.prepared_of_update rfl (fun h => by cases h)
        fun h => by cases h)
      · intro spend hspend
        simp only [SdkState.spends, List.map_nil, List.append_nil] at hspend
        exact List.mem_append_left _ hspend
      · exact fun id hpaid =>
          .after_remove (hpreparedOpen _ (mem_spends_operator hmem)) hpaid
      · exact fun spend hdead =>
          hdead.cons (.of_stores rfl) (.of_subset (List.Subset.refl _))
      · intro spend hspend
        rcases List.mem_append.mp hspend with hrelay | hoperator
        · exact Or.inl (List.mem_append_left _ hrelay)
        · rw [hattempts] at hoperator
          rw [List.mem_singleton.mp hoperator]
          exact Or.inr (Or.inr ((Dead.of_failed hfailed).cons (.of_stores rfl)
            (.of_subset (List.Subset.refl _))))
  | @dropOperatorAttempt attempt hlast _ hfailed =>
      have hkept : world.memory.operatorAggregations.eraseIdx
          (world.memory.operatorAggregations.length - 1) =
          world.memory.operatorAggregations.dropLast := by
        have hpositive := List.length_pos_of_mem (List.mem_of_getLast? hlast)
        exact List.eraseIdx_eq_dropLast (by omega)
      rw [AllocationTable.update_nil]
      apply hfates.keep (SdkEvent.prepared_of_update rfl (fun h => by cases h)
        fun h => by cases h)
      · intro spend hspend
        exact (((List.eraseIdx_sublist _ _).map _).append_left _).subset
          hspend
      · exact fun id hpaid => hpaid
      · exact fun spend hdead =>
          hdead.cons (.of_stores rfl) (.of_subset (List.Subset.refl _))
      · intro spend hspend
        rcases List.mem_append.mp hspend with hrelay | hoperator
        · exact Or.inl (List.mem_append_left _ hrelay)
        · rw [← List.dropLast_append_getLast? attempt hlast, List.map_append,
            List.mem_append] at hoperator
          rcases hoperator with hstays | hlast
          · refine Or.inl (List.mem_append_right _ ?_)
            dsimp only
            rw [hkept]
            exact hstays
          · rw [List.mem_singleton.mp hlast]
            exact Or.inr (Or.inr ((Dead.of_failed hfailed).cons
              (.of_stores rfl) (.of_subset (List.Subset.refl _))))

/-! ## Guarded steps -/

omit [DecidableEq Fr] in
theorem Ledger.congr (hledger : Ledger codec state history)
    (hrelay : next.relayAggregations = state.relayAggregations)
    (hoperator : next.operatorAggregations = state.operatorAggregations) :
    Ledger codec next history := by
  have hspends : next.spends = state.spends := by
    simp only [SdkState.spends, hrelay, hoperator]
  exact { hledger with
    members := by rw [hspends]; exact hledger.members
    proofs := by rw [hrelay]; exact hledger.proofs }

omit [DecidableEq Fr] in
theorem Fates.congr (hfates : Fates codec state records history)
    (hrelay : next.relayAggregations = state.relayAggregations)
    (hoperator : next.operatorAggregations = state.operatorAggregations) :
    Fates codec next records history := by
  have hspends : next.spends = state.spends := by
    simp only [SdkState.spends, hrelay, hoperator]
  constructor
  · rw [hspends]
    exact hfates.generation
  · rw [hspends, hrelay]
    exact hfates.fate
  · rw [hrelay]
    exact hfates.conflicts

omit [DecidableEq Fr] in
/-- UUIDs which are all distinct are fresh when they are drawn. -/
theorem FreshIntents.cons (hfresh : FreshIntents history)
    (hledger : Ledger codec state history)
    (huuids : (uuids (event :: history)).Nodup) :
    FreshIntents (event :: history) := by
  refine ⟨?_, hfresh⟩
  intro intent hintent post hpost
  by_contra hproof
  obtain ⟨attempt, hattempt, hsame⟩ :=
    hledger.posts post hpost intent (by simpa using hproof)
  have hdrawn : uuids (event :: history) = intent :: uuids history :=
    List.filterMap_cons_some hintent
  rw [hdrawn, List.nodup_cons] at huuids
  exact huuids.1 (hsame ▸ hledger.intents attempt hattempt)

omit [DecidableEq Fr] in
theorem not_mem_uuids (huuids : (uuids (event :: history)).Nodup)
    (intent : String) (hdrawn : event.drawn = some intent) :
    intent ∉ uuids history := by
  have hcons : uuids (event :: history) = intent :: uuids history :=
    List.filterMap_cons_some hdrawn
  rw [hcons, List.nodup_cons] at huuids
  exact huuids.1

omit [DecidableEq Fr] in
theorem uuids_nodup_of_cons (huuids : (uuids (event :: history)).Nodup) :
    (uuids history).Nodup :=
  huuids.sublist ((List.sublist_cons_self event history).filterMap _)

/-- What holds while the UUIDs are distinct and no wait fails beside a second
copy. -/
structure Once (codec : NoteCodec Fr) (start : SdkState)
    (world : SdkWorld Fr) : Prop where
  fresh : FreshIntents world.history
  landing : Landing SdkEvent.namesRequest start world.disk.relayAggregations
    world.history
  ledger : Ledger codec world.disk world.history
  fates : Fates codec world.disk world.records world.history

omit [DecidableEq Fr] in
/-- An event which adds no attempt and changes no journal. -/
theorem Once.unchanged {disk : SdkState} (honce : Once codec start world)
    (hprepared : event.prepared = none)
    (hissued : ∀ note, event.issued codec = some note →
      note ∉ issuedNotes codec world.history)
    (huuids : (uuids (event :: world.history)).Nodup)
    (hposts : PostsJournalled world.disk.relayAggregations event)
    (hrelay : disk.relayAggregations = world.disk.relayAggregations)
    (hoperator : disk.operatorAggregations = world.disk.operatorAggregations) :
    Ledger codec disk (event :: world.history) ∧
      Fates codec disk world.records (event :: world.history) := by
  have hspends : disk.spends = world.disk.spends := by
    simp only [SdkState.spends, hrelay, hoperator]
  have hrenews : RenewsIntents world.disk.relayAggregations world.history
      disk.relayAggregations := by
    rw [hrelay]
    exact .of_subset (List.Subset.refl _)
  constructor
  · apply honce.ledger.keep hprepared hissued (not_mem_uuids huuids) hposts
    · rw [hspends]
      exact fun spend hspend => hspend
    · rw [hrelay]
      exact fun attempt hattempt => ⟨attempt, hattempt, .refl attempt⟩
  · apply honce.fates.keep hprepared
    · rw [hspends]
      exact fun spend hspend => hspend
    · exact fun id hpaid => hpaid
    · exact fun spend hdead => hdead.cons hposts hrenews
    · rw [hspends]
      exact fun spend hspend => Or.inl hspend

/-- A POST is of the last attempt, which is not marked. -/
theorem Guard.postsJournalled {distinct : Prop} {call : SdkCall Fr}
    {reply : call.Reply} (hguard : Guard config distinct world call)
    (hinv : JournalInvariant codec start world) :
    PostsJournalled world.disk.relayAggregations ⟨call, reply⟩ := by
  intro intent hpost
  cases call with
  | relaySubmit body =>
      obtain ⟨hphase, haction⟩ := hguard
      simp only [SdkEvent.postsProof, Bool.and_eq_true, decide_eq_true_eq]
        at hpost
      obtain ⟨attempt, _, _, _, _, hlast, hunmarked, _, _, hbody, _⟩ :=
        haction (by simpa using hpost.1)
      rw [hinv.journal (by simp [hphase])] at hlast
      refine ⟨attempt, List.mem_of_getLast? hlast, hunmarked, ?_⟩
      rw [← hpost.2, hbody]
      rfl
  | _ => cases hpost

/-- Every guarded call keeps it. -/
theorem Once.step {before after : SdkWorld Fr} {call : SdkCall Fr}
    {reply : call.Reply} (hspends : SpendInvariant config.codec start before)
    (hinv : JournalInvariant config.codec start before)
    (honce : Once config.codec start before)
    (hstep : GuardedStep config True before call reply after)
    (hissued : ∀ note, SdkEvent.issued config.codec ⟨call, reply⟩ =
      some note → note ∉ issuedNotes config.codec before.history)
    (huuids : (uuids after.history).Nodup)
    (halone : FailsAlone start after.history) :
    Once config.codec start after := by
  have hlanding : FreshIntents after.history →
      Landing SdkEvent.namesRequest start after.disk.relayAggregations
        after.history :=
    fun hfresh => Landing.step hinv (fun _ _ _ => honce.landing) hstep hfresh
      halone (.refl start _)
  cases hstep with
  | read => exact honce
  | external reply hexternal hguard _ =>
      have hfresh := honce.fresh.cons honce.ledger huuids
      obtain ⟨hledger, hfates⟩ := honce.unchanged
        (SdkEvent.prepared_of_stores_none (SdkEvent.stores_of_not_saves
          (SdkEvent.saves_external hexternal reply))) hissued huuids
        (hguard.postsJournalled hinv) rfl rfl
      exact ⟨hfresh, hlanding hfresh, hledger, hfates⟩
  | found =>
      have hfresh := honce.fresh.cons honce.ledger huuids
      obtain ⟨hledger, hfates⟩ := honce.unchanged rfl hissued huuids
        (fun _ h => by cases h) rfl rfl
      exact ⟨hfresh, hlanding hfresh, hledger, hfates⟩
  | missed =>
      have hfresh := honce.fresh.cons honce.ledger huuids
      obtain ⟨hledger, hfates⟩ := honce.unchanged rfl hissued huuids
        (fun _ h => by cases h) rfl rfl
      exact ⟨hfresh, hlanding hfresh, hledger, hfates⟩
  | missedMutated =>
      have hfresh := honce.fresh.cons honce.ledger huuids
      obtain ⟨hledger, hfates⟩ := honce.unchanged rfl hissued huuids
        (fun _ h => by cases h) rfl rfl
      exact ⟨hfresh, hlanding hfresh, hledger, hfates⟩
  | mutated => exact ⟨honce.fresh, honce.landing, honce.ledger, honce.fates⟩
  | clearedIds => exact ⟨honce.fresh, honce.landing, honce.ledger, honce.fates⟩
  | assigned => exact ⟨honce.fresh, honce.landing, honce.ledger, honce.fates⟩
  | saved hphase _ hstep =>
      have hfresh := honce.fresh.cons honce.ledger huuids
      obtain ⟨hrelay, hoperator⟩ := hspends.journals (by simp [hphase])
      have hledger := honce.ledger.congr hrelay hoperator
      have hfates := honce.fates.congr hrelay hoperator
      have hprepared : PreparedSpends before.records before.memory := by
        intro spend hspend
        rw [hspends.spends (by simp [hphase])] at hspend
        exact hspends.records spend hspend
      exact ⟨hfresh, hlanding hfresh, hstep.ledger hledger,
        hstep.fates hfates hledger hprepared hinv honce.landing hphase
          halone.2⟩
  | saveFailed =>
      have hfresh := honce.fresh.cons honce.ledger huuids
      obtain ⟨hledger, hfates⟩ := honce.unchanged rfl hissued huuids
        (fun _ h => by cases h) rfl rfl
      exact ⟨hfresh, hlanding hfresh, hledger, hfates⟩
  | @persisted update ids allocations hphase hupdate hcompleted hread =>
      have hfresh := honce.fresh.cons honce.ledger huuids
      have hnone := hspends.uncompleted_eq_nil hcompleted hread
      subst hnone
      obtain ⟨hrelay, hoperator⟩ := hspends.journals (by simp [hphase])
      have hprepared : (⟨.saveUpdate update before.memory [] [], .ok ()⟩ :
          SdkEvent Fr).prepared = none := by
        apply SdkEvent.prepared_of_update rfl
        · rintro rfl
          cases hupdate
        · rintro rfl
          cases hupdate
      obtain ⟨hledger, hfates⟩ := honce.unchanged hprepared hissued huuids
        (.of_stores rfl) hrelay hoperator
      rw [AllocationTable.update_nil]
      exact ⟨hfresh, hlanding hfresh, hledger, hfates⟩
  | stranded =>
      have hfresh := honce.fresh.cons honce.ledger huuids
      obtain ⟨hledger, hfates⟩ := honce.unchanged rfl hissued huuids
        (fun _ h => by cases h) rfl rfl
      exact ⟨hfresh, hlanding hfresh, hledger, hfates⟩

end

end HoprStrategy.Curvy
