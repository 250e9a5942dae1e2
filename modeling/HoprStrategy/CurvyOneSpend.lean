import HoprStrategy.CurvyBookings

/-!
# One logical spend at a time

Every note of a state is accounted for: it was issued, is listed once, and was
not spent by a booked attempt.  A booking spends the inputs of one attempt and
empties both journals, so what it spends was never spent before.
-/

namespace HoprStrategy.Curvy

open Library SdkWorld

variable {Fr : Type}

/-- What holds of a state: one journal at most is in use, its attempts spend
what is still funding, and the notes are accounted for. -/
structure Sound (issued booked : List StoredNote) (state : SdkState) :
    Prop where
  exclusive : state.relayAggregations = [] ∨ state.operatorAggregations = []
  inputs : ∀ spend ∈ state.spends, spend.inputs ⊆ state.funding
  accounted : Accounted issued booked state.notes
  unambiguous : state.ambiguousAllocation = false
  unlisted : state.ambiguousAllocationIds = []

namespace Sound

variable {issued booked : List StoredNote} {state next : SdkState}

theorem mono {later : List StoredNote} (hsound : Sound issued booked state)
    (hlater : issued ⊆ later) : Sound later booked state :=
  { hsound with accounted := hsound.accounted.mono hlater }

/-- The journals lose attempts, or nothing. -/
theorem shrink (hsound : Sound issued booked state)
    (hfunding : next.funding = state.funding)
    (hshielding : next.shielding = state.shielding)
    (hrelay : List.Sublist (next.relayAggregations.map
        StoredRelayAggregation.spend)
      (state.relayAggregations.map StoredRelayAggregation.spend))
    (hoperator : List.Sublist next.operatorAggregations
      state.operatorAggregations)
    (hambiguous : next.ambiguousAllocation = state.ambiguousAllocation)
    (hlisted : next.ambiguousAllocationIds = state.ambiguousAllocationIds) :
    Sound issued booked next := by
  have hspends : List.Sublist next.spends state.spends :=
    hrelay.append (hoperator.map _)
  refine ⟨?_, ?_, ?_, ?_, ?_⟩
  · rcases hsound.exclusive with hempty | hempty
    · left
      rw [hempty, List.map_nil, List.sublist_nil, List.map_eq_nil_iff]
        at hrelay
      exact hrelay
    · right
      rw [hempty, List.sublist_nil] at hoperator
      exact hoperator
  · intro spend hspend
    rw [hfunding]
    exact hsound.inputs spend (hspends.subset hspend)
  · apply hsound.accounted.subperm
    unfold SdkState.notes
    rw [hfunding, hshielding]
    exact (((hspends.map _).append_left _).append_left _).subperm
  · exact hambiguous.trans hsound.unambiguous
  · exact hlisted.trans hsound.unlisted

/-- A note which was never used enters the state. -/
theorem enter (hsound : Sound issued booked state) {note : StoredNote}
    (hissued : note ∈ issued) (hunused : note ∉ state.notes)
    (hunbooked : note ∉ booked)
    (hnotes : List.Perm next.notes (note :: state.notes))
    (hexclusive : next.relayAggregations = [] ∨
      next.operatorAggregations = [])
    (hinputs : ∀ spend ∈ next.spends, spend.inputs ⊆ next.funding)
    (hambiguous : next.ambiguousAllocation = state.ambiguousAllocation)
    (hlisted : next.ambiguousAllocationIds = state.ambiguousAllocationIds) :
    Sound issued booked next where
  exclusive := hexclusive
  inputs := hinputs
  accounted := (hsound.accounted.cons hissued hunused hunbooked).perm hnotes
  unambiguous := hambiguous.trans hsound.unambiguous
  unlisted := hlisted.trans hsound.unlisted

/-- A note in flight is booked as funding, or was funding already. -/
theorem land (hsound : Sound issued booked state)
    (hnotes : List.Subperm next.notes state.notes)
    (hfunding : state.funding ⊆ next.funding)
    (hrelay : next.relayAggregations = state.relayAggregations)
    (hoperator : next.operatorAggregations = state.operatorAggregations)
    (hambiguous : next.ambiguousAllocation = state.ambiguousAllocation)
    (hlisted : next.ambiguousAllocationIds = state.ambiguousAllocationIds) :
    Sound issued booked next where
  exclusive := by
    rw [hrelay, hoperator]
    exact hsound.exclusive
  inputs := by
    intro spend hspend
    have hbefore : spend ∈ state.spends := by
      unfold SdkState.spends at hspend ⊢
      rwa [hrelay, hoperator] at hspend
    exact fun note hnote => hfunding (hsound.inputs spend hbefore hnote)
  accounted := hsound.accounted.subperm hnotes
  unambiguous := hambiguous.trans hsound.unambiguous
  unlisted := hlisted.trans hsound.unlisted

/-- An attempt is booked, and the others are forgotten. -/
theorem book (hsound : Sound issued booked state) {spend : Spend}
    (hspend : spend ∈ state.spends) {change : List StoredNote}
    (hchange : List.Sublist change [spend.change])
    (hfunding : next.funding = state.fundingAfter spend.inputs change)
    (hshielding : next.shielding = state.shielding)
    (hrelay : next.relayAggregations = [])
    (hoperator : next.operatorAggregations = [])
    (hambiguous : next.ambiguousAllocation = state.ambiguousAllocation)
    (hlisted : next.ambiguousAllocationIds = state.ambiguousAllocationIds) :
    Sound issued (spend.inputs ++ booked) next where
  exclusive := Or.inl hrelay
  inputs := by
    simp [SdkState.spends, hrelay, hoperator]
  accounted := by
    have hrest : List.Subperm (change ++ state.shielding)
        (state.shielding ++ state.spends.map Spend.change) := by
      have hmade : List.Sublist [spend.change]
          (state.spends.map Spend.change) :=
        List.singleton_sublist.mpr (List.mem_map_of_mem hspend)
      exact List.perm_append_comm.subperm.trans
        ((hchange.trans hmade).append_left _).subperm
    have hspent := hsound.accounted.spend (hsound.inputs spend hspend) hrest
    have hnotes : next.notes = state.funding.filter
          (fun note => note ∉ spend.inputs) ++
        (change ++ state.shielding) := by
      simp [SdkState.notes, SdkState.spends, SdkState.fundingAfter, hrelay,
        hoperator, hfunding, hshielding]
    rw [hnotes]
    exact hspent
  unambiguous := hambiguous.trans hsound.unambiguous
  unlisted := hlisted.trans hsound.unlisted

end Sound

theorem issuedNotes_canonical {codec : NoteCodec Fr}
    {history : List (SdkEvent Fr)} {note : StoredNote}
    (hissued : note ∈ issuedNotes codec history) : note.Canonical codec := by
  rcases List.mem_filterMap.mp hissued with ⟨⟨call, reply⟩, _, hevent⟩
  cases call <;> simp only [SdkEvent.issued, reduceCtorEq, Option.map_eq_some_iff]
    at hevent
  all_goals
    rcases hevent with ⟨owned, _, rfl⟩
    exact ⟨_, rfl⟩

theorem mem_issuedNotes {codec : NoteCodec Fr} {history : List (SdkEvent Fr)}
    {call : SdkCall Fr} {reply : call.Reply} {note : StoredNote}
    (hreported : Reported history call reply)
    (hissued : SdkEvent.issued codec ⟨call, reply⟩ = some note) :
    note ∈ issuedNotes codec history :=
  List.mem_filterMap.mpr ⟨_, hreported, hissued⟩

/-- The notes issued since the last save are neither in the state nor
booked. -/
def Unused (codec : NoteCodec Fr) (history : List (SdkEvent Fr))
    (booked : List StoredNote) (state : SdkState) : Prop :=
  ∀ note ∈ issuedNotes codec (sinceSave history),
    note ∉ state.notes ∧ note ∉ booked

/-! ## Steps in memory -/

section

variable [DecidableEq Fr] {config : SdkConfig Fr}
  {history : List (SdkEvent Fr)} {booked : List StoredNote}
  {state next : SdkState}

theorem MemoryStep.journals (hstep : MemoryStep config history state next) :
    next.relayAggregations = state.relayAggregations ∧
      next.operatorAggregations = state.operatorAggregations := by
  cases hstep <;> exact ⟨rfl, rfl⟩

omit [DecidableEq Fr] in
/-- A shielded note is booked: it moves from the shields to the funding, where
it may already be. -/
theorem Sound.bookShielded {issued : List StoredNote} {note : StoredNote}
    {already : Bool} (hsound : Sound issued booked state)
    (left : List StoredNote)
    (hshielding : List.Perm state.shielding (note :: left))
    (hnext : next.shielding = left)
    (hfunding : next.funding =
      if already then state.funding else state.funding ++ [note])
    (hrelay : next.relayAggregations = state.relayAggregations)
    (hoperator : next.operatorAggregations = state.operatorAggregations)
    (hambiguous : next.ambiguousAllocation = state.ambiguousAllocation)
    (hlisted : next.ambiguousAllocationIds = state.ambiguousAllocationIds) :
    Sound issued booked next := by
  have hspends : next.spends = state.spends := by
    simp only [SdkState.spends, hrelay, hoperator]
  have hnotes : List.Perm (state.funding ++ [note] ++ (left ++
      state.spends.map Spend.change)) state.notes := by
    have hmoved := (hshielding.append_right
      (state.spends.map Spend.change)).append_left state.funding
    simpa [SdkState.notes] using hmoved.symm
  have hsubperm : List.Subperm next.notes state.notes := by
    refine List.Subperm.trans ?_ hnotes.subperm
    unfold SdkState.notes
    rw [hnext, hfunding, hspends]
    cases already with
    | false => exact List.Subperm.refl _
    | true =>
        exact ((List.sublist_append_left _ _).append_right _).subperm
  refine hsound.land hsubperm ?_ hrelay hoperator hambiguous hlisted
  rw [hfunding]
  cases already with
  | false => exact List.subset_append_left _ _
  | true => exact List.Subset.refl _

omit [DecidableEq Fr] in
theorem Sound.ofOwned_shielding {issued : List StoredNote}
    (hsound : Sound issued booked state)
    (hcanonical : ∀ note ∈ issued, note.Canonical config.codec)
    {stored : StoredNote} (hstored : stored ∈ state.shielding)
    {note : OwnedNote Fr} (hnote : stored.toOwned config.codec = .ok note) :
    StoredNote.ofOwned config.codec note = stored := by
  have hlive : stored ∈ state.notes :=
    List.mem_append_right _ (List.mem_append_left _ hstored)
  exact (hcanonical stored
    (hsound.accounted.known hlive)).ofOwned_toOwned _ hnote

theorem MemoryStep.sound (hstep : MemoryStep config history state next)
    (hsound : Sound (issuedNotes config.codec history) booked state)
    (hunused : Unused config.codec history booked state) :
    Sound (issuedNotes config.codec history) booked next := by
  have hcanonical : ∀ note ∈ issuedNotes config.codec history,
      note.Canonical config.codec := fun _ => issuedNotes_canonical
  have henter : ∀ {call : SdkCall Fr} {reply : call.Reply}
      {note : StoredNote}, Reported (sinceSave history) call reply →
      SdkEvent.issued config.codec ⟨call, reply⟩ = some note →
      note ∈ issuedNotes config.codec history ∧ note ∉ state.notes ∧
        note ∉ booked := by
    intro call reply note hreported hissued
    have hmem := mem_issuedNotes hreported hissued
    exact ⟨issuedNotes_sinceSave _ _ hmem, hunused note hmem⟩
  cases hstep with
  | @journalDirectShield note gross token hnone hprepared =>
      rcases henter hprepared rfl with ⟨hissued, hlive, hbooked⟩
      refine hsound.enter hissued hlive hbooked ?_ hsound.exclusive
        hsound.inputs rfl rfl
      simp only [SdkState.notes, SdkState.shielding, SdkState.spends, hnone,
        Option.map_some, Option.map_none, Option.toList_some,
        Option.toList_none]
      exact List.perm_iff_count.mpr fun other => by
        simp only [List.count_append, List.count_cons, List.count_nil]
        omega
  | @bookDirectShield shield note already observed hshield hnote _ _ _ =>
      have hsame := hsound.ofOwned_shielding hcanonical
        (show shield.note ∈ state.shielding by
          simp [SdkState.shielding, hshield]) hnote
      rw [hsame]
      apply hsound.bookShielded
        (state.shieldInFlight.map StoredShield.note).toList
      · simp only [SdkState.shielding, hshield, Option.map_some,
          Option.toList_some]
        exact List.perm_append_comm
      · simp [SdkState.shielding, SdkM.bookShielded]
      all_goals rfl
  | @journalShield prepared gross token recovery hnone hprepared =>
      rcases henter hprepared rfl with ⟨hissued, hlive, hbooked⟩
      refine hsound.enter hissued hlive hbooked ?_ hsound.exclusive
        hsound.inputs rfl rfl
      simp only [SdkState.notes, SdkState.shielding, SdkState.spends, hnone,
        Option.map_some, Option.map_none, Option.toList_some,
        Option.toList_none]
      exact List.perm_iff_count.mpr fun other => by
        simp only [List.count_append, List.count_cons, List.count_nil]
        omega
  | markShieldFunded hshield _ _ =>
      apply hsound.shrink
      · rfl
      · simp [SdkState.shielding, hshield]
      · exact List.Sublist.refl _
      · exact List.Sublist.refl _
      · rfl
      · rfl
  | @bookShield shield note already observed hshield hnote _ _ _ =>
      have hsame := hsound.ofOwned_shielding hcanonical
        (show shield.note ∈ state.shielding by
          simp [SdkState.shielding, hshield]) hnote
      rw [hsame]
      apply hsound.bookShielded
        (state.directShieldInFlight.map StoredDirectShield.note).toList
      · simp only [SdkState.shielding, hshield, Option.map_some,
          Option.toList_some]
        exact List.Perm.refl _
      · simp [SdkState.shielding, SdkM.bookShielded]
      all_goals rfl
  | clearPending _ =>
      exact hsound.shrink rfl rfl (List.Sublist.refl _) (List.Sublist.refl _)
        rfl rfl
  | bookAmbiguous hambiguous =>
      rw [hsound.unambiguous] at hambiguous
      cases hambiguous
  | journalIntent =>
      exact hsound.shrink rfl rfl (List.Sublist.refl _) (List.Sublist.refl _)
        rfl rfl
  | clearIntent _ =>
      exact hsound.shrink rfl rfl (List.Sublist.refl _) (List.Sublist.refl _)
        rfl rfl

/-! ## Saved steps -/

omit [DecidableEq Fr] in
theorem fundingCandidate_toOwned {stored : StoredNote}
    {candidate : SdkM.FundingCandidate Fr}
    (h : SdkM.fundingCandidate config stored = .ok candidate) :
    stored.toOwned config.codec = .ok candidate.note := by
  unfold SdkM.fundingCandidate at h
  cases hnote : stored.toOwned config.codec with
  | error error =>
      rw [hnote] at h
      cases h
  | ok note =>
      rw [hnote] at h
      change (if _ then _ else _) = _ at h
      split at h
      · cases h
        rfl
      · cases h

omit [DecidableEq Fr] in
/-- What is selected is read from the funding. -/
theorem selectFunding_toOwned {funding : List StoredNote} {minimum : ℕ}
    {inputs : List (OwnedNote Fr)}
    (hselect : SdkM.selectFunding config funding minimum = .ok inputs) :
    ∀ note ∈ inputs, ∃ stored ∈ funding,
      stored.toOwned config.codec = .ok note := by
  unfold SdkM.selectFunding at hselect
  cases hcandidates : funding.mapM (SdkM.fundingCandidate config) with
  | error error =>
      rw [hcandidates] at hselect
      cases hselect
  | ok candidates =>
      have hread : ∀ candidate ∈ SdkM.sortCandidates candidates,
          ∃ stored ∈ funding,
            stored.toOwned config.codec = .ok candidate.note := by
        intro candidate hcandidate
        have hmem : candidate ∈ candidates :=
          (List.mergeSort_perm _ _).mem_iff.mp hcandidate
        rcases (mem_of_mapM_eq_ok hcandidates candidate).mp hmem with
          ⟨stored, hstored, hfound⟩
        exact ⟨stored, hstored, fundingCandidate_toOwned hfound⟩
      rw [hcandidates] at hselect
      dsimp only [bind, Except.bind] at hselect
      split at hselect
      · rename_i single hfind
        cases hselect
        intro note hnote
        rw [List.mem_singleton.mp hnote]
        exact hread single (List.mem_of_find?_eq_some hfind)
      · cases htotal : SdkM.checkedTotal "funding total" 0
            (((SdkM.sortCandidates candidates).take
              maxAllocationInputs).map (·.amount)) with
        | error error =>
            simp only [htotal] at hselect
            cases hselect
        | ok available =>
            simp only [htotal] at hselect
            change (if _ then _ else _) = _ at hselect
            split at hselect
            · cases hselect
            · cases hselect
              intro note hnote
              rcases List.mem_map.mp hnote with ⟨candidate, hcandidate, rfl⟩
              exact hread candidate (List.mem_of_mem_take hcandidate)

omit [DecidableEq Fr] in
/-- The inputs of a first attempt are funding notes as they are stored. -/
theorem FirstSpend.inputs_subset {distinct : Prop} {world : SdkWorld Fr}
    {inputs : List (OwnedNote Fr)} {records : List StoredAllocation}
    (hfirst : FirstSpend config distinct world inputs records)
    (hsound : Sound (issuedNotes config.codec history) booked world.memory) :
    inputs.map (StoredNote.ofOwned config.codec) ⊆ world.memory.funding := by
  rcases hfirst.selected with ⟨minimum, hselect⟩
  intro note hnote
  rcases List.mem_map.mp hnote with ⟨owned, howned, rfl⟩
  rcases selectFunding_toOwned hselect owned howned with
    ⟨stored, hstored, hread⟩
  have hlive : stored ∈ world.memory.notes := List.mem_append_left _ hstored
  have hcanonical : stored.Canonical config.codec :=
    issuedNotes_canonical (hsound.accounted.known hlive)
  rw [hcanonical.ofOwned_toOwned _ hread]
  exact hstored

omit [DecidableEq Fr] in
theorem AttemptStep.spend {attempts : ℕ}
    {attempt rewritten : StoredRelayAggregation} {cause : AttemptUpdate}
    (hstep : AttemptStep history attempts attempt cause rewritten) :
    rewritten.spend = attempt.spend := by
  cases hstep <;> rfl

theorem map_set_same {α β : Type} {f : α → β} {items : List α} {index : ℕ}
    {item other : α} (hitem : items[index]? = some item)
    (hsame : f other = f item) :
    (items.set index other).map f = items.map f := by
  have hget : (items.map f)[index]? = some (f other) := by
    rw [List.getElem?_map, hitem, hsame]
    rfl
  rw [List.map_set]
  apply List.ext_getElem?
  intro position
  rw [List.getElem?_set]
  split
  · rename_i hposition
    subst hposition
    split
    · exact hget.symm
    · rename_i hlength
      rw [List.getElem?_eq_none (by simpa using hlength)]
  · rfl

theorem set_spend_sublist {attempts : List StoredRelayAggregation} {index : ℕ}
    {attempt other : StoredRelayAggregation}
    (hattempt : attempts[index]? = some attempt)
    (hsame : other.spend = attempt.spend) :
    List.Sublist
      ((attempts.set index other).map StoredRelayAggregation.spend)
      (attempts.map StoredRelayAggregation.spend) := by
  rw [map_set_same hattempt hsame]

theorem getElem?_of_getLast? {α : Type} {items : List α} {item : α}
    (hlast : items.getLast? = some item) :
    items[items.length - 1]? = some item := by
  rw [← List.getLast?_eq_getElem?]
  exact hlast

theorem mem_spends_relay {attempt : StoredRelayAggregation}
    (hattempt : attempt ∈ state.relayAggregations) :
    attempt.spend ∈ state.spends :=
  List.mem_append_left _ (List.mem_map_of_mem hattempt)

theorem mem_spends_operator {attempt : StoredOperatorAggregation}
    (hattempt : attempt ∈ state.operatorAggregations) :
    attempt.spend ∈ state.spends :=
  List.mem_append_right _ (List.mem_map_of_mem hattempt)

namespace Sound

variable {issued : List StoredNote}

/-- A relay attempt is added to the journal. -/
theorem append_relay (hsound : Sound issued booked state)
    {attempt : StoredRelayAggregation}
    (hoperator : state.operatorAggregations = [])
    (hinputs : attempt.inputs ⊆ state.funding)
    (hissued : attempt.change ∈ issued)
    (hunused : attempt.change ∉ state.notes)
    (hunbooked : attempt.change ∉ booked) :
    Sound issued booked
      { state with
        relayAggregations := state.relayAggregations ++ [attempt] } := by
  refine hsound.enter hissued hunused hunbooked ?_ (Or.inr hoperator) ?_ rfl
    rfl
  · exact List.perm_iff_count.mpr fun other => by
      simp only [SdkState.notes, SdkState.shielding, SdkState.spends,
        hoperator, List.map_append, List.map_cons, List.map_nil,
        List.append_nil, List.count_append, List.count_cons, List.count_nil,
        StoredRelayAggregation.spend]
      omega
  · intro spend hspend
    simp only [SdkState.spends, List.map_append, List.mem_append,
      List.map_cons, List.map_nil, List.mem_singleton] at hspend
    rcases hspend with (hspend | rfl) | hspend
    · exact hsound.inputs spend (List.mem_append_left _ hspend)
    · exact hinputs
    · exact hsound.inputs spend (List.mem_append_right _ hspend)

/-- An operator attempt is added to the journal. -/
theorem append_operator (hsound : Sound issued booked state)
    {attempt : StoredOperatorAggregation}
    (hrelay : state.relayAggregations = [])
    (hinputs : attempt.inputs ⊆ state.funding)
    (hissued : attempt.change ∈ issued)
    (hunused : attempt.change ∉ state.notes)
    (hunbooked : attempt.change ∉ booked) :
    Sound issued booked
      { state with
        operatorAggregations := state.operatorAggregations ++ [attempt] } := by
  refine hsound.enter hissued hunused hunbooked ?_ (Or.inl hrelay) ?_ rfl
    rfl
  · exact List.perm_iff_count.mpr fun other => by
      simp only [SdkState.notes, SdkState.shielding, SdkState.spends,
        hrelay, List.map_append, List.map_cons, List.map_nil,
        List.nil_append, List.count_append, List.count_cons, List.count_nil,
        StoredOperatorAggregation.spend]
      omega
  · intro spend hspend
    simp only [SdkState.spends, List.map_append, List.mem_append,
      List.map_cons, List.map_nil, List.mem_singleton] at hspend
    rcases hspend with hspend | hspend | rfl
    · exact hsound.inputs spend (List.mem_append_left _ hspend)
    · exact hsound.inputs spend (List.mem_append_right _ hspend)
    · exact hinputs

end Sound

omit [DecidableEq Fr] in
theorem bookedChange_sublist {change : StoredNote}
    {booked : List StoredNote}
    (h : SdkM.bookedChange config change = .ok booked) :
    List.Sublist booked [change] := by
  unfold SdkM.bookedChange at h
  cases hnote : change.toOwned config.codec with
  | error error =>
      rw [hnote] at h
      cases h
  | ok note =>
      rw [hnote] at h
      simp only [Except.map, Except.ok.injEq] at h
      subst h
      split
      · exact List.nil_sublist _
      · exact List.Sublist.refl _

theorem bookedBy_spend {update : Update} {inputs : List StoredNote}
    (hbooked : state.bookedBy update = some inputs) :
    ∃ spend ∈ state.spends, spend.inputs = inputs := by
  unfold SdkState.bookedBy at hbooked
  split at hbooked
  · rcases Option.map_eq_some_iff.mp hbooked with ⟨attempt, hget, rfl⟩
    exact ⟨_, mem_spends_relay (List.mem_of_getElem? hget), rfl⟩
  · rcases Option.map_eq_some_iff.mp hbooked with ⟨attempt, hget, rfl⟩
    exact ⟨_, mem_spends_operator (List.mem_of_getElem? hget), rfl⟩
  · cases hbooked

section

variable {distinct : Prop} {world : SdkWorld Fr} {update : Update}
  {allocations : List StoredAllocation} {remove : List PixAddressId}

omit [DecidableEq Fr] in
/-- A saved state is sound once what it books counts as booked. -/
theorem DurableStep.sound
    (hstep : DurableStep config distinct world update next allocations remove)
    (hsound : Sound (issuedNotes config.codec world.history) booked
      world.memory)
    (hunused : Unused config.codec world.history booked world.memory) :
    Sound (issuedNotes config.codec world.history)
      ((world.memory.bookedBy update).toList.flatten ++ booked) next := by
  have hproof : ∀ {inputs : List (OwnedNote Fr)}
      {request : PixAggregationRequest Fr},
      Proved (sinceSave world.history) inputs request →
      StoredNote.ofOwned config.codec request.change ∈
          issuedNotes config.codec world.history ∧
        StoredNote.ofOwned config.codec request.change ∉
          world.memory.notes ∧
        StoredNote.ofOwned config.codec request.change ∉ booked := by
    rintro inputs request ⟨_, _, _, hreported⟩
    have hmem : StoredNote.ofOwned config.codec request.change ∈
        issuedNotes config.codec (sinceSave world.history) :=
      mem_issuedNotes hreported rfl
    exact ⟨issuedNotes_sinceSave _ _ hmem, hunused _ hmem⟩
  cases hstep with
  | prepareRelay _ hproved _ hspend =>
      rcases hproof hproved with ⟨hissued, hlive, hbooked⟩
      cases hlast : world.memory.relayAggregations.getLast? with
      | none =>
          rw [hlast] at hspend
          exact hsound.append_relay hspend.operator
            (hspend.inputs_subset hsound) hissued hlive hbooked
      | some previous =>
          rw [hlast] at hspend
          have hprevious := List.mem_of_getLast? hlast
          have hoperator : world.memory.operatorAggregations = [] :=
            hsound.exclusive.resolve_left (List.ne_nil_of_mem hprevious)
          refine hsound.append_relay hoperator ?_ hissued hlive hbooked
          have hsame := (replaces_iff.mp hspend.2.1).1
          unfold SdkM.relayAttempt
          rw [← hsame]
          exact hsound.inputs _ (mem_spends_relay hprevious)
  | saveRelayAttempt hlast _ hattempt =>
      apply hsound.shrink
      · rfl
      · rfl
      · exact set_spend_sublist (getElem?_of_getLast? hlast) hattempt.spend
      · exact List.Sublist.refl _
      · rfl
      · rfl
  | winnerMetadata hattempt _ _ _ _ =>
      apply hsound.shrink
      · rfl
      · rfl
      · exact set_spend_sublist hattempt rfl
      · exact List.Sublist.refl _
      · rfl
      · rfl
  | @bookRelay index attempt change _ hattempt _ _ _ hchange _ =>
      have hmem := List.mem_of_getElem? hattempt
      have hoperator : world.memory.operatorAggregations = [] :=
        hsound.exclusive.resolve_left (List.ne_nil_of_mem hmem)
      simp only [SdkState.bookedBy, hattempt, Option.map_some,
        Option.toList_some, List.flatten_cons, List.flatten_nil,
        List.append_nil]
      exact hsound.book (mem_spends_relay hmem) (bookedChange_sublist hchange)
        rfl rfl rfl hoperator rfl rfl
  | releaseRelay _ _ _ =>
      apply hsound.shrink
      · rfl
      · rfl
      · exact List.nil_sublist _
      · exact List.Sublist.refl _
      · rfl
      · rfl
  | dropRejectedAttempt _ _ _ =>
      apply hsound.shrink
      · rfl
      · rfl
      · exact (List.dropLast_sublist _).map _
      · exact List.Sublist.refl _
      · rfl
      · rfl
  | prepareOperator hproved hrelay _ hspend =>
      rcases hproof hproved with ⟨hissued, hlive, hbooked⟩
      cases hlast : world.memory.operatorAggregations.getLast? with
      | none =>
          rw [hlast] at hspend
          exact hsound.append_operator hrelay (hspend.inputs_subset hsound)
            hissued hlive hbooked
      | some previous =>
          rw [hlast] at hspend
          have hprevious := List.mem_of_getLast? hlast
          refine hsound.append_operator hrelay ?_ hissued hlive hbooked
          have hsame := (competesWith_iff.mp hspend.1).1
          rw [← hsame]
          exact hsound.inputs _ (mem_spends_operator hprevious)
  | @bookOperator index attempt change _ hattempt _ _ hchange _ =>
      have hmem := List.mem_of_getElem? hattempt
      have hrelay : world.memory.relayAggregations = [] :=
        hsound.exclusive.resolve_right (List.ne_nil_of_mem hmem)
      simp only [SdkState.bookedBy, hattempt, Option.map_some,
        Option.toList_some, List.flatten_cons, List.flatten_nil,
        List.append_nil]
      exact hsound.book (mem_spends_operator hmem)
        (bookedChange_sublist hchange) rfl rfl hrelay rfl rfl rfl
  | releaseOperator _ _ =>
      apply hsound.shrink
      · rfl
      · rfl
      · exact List.Sublist.refl _
      · exact List.nil_sublist _
      · rfl
      · rfl
  | dropOperatorAttempt _ _ _ =>
      apply hsound.shrink
      · rfl
      · rfl
      · exact List.Sublist.refl _
      · exact List.eraseIdx_sublist _ _
      · rfl
      · rfl

/-- Records written with one stage leave that stage what had it. -/
theorem AllocationTable.stage_after_update {table : AllocationTable}
    {stage : StoredAllocationStage} {id : PixAddressId}
    (hwritten : ∀ record ∈ allocations, record.stage = stage)
    (hid : id ∈ allocations.map StoredAllocation.id ∨
      ∃ record, table.find id = some record ∧ record.stage = stage) :
    ∃ record, (table.update allocations []).find id = some record ∧
      record.stage = stage := by
  by_cases hmem : id ∈ allocations.map StoredAllocation.id
  · rcases List.mem_map.mp hmem with ⟨record, hrecord, hkey⟩
    have hsome : (allocations.reverse.find? fun record =>
        decide (record.id = id)).isSome = true :=
      List.find?_isSome.mpr ⟨record, List.mem_reverse.mpr hrecord,
        decide_eq_true hkey⟩
    rcases Option.isSome_iff_exists.mp hsome with ⟨found, hfound⟩
    refine ⟨found, ?_, hwritten found (List.mem_reverse.mp
      (List.mem_of_find?_eq_some hfound))⟩
    simp [AllocationTable.update, hfound]
  · rcases hid.resolve_left hmem with ⟨record, hfind, hstage⟩
    refine ⟨record, ?_, hstage⟩
    rw [AllocationTable.update_find_of_not_mem List.not_mem_nil hmem]
    exact hfind

/-- The records of every journalled attempt are Prepared. -/
def PreparedSpends (table : AllocationTable) (state : SdkState) : Prop :=
  ∀ spend ∈ state.spends, ∀ id ∈ spend.allocationIds, table.Prepared id

theorem PreparedSpends.mono {table : AllocationTable}
    (hprepared : PreparedSpends table state)
    (hspends : next.spends ⊆ state.spends) : PreparedSpends table next :=
  fun spend hspend => hprepared spend (hspends hspend)

theorem preparedSpends_of_empty (table : AllocationTable)
    (hrelay : next.relayAggregations = [])
    (hoperator : next.operatorAggregations = []) :
    PreparedSpends table next := by
  simp [PreparedSpends, SdkState.spends, hrelay, hoperator]

/-- The records of a new attempt are written as Prepared, or are those of the
attempt it replaces. -/
theorem PreparedSpends.append {table : AllocationTable} {spend : Spend}
    (hprepared : PreparedSpends table state)
    (hnext : ∀ other ∈ next.spends, other ∈ state.spends ∨ other = spend)
    (hids : spend.allocationIds = allocations.map StoredAllocation.id)
    (hwritten : ∀ record ∈ allocations, record.stage = .prepared) :
    PreparedSpends (table.update allocations []) next := by
  intro other hother id hid
  apply AllocationTable.stage_after_update hwritten
  rcases hnext other hother with hold | rfl
  · exact Or.inr (hprepared other hold id hid)
  · exact Or.inl (hids ▸ hid)

theorem PreparedSpends.stage {table : AllocationTable} {previous : Spend}
    (hprepared : PreparedSpends table state) (hprevious : previous ∈ state.spends)
    (hids : previous.allocationIds = allocations.map StoredAllocation.id)
    (hstored : ∀ record ∈ allocations, table.find record.id = some record) :
    ∀ record ∈ allocations, record.stage = .prepared := by
  intro record hrecord
  have hid : record.id ∈ previous.allocationIds :=
    hids ▸ List.mem_map_of_mem hrecord
  rcases hprepared previous hprevious record.id hid with
    ⟨found, hfind, hstage⟩
  rw [hstored record hrecord] at hfind
  cases hfind
  exact hstage

omit [DecidableEq Fr] in
theorem DurableStep.prepared {issued : List StoredNote}
    (hstep : DurableStep config distinct world update next allocations remove)
    (hsound : Sound issued booked world.memory)
    (hprepared : PreparedSpends world.records world.memory) :
    PreparedSpends (world.records.update allocations remove) next := by
  have hrelay : ∀ {attempt : StoredRelayAggregation},
      attempt ∈ world.memory.relayAggregations →
        world.memory.operatorAggregations = [] := fun hmem =>
    hsound.exclusive.resolve_left (List.ne_nil_of_mem hmem)
  have hoperator : ∀ {attempt : StoredOperatorAggregation},
      attempt ∈ world.memory.operatorAggregations →
        world.memory.relayAggregations = [] := fun hmem =>
    hsound.exclusive.resolve_right (List.ne_nil_of_mem hmem)
  cases hstep with
  | @prepareRelay endpoints intent request inputs _ _ _ _ hspend =>
      apply hprepared.append
      · intro other hother
        simp only [SdkState.spends, List.map_append, List.mem_append,
          List.map_cons, List.map_nil, List.mem_singleton] at hother ⊢
        rcases hother with (hold | hnew) | hold
        · exact Or.inl (Or.inl hold)
        · exact Or.inr hnew
        · exact Or.inl (Or.inr hold)
      · rfl
      · cases hlast : world.memory.relayAggregations.getLast? with
        | none =>
            rw [hlast] at hspend
            exact hspend.prepared
        | some previous =>
            rw [hlast] at hspend
            have hprevious :=
              mem_spends_relay (List.mem_of_getLast? hlast)
            exact hprepared.stage hprevious
              (replaces_iff.mp hspend.2.1).2.1 hspend.2.2
  | saveRelayAttempt hlast _ hattempt =>
      rw [AllocationTable.update_nil]
      apply hprepared.mono
      exact ((set_spend_sublist (getElem?_of_getLast? hlast)
        hattempt.spend).append_right _).subset
  | winnerMetadata hattempt _ _ _ _ =>
      rw [AllocationTable.update_nil]
      apply hprepared.mono
      apply List.Sublist.subset
      apply List.Sublist.append_right
      exact set_spend_sublist hattempt rfl
  | bookRelay hattempt _ _ _ _ _ =>
      exact preparedSpends_of_empty _ rfl
        (hrelay (List.mem_of_getElem? hattempt))
  | @releaseRelay attempt hattempts _ _ =>
      exact preparedSpends_of_empty _ rfl
        (hrelay (by rw [hattempts]; exact List.mem_singleton_self attempt))
  | dropRejectedAttempt _ _ _ =>
      rw [AllocationTable.update_nil]
      apply hprepared.mono
      exact (((List.dropLast_sublist _).map _).append_right _).subset
  | @prepareOperator endpoints request inputs _ _ _ _ hspend =>
      apply hprepared.append
      · intro other hother
        simp only [SdkState.spends, List.map_append, List.mem_append,
          List.map_cons, List.map_nil, List.mem_singleton] at hother ⊢
        rcases hother with hold | hold | hnew
        · exact Or.inl (Or.inl hold)
        · exact Or.inl (Or.inr hold)
        · exact Or.inr hnew
      · rfl
      · cases hlast : world.memory.operatorAggregations.getLast? with
        | none =>
            rw [hlast] at hspend
            exact hspend.prepared
        | some previous =>
            rw [hlast] at hspend
            have hprevious :=
              mem_spends_operator (List.mem_of_getLast? hlast)
            exact hprepared.stage hprevious
              (competesWith_iff.mp hspend.1).2.1 hspend.2
  | bookOperator hattempt _ _ _ _ =>
      exact preparedSpends_of_empty _
        (hoperator (List.mem_of_getElem? hattempt)) rfl
  | @releaseOperator attempt hattempts _ =>
      exact preparedSpends_of_empty _ (hoperator
        (by rw [hattempts]; exact List.mem_singleton_self attempt)) rfl
  | dropOperatorAttempt _ _ _ =>
      rw [AllocationTable.update_nil]
      apply hprepared.mono
      exact (((List.eraseIdx_sublist _ _).map _).append_left _).subset

omit [DecidableEq Fr] in
/-- An attempt leaves the operator journal for one of the two reasons. -/
theorem DurableStep.departure
    (hstep : DurableStep config distinct world update next allocations remove)
    {attempt : StoredOperatorAggregation}
    (hleft : next.operatorAggregations.count attempt <
      world.memory.operatorAggregations.count attempt) :
    Departure config.codec world.memory world.history attempt update := by
  cases hstep with
  | prepareOperator _ _ _ _ =>
      simp only [List.count_append] at hleft
      omega
  | bookOperator hattempt _ hfinal _ _ =>
      exact .booked rfl hattempt hfinal
  | @releaseOperator other hattempts hfailed =>
      rcases hfailed with ⟨endpoints, request, inputs, records, message,
        rfl, hfailed⟩
      rw [hattempts, List.count_nil] at hleft
      have hmem := List.count_pos_iff.mp hleft
      rw [List.mem_singleton] at hmem
      exact .failed _ rfl hmem hfailed
  | @dropOperatorAttempt other hlast hattempts hfailed =>
      rcases hfailed with ⟨endpoints, request, inputs, records, message,
        rfl, hfailed⟩
      by_cases hsame : attempt =
          SdkM.operatorAttempt config endpoints request inputs records
      · exact .failed _ rfl hsame hfailed
      · exfalso
        have hsplit := List.dropLast_append_getLast?
          (SdkM.operatorAttempt config endpoints request inputs records)
          hlast
        have hdrop : world.memory.operatorAggregations.eraseIdx
            (world.memory.operatorAggregations.length - 1) =
            world.memory.operatorAggregations.dropLast :=
          List.eraseIdx_eq_dropLast (by
            have := List.length_pos_of_mem (List.mem_of_getLast? hlast)
            omega)
        rw [hdrop] at hleft
        rw [← hsplit, List.dropLast_concat, List.count_append,
          List.count_singleton] at hleft
        simp [Ne.symm hsame] at hleft
  | _ => exact absurd hleft (lt_irrefl _)

end

end

end HoprStrategy.Curvy
