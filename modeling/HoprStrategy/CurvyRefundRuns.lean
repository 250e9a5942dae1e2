import HoprStrategy.CurvyRefundOperations
import HoprStrategy.CurvyTouched

/-!
# Watched runs

What the watch over the bridge says of a run in its world: which allocations
the journals come to name, and what a failure which looks fund-free leaves.
-/

namespace HoprStrategy.Curvy

open Library SdkWorld

variable {Fr : Type} {terms : Terms} {loose : Prop} {α : Type}
  {start : SdkState} {world : SdkWorld Fr}

/-- The world has kept to the terms. -/
structure Displays (terms : Terms) (start : SdkState) (world : SdkWorld Fr) :
    Prop where
  stored : stored start world.history = world.disk
  memory : terms.Admits world.memory
  disk : terms.Admits world.disk
  named : ∀ id ∈ touched start world.history, terms.named id

theorem Terms.Admits.relayIds {state : SdkState} (hstate : terms.Admits state) :
    ∀ id ∈ state.relayIds, terms.named id := by
  intro id hid
  obtain ⟨_, hlist, hid⟩ := List.mem_flatten.mp hid
  obtain ⟨attempt, hattempt, rfl⟩ := List.mem_map.mp hlist
  exact hstate attempt hattempt id hid

namespace Displays

/-- An operation begins. -/
theorem begin (hdisplays : Displays terms start world) :
    Displays terms start world.resumed where
  stored := hdisplays.stored
  memory := hdisplays.memory
  disk := hdisplays.disk
  named := hdisplays.named

/-- An event which stores nothing. -/
theorem noted (hdisplays : Displays terms start world)
    {event : SdkEvent Fr} {after : SdkWorld Fr}
    (hmemory : after.memory = world.memory) (hdisk : after.disk = world.disk)
    (hhistory : after.history = event :: world.history)
    (hstores : event.stores = none)
    (hsubmits : ∀ request, event.call = .submitPixAggregation request →
      ∀ id, terms.named id) : Displays terms start after where
  stored := by
    rw [hhistory, hdisk]
    exact (stored_of_stores_none hstores).trans hdisplays.stored
  memory := by
    rw [hmemory]
    exact hdisplays.memory
  disk := by
    rw [hdisk]
    exact hdisplays.disk
  named := by
    rw [hhistory]
    intro id hid
    rcases List.mem_append.mp hid with hid | hid
    · rw [hdisplays.stored] at hid
      rcases SdkEvent.touches_journalled hstores hid with
        hrelay | ⟨_, request, hrequest⟩
      · exact hdisplays.disk.relayIds id hrelay
      · exact hsubmits request hrequest id
    · exact hdisplays.named id hid

/-- A save which succeeded. -/
theorem saved {report : Option SdkError}
    (hdisplays : Displays terms start world) {update : Update}
    {next : SdkState} {allocations : List StoredAllocation}
    {remove : List PixAddressId}
    (hallows : Stage.allows terms (.watching report)
      (.saveUpdate update next allocations remove : SdkCall Fr)) :
    Displays terms start
      (world.after (.saveUpdate update next allocations remove)
        (.ok ())) where
  stored := rfl
  memory := hdisplays.memory
  disk := hallows.1
  named := by
    intro id hid
    rcases List.mem_append.mp hid with hid | hid
    · obtain ⟨record, hrecord, rfl⟩ := List.mem_map.mp hid
      exact hallows.2.1 record (List.mem_of_mem_filter hrecord)
    · exact hdisplays.named id hid

end Displays

/-- The replies of the bridge's world are those the monitor expects. -/
theorem watch_shown (hsubmits : terms.submits → ∀ id, terms.named id) :
    Program.Shown (wordedEnvironment terms.refuses) (watch terms)
      (fun (world : SdkWorld Fr) _ => Displays terms start world) := by
  rintro world stage call reply after hdisplays hallows
    ⟨⟨hpermits, rfl⟩, hworded⟩
  change Stage.allows terms stage call at hallows
  cases stage with
  | released error =>
      cases call with
      | writeState next =>
          exact ⟨⟨hworded, trivial⟩, { hdisplays with memory := hallows }⟩
      | _ => cases hallows
  | watching report =>
      cases hexternal : call.external with
      | true =>
          have hkept : Unaltered terms call reply := by
            cases call <;> trivial
          rw [after_external hexternal]
          refine ⟨⟨hworded, hkept⟩, hdisplays.noted rfl rfl rfl
            (SdkEvent.stores_of_not_saves
              (SdkEvent.saves_external hexternal reply)) ?_⟩
          rintro request rfl
          exact hsubmits hallows
      | false =>
          cases call with
          | readState =>
              change (reply : SdkState) = world.memory at hpermits
              subst hpermits
              exact ⟨⟨hworded, hdisplays.memory⟩, hdisplays⟩
          | writeState next =>
              exact ⟨⟨hworded, trivial⟩, { hdisplays with memory := hallows }⟩
          | saveUpdate update next allocations remove =>
              refine ⟨⟨hworded, trivial⟩, ?_⟩
              rcases (reply : Except String Unit) with text | _
              · exact hdisplays.noted rfl rfl rfl rfl (by rintro _ ⟨⟩)
              · exact hdisplays.saved hallows
          | resetStore => cases hallows
          | allocation reader id =>
              have hnoted : ∀ {later : SdkWorld Fr},
                  later.memory = world.memory → later.disk = world.disk →
                  later.history = ⟨.allocation reader id, reply⟩ ::
                    world.history → Displays terms start later :=
                fun hmemory hdisk hhistory => hdisplays.noted hmemory hdisk
                  hhistory rfl (by rintro _ ⟨⟩)
              rcases (reply : Except String (Option StoredAllocation)) with
                text | _ | record
              · exact ⟨⟨hworded, trivial⟩, hnoted rfl rfl rfl⟩
              · exact ⟨⟨hworded, trivial⟩, hnoted rfl rfl rfl⟩
              · refine ⟨⟨hworded, ?_⟩, hnoted rfl rfl rfl⟩
                rcases hpermits with h | ⟨text, h⟩
                · exact world.records.keyed _ _ (Except.ok.inj h).symm
                · cases h
          | _ => cases hexternal

/-- A watched run keeps to the terms, and ends as the watch says. -/
theorem Watched.ends {program : SdkM Fr α} {values : α → Prop}
    {outcome : Outcome SdkError α} {after : SdkWorld Fr}
    (hprogram : Watched terms loose program values)
    (hsubmits : terms.submits → ∀ id, terms.named id)
    (hdisplays : Displays terms start world)
    (hruns : program.Runs (wordedEnvironment terms.refuses) world outcome
      after) :
    ∃ ended, Displays terms start after ∧
      outcome.Satisfies (fun value => ReturnsAt (values value))
        (FailsAt loose) ended :=
  hruns.monitored (watch_shown hsubmits) hdisplays (hprogram none)

theorem Watched.returns {program : SdkM Fr α} {values : α → Prop}
    {value : α} {after : SdkWorld Fr}
    (hprogram : Watched terms loose program values)
    (hsubmits : terms.submits → ∀ id, terms.named id)
    (hdisplays : Displays terms start world)
    (hruns : program.Runs (wordedEnvironment terms.refuses) world
      (.returned value) after) : Displays terms start after := by
  obtain ⟨_, hafter, _⟩ := hprogram.ends hsubmits hdisplays hruns
  exact hafter

theorem Watched.steady {program : SdkM Fr α} {values : α → Prop}
    {error : SdkError} {after : SdkWorld Fr}
    (hprogram : Watched terms False program values)
    (hsubmits : terms.submits → ∀ id, terms.named id)
    (hdisplays : Displays terms start world)
    (hruns : program.Runs (wordedEnvironment terms.refuses) world
      (.failed error) after) : Steady error := by
  obtain ⟨_, _, (hsteady | hsteady)⟩ := hprogram.ends hsubmits hdisplays hruns
  · exact hsteady.resolve_left id
  · exact hsteady

theorem sdkEnvironment_of_worded {refuses : Prop} {program : SdkM Fr α}
    {outcome : Outcome SdkError α} {after : SdkWorld Fr}
    (hruns : program.Runs (wordedEnvironment refuses) world outcome after) :
    program.Runs sdkEnvironment world outcome after :=
  hruns.mono fun _ _ _ _ henv => henv.1

/-! ## A fund-free failure -/

/-- Both journals are settled, and no deposit was funded earlier. -/
structure Unfunded (deposits : List Deposit) (world : SdkWorld Fr) : Prop where
  phase : world.phase = .settled
  relay : world.memory.relayAggregations = []
  operator : world.memory.operatorAggregations = []
  uncompleted : ∀ deposit ∈ deposits, ¬ world.records.Completed deposit.id

theorem Unfunded.tidied {deposits : List Deposit} {before after : SdkWorld Fr}
    (hunfunded : Unfunded deposits before) (htidied : Tidied before after) :
    Unfunded deposits after := by
  obtain ⟨pending, hmemory⟩ := htidied.memory
  refine ⟨htidied.phase, ?_, ?_, ?_⟩
  · rw [hmemory]
    exact hunfunded.relay
  · rw [hmemory]
    exact hunfunded.operator
  · unfold AllocationTable.Completed
    rw [htidied.records]
    exact hunfunded.uncompleted

section

variable [DecidableEq Fr] {config : SdkConfig Fr} {deposits : List Deposit}
  {after : SdkWorld Fr} {error : SdkError}
  (hnamed : ∀ id, terms.named id) (hterms : terms.submits)
  (hdisplays : Displays terms start world)
  (hloose : ¬ Steady error)

include hnamed hterms hdisplays hloose

/-- Only the proof of the first chunk fails with an error which looks
fund-free. -/
theorem allocateChunks_unfunded {endpoints : CurvyChainEndpoints}
    {submitted : Bool} {pieces : List (List Deposit)}
    (hunfunded : submitted = false → Unfunded deposits world)
    (hruns : (SdkM.allocateChunks config endpoints submitted pieces).Runs
      (wordedEnvironment terms.refuses) world (.failed error) after) :
    Unfunded deposits after := by
  have hsubmits : terms.submits → ∀ id, terms.named id := fun _ => hnamed
  have hrest : ∀ {middle last pieces},
      Displays terms start middle →
      ¬ (SdkM.allocateChunks config endpoints true pieces).Runs
        (wordedEnvironment terms.refuses) middle (.failed error) last :=
    fun hmiddle hruns => hloose ((allocateChunks_watched hnamed hterms config
      endpoints _).steady hsubmits hmiddle hruns)
  cases submitted with
  | true => exact absurd hruns (hrest hdisplays)
  | false =>
      cases pieces with
      | nil => cases hruns
      | cons chunk rest =>
          rcases hruns.failed_bind with hfirst | ⟨receipts, middle, hfirst,
            hsecond⟩
          · obtain ⟨_, rfl, hchunk⟩ := hfirst.failed_mapError
            rw [SdkM.allocateChunk_eq] at hchunk
            rcases hchunk.failed_bind with hproof | ⟨proved, middle, hproof,
              hsubmit⟩
            · have hphase := (hunfunded rfl).phase
              have hreads : Reads config False
                  (SdkM.proveChunk config endpoints chunk) _ world :=
                proveChunk_reads hphase endpoints chunk
              have hquiet := (sdkEnvironment_of_worded hproof).satisfies hreads
              exact (hunfunded rfl).tidied (.of_quiet hquiet hphase)
            · have hmiddle := (proveChunk_watched config endpoints
                chunk).returns hsubmits hdisplays hproof
              exact absurd ((submitChunk_watched hnamed hterms config
                endpoints chunk proved).steady hsubmits hmiddle hsubmit)
                hloose
          · have hchunk : Watched terms True
                ((SdkM.allocateChunk config endpoints chunk).mapError
                  fun error => if false then SdkM.tagAfterSubmission error
                    else error) fun _ => True :=
              (allocateChunk_watched hnamed hterms config endpoints
                chunk).mapError fun _ _ => rfl
            have hmiddle := hchunk.returns hsubmits hdisplays hfirst
            rcases Program.Runs.failed_bind hsecond with hmore | ⟨_, _, _,
              hdone⟩
            · exact absurd hmore (hrest hmiddle)
            · cases hdone

/-- A call which has settled the journals and fails with an error which looks
fund-free has funded none of its deposits. -/
theorem allocateChecked_unfunded {endpoints : CurvyChainEndpoints}
    (hphase : world.phase = .settled)
    (hrelay : world.memory.relayAggregations = [])
    (hoperator : world.memory.operatorAggregations = [])
    (hruns : (SdkM.allocateChecked config deposits endpoints).Runs
      (wordedEnvironment terms.refuses) world (.failed error) after) :
    Unfunded deposits after := by
  have hsubmits : terms.submits → ∀ id, terms.named id := fun _ => hnamed
  rcases hruns.failed_bind with hread | ⟨state, middle, hread, hrest⟩
  · cases hread with
    | call _ hdone => cases hdone
  have hsame : middle = world := by
    cases hread with
    | call henv hdone =>
        cases hdone
        exact henv.1.2
  subst hsame
  rcases Program.Runs.failed_bind hrest with hcheck |
    ⟨⟨pending, completed⟩, second, hcheck, htail⟩
  · exact absurd ((precheckDeposits_watched _ deposits).steady hsubmits
      hdisplays hcheck) hloose
  have hreads : Reads config False (SdkM.precheckDeposits _ deposits) _
      middle := precheckDeposits_reads hphase state.journalledIds deposits
  obtain ⟨hquiet, _, _, hopen⟩ :=
    (sdkEnvironment_of_worded hcheck).satisfies hreads
  have hunfunded : completed = false → Unfunded deposits second := by
    refine fun h => ⟨hquiet.settled hphase, ?_, ?_, ?_⟩
    · rw [hquiet.memory]
      exact hrelay
    · rw [hquiet.memory]
      exact hoperator
    · rintro deposit hdeposit ⟨record, hrecord, hstage⟩
      rw [hquiet.records] at hrecord
      rw [hopen h deposit hdeposit record hrecord] at hstage
      cases hstage
  have hchecks : Watched terms False
      (SdkM.precheckDeposits state.journalledIds deposits : SdkM Fr _) _ :=
    precheckDeposits_watched state.journalledIds deposits
  have hsecond := hchecks.returns hsubmits hdisplays hcheck
  rcases Program.Runs.failed_bind htail with hrecover |
    ⟨receipts, third, hrecover, hchunks⟩
  · exact absurd ((recoverPending_watched config).steady hsubmits hsecond
      hrecover) hloose
  have hrecovers : Obeyed config False (SdkM.recoverPending config)
      (fun _ last => Tidied second last) (fun _ last => Halted last) second :=
    recoverPending_obeys (hquiet.settled hphase)
  have htidied := (sdkEnvironment_of_worded hrecover).satisfies hrecovers
  have hwatched : Watched terms False (SdkM.recoverPending config) _ :=
    recoverPending_watched config
  have hthird := hwatched.returns hsubmits hsecond hrecover
  rcases Program.Runs.failed_bind hchunks with hfailed | ⟨_, _, _, hdone⟩
  · refine allocateChunks_unfunded hnamed hterms hthird hloose (fun h => ?_)
      hfailed
    exact (hunfunded (Bool.or_eq_false_iff.mp h).2).tidied htidied
  · cases hdone

/-- The journals are settled first, and no error of that looks fund-free. -/
theorem allocate_unfunded (hphase : world.phase = .settled)
    (hruns : (SdkM.allocate config deposits).Runs
      (wordedEnvironment terms.refuses) world (.failed error) after) :
    Unfunded deposits after := by
  have hsubmits : terms.submits → ∀ id, terms.named id := fun _ => hnamed
  rcases hruns.failed_bind with hall | ⟨_, _, _, hdone⟩
  · rw [SdkM.allocateAll_eq] at hall
    rcases hall.failed_bind with hsettle | ⟨endpoints, first, hsettle,
      hchecked⟩
    · exact absurd ((settleJournals_watched hnamed hterms config).steady
        hsubmits hdisplays hsettle) hloose
    · have hwatched : Watched terms False (SdkM.settleJournals config) _ :=
        settleJournals_watched hnamed hterms config
      have hfirst := hwatched.returns hsubmits hdisplays hsettle
      have hsettles : Obeyed config False (SdkM.settleJournals config) _ _
          world := settleJournals_obeys hphase
      obtain ⟨hphase₁, hrelay₁, hoperator₁⟩ :=
        (sdkEnvironment_of_worded hsettle).satisfies hsettles
      exact allocateChecked_unfunded hnamed hterms hfirst hloose hphase₁
        hrelay₁ hoperator₁ hchecked
  · cases hdone

end

end HoprStrategy.Curvy
