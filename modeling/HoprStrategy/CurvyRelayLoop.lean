import HoprStrategy.CurvyRelayTraversal

/-!
# The settling loop of the relay journal

Waiting for a request, booking the attempt which landed, and the loop around
both.
-/

namespace HoprStrategy.Curvy

open Library SdkWorld

variable {Fr : Type} [DecidableEq Fr] {config : SdkConfig Fr}
  {distinct : Prop} {world : SdkWorld Fr} {α β : Type}

/-- The turn ended with the journal settled, or closer to it. -/
def Turned (rebuilt : Bool) (ids : List PixAddressId) (before : SdkWorld Fr) :
    SdkM.Turn α → SdkWorld Fr → Prop
  | .proceed _, after => Settled ids before after
  | .restart, after => rebuilt = false ∧ Advanced ids before after

omit [DecidableEq Fr] in
theorem Settled.after_moved {ids : List PixAddressId}
    {first second third : SdkWorld Fr} (hmoved : RelayMoved ids first second)
    (hsettled : Settled ids second third) : Settled ids first third :=
  ⟨hmoved.trans hsettled.toRelayMoved, hsettled.settled⟩

omit [DecidableEq Fr] in
theorem Advanced.after_moved {ids : List PixAddressId}
    {first second third : SdkWorld Fr} (hmoved : RelayMoved ids first second)
    (hrank : rank second = rank first)
    (hadvanced : Advanced ids second third) : Advanced ids first third :=
  ⟨hmoved.trans hadvanced.toRelayMoved, hadvanced.advanced.trans_eq hrank⟩

omit [DecidableEq Fr] in
theorem Turned.after_moved {rebuilt : Bool} {ids : List PixAddressId}
    {first second third : SdkWorld Fr} {turn : SdkM.Turn α}
    (hturned : Turned rebuilt ids second turn third)
    (hmoved : RelayMoved ids first second) (hrank : rank second = rank first) :
    Turned rebuilt ids first turn third := by
  cases turn with
  | proceed value => exact Settled.after_moved hmoved hturned
  | restart => exact ⟨hturned.1, hturned.2.after_moved hmoved hrank⟩

omit [DecidableEq Fr] in
theorem rank_quiet {before after : SdkWorld Fr} (hquiet : Quiet before after) :
    rank after = rank before := by
  simp only [rank, hquiet.memory]

/-! ## Booking the winner -/

theorem winnerMetadata_obeys (hphase : world.phase = .settled)
    {index : ℕ} {attempt : StoredRelayAggregation} {requestId : String}
    {transactionHash : Option String} {ids : List PixAddressId}
    (hnames : Names ids world)
    (hattempt : world.memory.relayAggregations[index]? = some attempt)
    (hattempted : attempt.attempted = true)
    (hknown : OutputsKnown config world.history attempt.emitted)
    (hhash : world.memory.relayAggregations.getLast? = some attempt →
      transactionHash = attempt.transactionHash)
    (hrequest : world.memory.relayAggregations.getLast? = some attempt →
      Landed world.history attempt requestId) :
    Obeyed config distinct
      (SdkM.saveRelayAttempt .winnerMetadata index
        { attempt with
          requestId := some requestId
          transactionHash := transactionHash })
      (fun _ after => RelayMoved ids world after ∧
        after.memory.relayAggregations.length =
          world.memory.relayAggregations.length ∧
        after.memory.relayAggregations[index]? =
          some { attempt with
            requestId := some requestId
            transactionHash := transactionHash })
      (fun _ after => Halted after) world := by
  apply obeys_readState hphase
  apply obeys_commitLast hphase rfl
    (.winnerMetadata hattempt hattempted hknown hhash hrequest)
  · refine ⟨?_, List.length_set, ?_⟩
    · apply RelayMoved.committed (List.nil_subset _) (List.nil_subset _)
      intro other hother
      rcases List.mem_or_eq_of_mem_set hother with hother | rfl
      · exact hnames other hother
      · exact hnames attempt (List.mem_of_getElem? hattempt)
    · have hbound := (List.getElem?_eq_some_iff.mp hattempt).1
      exact List.getElem?_set_self hbound
  · exact fun _ _ h => h.halted hphase

theorem landedArm_obeys (hphase : world.phase = .settled) {index : ℕ}
    {pending : StoredRelayAggregation} {landed : RelaySubmission}
    {ids : List PixAddressId} (hnames : Names ids world)
    (hindex : index = world.memory.relayAggregations.length - 1)
    (hlast : world.memory.relayAggregations.getLast? = some pending)
    (hunmarked : pending.rebuild = false)
    (hawaited : Awaited world.history pending (.ok landed)) :
    Obeyed config distinct (SdkM.landedArm config index pending landed)
      (fun _ after => Settled ids world after)
      (fun _ after => Halted after) world := by
  have hids := hnames pending (List.mem_of_getLast? hlast)
  apply Program.Obeys.seq (saveRelayAttempt_obeys hphase hindex hlast
    hunmarked (.landed hawaited)) fun _ _ h => h
  rintro _ _ rfl
  have hmoved := rewrote_moved (.landed landed.status landed.transactionHash)
    (show (pending.observeProgress landed.status
      landed.transactionHash).allocationIds ⊆ ids from hids) hnames
  apply obeys_readState rfl
  apply (relayWinner_reads rfl _).chain rfl
  intro result second hquiet hphase₂ hwinner
  rcases result with _ | ⟨winner, attempt⟩
  · exact Or.inl hphase₂
  rcases hwinner winner attempt rfl with ⟨hattempt, hattempted, hknown⟩
  -- The last attempt has the hash which was just saved.
  have hhash : second.memory.relayAggregations.getLast? = some attempt →
      (pending.observeProgress landed.status
        landed.transactionHash).transactionHash.or attempt.transactionHash =
        attempt.transactionHash := by
    intro hget
    rw [hquiet.memory, rewrote_getLast _ hlast,
      Option.some.injEq] at hget
    rw [← hget, Option.or_self]
  have hrequest : second.memory.relayAggregations.getLast? = some attempt →
      Landed second.history attempt landed.requestId := by
    intro hget
    rw [hquiet.memory, rewrote_getLast _ hlast,
      Option.some.injEq] at hget
    obtain ⟨submission, hsubmission, hlanded⟩ := hawaited
    refine ⟨submission, landed, ?_, rfl, ?_⟩
    · rw [← hget]
      exact hsubmission
    · exact hlanded.reported.mono (hmoved.history.trans hquiet.history)
  rw [← hquiet.memory] at hattempt
  apply Program.Obeys.seq (winnerMetadata_obeys hphase₂
    (hmoved.names_quiet hquiet) hattempt hattempted hknown hhash hrequest)
    fun _ _ h => h
  rintro _ third ⟨hwritten, hlength, hwinning⟩
  apply (confirmWinner_reads hwritten.phase _ _).chain hwritten.phase
  intro _ fourth hconfirmed hphase₄ hfinal
  have hmemory := hconfirmed.memory
  rw [← hmemory] at hwinning
  apply (bookRelay_obeys hphase₄ (hwritten.names_quiet hconfirmed)
    hwinning hattempted
    ((hknown.mono hwritten.history).mono hconfirmed.history) _).mono
  · exact fun _ _ hsettled => (hsettled.after_moved
      ((hmoved.trans (hwritten.after_quiet hquiet)).trans_quiet hconfirmed))
  · exact fun _ _ h => h
  · intro hmany
    apply hfinal
    rw [hmemory, hlength, hquiet.memory] at hmany
    exact hmany

/-! ## Waiting for a request -/

theorem awaitedArm_obeys (hphase : world.phase = .settled) {rebuilt : Bool}
    {attempts index : ℕ} {pending : StoredRelayAggregation}
    {result : Except RelayError RelaySubmission} {ids : List PixAddressId}
    (hnames : Names ids world)
    (hattempts : attempts = world.memory.relayAggregations.length)
    (hindex : index = world.memory.relayAggregations.length - 1)
    (hlast : world.memory.relayAggregations.getLast? = some pending)
    (hunmarked : pending.rebuild = false)
    (hawaited : Awaited world.history pending result) :
    Obeyed config distinct
      (SdkM.awaitedArm config rebuilt attempts index pending result)
      (Turned rebuilt ids world) (fun _ after => Halted after) world := by
  unfold SdkM.awaitedArm
  split
  · apply Program.Obeys.seq (landedArm_obeys hphase hnames hindex hlast
      hunmarked hawaited) fun _ _ h => h
    exact fun _ _ hsettled => hsettled
  · apply Program.Obeys.seq (saveRelayAttempt_obeys hphase hindex hlast
      hunmarked (.timedOut hawaited)) fun _ _ h => h
    rintro _ _ rfl
    exact Or.inl rfl
  · rename_i text
    split
    · rename_i hone
      have hattempt : world.memory.relayAggregations = [pending] := by
        rcases List.getLast?_eq_some_iff.mp hlast with ⟨older, holder⟩
        rw [hone, holder] at hattempts
        simp at hattempts
        rw [holder, hattempts]
        rfl
      apply Program.Obeys.seq (releaseRelay_obeys hphase hnames hattempt
        hunmarked (Or.inr ⟨text, hawaited⟩)) fun _ _ h => h
      exact fun _ _ hsettled => Or.inl hsettled.phase
    · apply Program.Obeys.seq (saveRelayAttempt_obeys hphase hindex hlast
        hunmarked (.failedBeside (by rwa [← hattempts]) hawaited))
        fun _ _ h => h
      rintro _ _ rfl
      exact Or.inl rfl
  · split
    · rename_i hpermits
      apply mark_obeys hphase hnames hindex hlast hunmarked
        (.awaitRefused hpermits hawaited)
      exact fun _ hrebuilt hadvanced => ⟨hrebuilt, hadvanced⟩
    · exact Or.inl hphase

theorem awaitArm_obeys (hphase : world.phase = .settled) {rebuilt : Bool}
    {attempts index : ℕ} {posted : StoredRelayAggregation}
    {submission : RelaySubmission} {ids : List PixAddressId}
    (hnames : Names ids world)
    (hattempts : attempts = world.memory.relayAggregations.length)
    (hindex : index = world.memory.relayAggregations.length - 1)
    (hlast : world.memory.relayAggregations.getLast? = some posted)
    (hunmarked : posted.rebuild = false)
    (hfound : FoundSubmission world.history posted submission) :
    Obeyed config distinct
      (SdkM.awaitArm config rebuilt attempts index posted submission)
      (Turned rebuilt ids world) (fun _ after => Halted after) world := by
  have hids := hnames posted (List.mem_of_getLast? hlast)
  apply Program.Obeys.seq (saveRelayAttempt_obeys hphase hindex hlast
    hunmarked (.observed hfound)) fun _ _ h => h
  rintro _ _ rfl
  refine obeys_external rfl (fun _ => rfl) fun reply _ => ?_
  have hquiet := Quiet.record_external (world.rewrote
    (.observed submission.status submission.transactionHash)
    (posted.held submission))
    (show (SdkCall.awaitInclusion submission : SdkCall Fr).external = true
      from rfl) reply
  have hmoved := (rewrote_moved
    (.observed submission.status submission.transactionHash)
    (show (posted.held submission).allocationIds ⊆ ids from hids)
    hnames).trans_quiet hquiet
  have hlength := (congrArg
    (fun state : SdkState => state.relayAggregations.length)
    hquiet.memory).trans rewrote_length
  apply (awaitedArm_obeys hmoved.phase hmoved.names
    (hattempts.trans hlength.symm)
    (hindex.trans (congrArg (· - 1) hlength.symm))
    (rewrote_getLast (.observed submission.status submission.transactionHash)
      hlast) hunmarked ⟨submission, rfl, rfl⟩).mono
  · intro turn after hturned
    apply hturned.after_moved hmoved
    rw [rank_quiet hquiet]
    exact rank_rewrote_unmarked hlast hunmarked hunmarked
  · exact fun _ _ h => h

/-! ## The loop -/

theorem settleArm_obeys (hphase : world.phase = .settled) {rebuilt : Bool}
    {attempts index : ℕ} {pending : StoredRelayAggregation}
    {ids : List PixAddressId} (hnames : Names ids world)
    (hattempts : attempts = world.memory.relayAggregations.length)
    (hindex : index = world.memory.relayAggregations.length - 1)
    (hlast : world.memory.relayAggregations.getLast? = some pending)
    (hunmarked : pending.rebuild = false)
    (hcircuit : rebuilt = true → pending.circuit ≠ none) :
    Obeyed config distinct
      (SdkM.settleArm config rebuilt attempts index pending)
      (Turned rebuilt ids world) (fun _ after => Halted after) world := by
  apply obeys_require hphase
  intro _
  apply Program.Obeys.seq (lookupArm_obeys hphase hnames hindex hlast
    hunmarked) fun _ _ h => h
  intro lookup first hlookup
  match lookup with
  | .restart => exact hlookup
  | .proceed known =>
      rcases hlookup with ⟨hquiet, hknown⟩
      have hphase₁ := hquiet.settled hphase
      have hnames₁ := hnames.of_quiet hquiet
      have hmoved := RelayMoved.of_quiet hquiet hphase hnames
      rw [← hquiet.memory] at hattempts hindex hlast
      match known with
      | some known =>
          apply (awaitArm_obeys hphase₁ hnames₁ hattempts hindex hlast
            hunmarked hknown).mono
          · exact fun _ _ hturned =>
              hturned.after_moved hmoved (rank_quiet hquiet)
          · exact fun _ _ h => h
      | none =>
          apply Program.Obeys.seq (submitArm_obeys hphase₁ hnames₁ hattempts
            hindex hlast hunmarked hcircuit hknown) fun _ _ h => h
          intro submitted second hsubmitted
          match submitted with
          | .restart =>
              exact ⟨hsubmitted.1, hsubmitted.2.after_quiet hquiet⟩
          | .proceed (posted, submission) =>
              have hlength := hsubmitted.length
              apply (awaitArm_obeys hsubmitted.phase hsubmitted.names
                (hattempts.trans hlength.symm)
                (hindex.trans (congrArg (· - 1) hlength.symm))
                hsubmitted.last hsubmitted.unmarked hsubmitted.found).mono
              · intro turn after hturned
                apply hturned.after_moved
                  (hmoved.trans hsubmitted.toRelayMoved)
                rw [hsubmitted.rank_eq hlast hunmarked, rank_quiet hquiet]
              · exact fun _ _ h => h

/-- The last attempt is one just proved. -/
def Renewed (world : SdkWorld Fr) : Prop :=
  ∃ attempt, FreshAttempt attempt ∧
    world.memory.relayAggregations.getLast? = some attempt

/-- What one iteration leaves, with the flag of its result. -/
def Iterated (rebuilt : Bool) (ids : List PixAddressId)
    (before : SdkWorld Fr) : Bool × SdkM.Turn α → SdkWorld Fr → Prop
  | (_, .proceed _), after => Settled ids before after
  | (flag, .restart), after => rebuilt = false ∧
      ((flag = false ∧ Advanced ids before after) ∨
        (flag = true ∧ RelayMoved ids before after ∧ Renewed after))

theorem markLegacyCircuit_obeys (hphase : world.phase = .settled)
    {index : ℕ} {pending : StoredRelayAggregation} {ids : List PixAddressId}
    (hnames : Names ids world)
    (hindex : index = world.memory.relayAggregations.length - 1)
    (hlast : world.memory.relayAggregations.getLast? = some pending) :
    Obeyed config distinct (SdkM.markLegacyCircuit index pending)
      (fun marked after => RelayMoved ids world after ∧
        after.memory.relayAggregations ≠ [] ∧
        (marked.rebuild = true →
          pending.rebuild = true ∨ pending.circuit = none) ∧
        (marked.rebuild = false → marked = pending ∧ after = world))
      (fun _ after => Halted after) world := by
  have hmem := List.mem_of_getLast? hlast
  unfold SdkM.markLegacyCircuit
  split
  · rename_i hlegacy
    rcases hlegacy with ⟨hcircuit, hattempted, hrebuild⟩
    apply Program.Obeys.seq (saveRelayAttempt_obeys hphase hindex hlast
      (by simpa using hrebuild)
      (.legacyCircuit hcircuit (by simpa using hattempted))) fun _ _ h => h
    rintro _ _ rfl
    refine ⟨rewrote_moved _ (hnames pending hmem) hnames, ?_,
      fun _ => Or.inr hcircuit, by simp⟩
    exact List.ne_nil_of_mem
      (List.mem_of_getLast? (rewrote_getLast _ hlast))
  · refine ⟨.of_quiet (Quiet.refl world) hphase hnames,
      List.ne_nil_of_mem hmem, Or.inl, fun _ => ⟨rfl, rfl⟩⟩

theorem relayTurn_obeys (hphase : world.phase = .settled) {rebuilt : Bool}
    {ids : List PixAddressId} (hnames : Names ids world)
    (hrenewed : rebuilt = true → Renewed world) :
    Obeyed config distinct
      (SdkM.relayTurn config (SdkM.rebuildRelayAggregation config) rebuilt)
      (Iterated rebuilt ids world) (fun _ after => Halted after) world := by
  apply obeys_readState hphase
  apply obeys_require hphase
  intro _
  dsimp only
  split
  · rename_i hlast
    exact ⟨.of_quiet (Quiet.refl world) hphase hnames,
      List.getLast?_eq_none_iff.mp hlast⟩
  rename_i pending hlast
  apply (client_reads hphase).chain hphase
  intro endpoints w₁ hquiet₁ hphase₁ _
  apply obeys_require hphase₁
  intro _
  apply (relayWinner_reads hphase₁ _).chain hphase₁
  intro winner w₂ hquiet₂ hphase₂ hwinner
  have hquiet := hquiet₁.trans hquiet₂
  have hmoved := RelayMoved.of_quiet hquiet hphase hnames
  have hmemory := hquiet.memory
  rcases winner with _ | ⟨winner, attempt⟩
  · rw [← hmemory] at hlast
    rw [← hmemory]
    apply Program.Obeys.seq (markLegacyCircuit_obeys hphase₂
      hmoved.names rfl hlast) fun _ _ h => h
    rintro marked w₃ ⟨hmarked, hnonempty, hrebuild, hunmarked⟩
    split
    · rename_i htrue
      have hfirst : rebuilt = false := by
        by_contra hrebuilt
        rcases hrenewed (by simpa using hrebuilt) with ⟨other, hother, hget⟩
        rw [← hmemory, hlast, Option.some.injEq] at hget
        subst hget
        rcases hrebuild htrue with h | h
        · exact absurd hother.unmarked (by simp [h])
        · exact hother.circuit h
      apply obeys_require hmarked.phase
      intro _
      apply Program.Obeys.seq (rebuildRelayAggregation_obeys hmarked.phase
        hmarked.names hnonempty) fun _ _ h => h
      rintro _ w₄ ⟨hrebuilt, attempt, hattempt, happend⟩
      refine ⟨hfirst, Or.inr ⟨rfl, (hmoved.trans hmarked).trans hrebuilt,
        attempt, hattempt, ?_⟩⟩
      rw [happend, List.getLast?_concat]
    · rename_i hfalse
      rcases hunmarked (by simpa using hfalse) with ⟨rfl, rfl⟩
      apply Program.Obeys.seq (settleArm_obeys hphase₂ hmoved.names rfl rfl
        hlast (by simpa using hfalse) _) fun _ _ h => h
      · intro turn w₄ hturned
        have hturned := hturned.after_moved hmoved (rank_quiet hquiet)
        cases turn with
        | proceed value => exact hturned
        | restart =>
            exact ⟨hturned.1, Or.inl ⟨hturned.1, hturned.2⟩⟩
      · intro hrebuilt
        rcases hrenewed hrebuilt with ⟨other, hother, hget⟩
        rw [← hmemory, hlast, Option.some.injEq] at hget
        exact hget ▸ hother.circuit
  · rcases hwinner winner attempt rfl with ⟨hattempt, hattempted, hknown⟩
    apply (confirmWinner_reads hphase₂ _ _).chain hphase₂
    intro _ w₃ hquiet₃ hphase₃ hfinal
    have hmemory₃ := (hquiet.trans hquiet₃).memory
    rw [← hmemory₃] at hattempt hfinal
    apply Program.Obeys.seq (bookRelay_obeys hphase₃
      (hmoved.names_quiet hquiet₃) hattempt hattempted
      (hknown.mono hquiet₃.history) hfinal) fun _ _ h => h
    exact fun _ _ hsettled =>
      hsettled.after_moved (hmoved.trans_quiet hquiet₃)

/-- After a replacement one more iteration is enough, and before it two more
than the rank of the journal. -/
theorem relayLoop_obeys {fuel : ℕ} {rebuilt : Bool}
    {ids : List PixAddressId} (hphase : world.phase = .settled)
    (hnames : Names ids world) (hrenewed : rebuilt = true → Renewed world)
    (hfuel : if rebuilt then 1 ≤ fuel else rank world + 2 ≤ fuel) :
    Obeyed config distinct
      (SdkM.relayLoop config (SdkM.rebuildRelayAggregation config) fuel
        rebuilt)
      (fun _ after => Settled ids world after)
      (fun _ after => Halted after) world := by
  induction fuel generalizing rebuilt world with
  | zero => split at hfuel <;> omega
  | succ fuel ih =>
      apply Program.Obeys.seq (relayTurn_obeys hphase hnames hrenewed)
        fun _ _ h => h
      rintro ⟨flag, turn⟩ after hiterated
      cases turn with
      | proceed outcome => exact hiterated
      | restart =>
          rcases hiterated with ⟨rfl, ⟨rfl, hadvanced⟩ |
            ⟨rfl, hmoved, hafter⟩⟩
          · have hrank := hadvanced.advanced
            apply (ih hadvanced.phase hadvanced.names (by simp) _).mono
            · exact fun _ _ hsettled =>
                hsettled.after_moved hadvanced.toRelayMoved
            · exact fun _ _ h => h
            · simp at hfuel ⊢
              omega
          · apply (ih hmoved.phase hmoved.names (fun _ => hafter) _).mono
            · exact fun _ _ hsettled => hsettled.after_moved hmoved
            · exact fun _ _ h => h
            · simp at hfuel ⊢
              omega

omit [DecidableEq Fr] in
theorem rank_le (world : SdkWorld Fr) :
    rank world ≤ world.memory.relayAggregations.length + 1 := by
  unfold rank
  split
  · exact Nat.zero_le _
  · split <;> omega

omit [DecidableEq Fr] in
theorem Names.all (world : SdkWorld Fr) :
    Names (world.memory.relayAggregations.flatMap (·.allocationIds)) world :=
  fun _ hattempt _ hid => List.mem_flatMap.mpr ⟨_, hattempt, hid⟩

theorem reconcileRelayAggregation_obeys (hphase : world.phase = .settled)
    {ids : List PixAddressId} (hnames : Names ids world) :
    Obeyed config distinct (SdkM.reconcileRelayAggregation config)
      (fun _ after => Settled ids world after)
      (fun _ after => Halted after) world := by
  apply obeys_readState hphase
  apply relayLoop_obeys hphase hnames (by simp)
  have hrank := rank_le world
  simp
  omega

end HoprStrategy.Curvy
