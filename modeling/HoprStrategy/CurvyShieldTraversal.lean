import HoprStrategy.CurvyRelayLoop

/-!
# Traversal of shielding

Both ways of shielding journal their note first, send money only while the
note is journalled, and book it when the chain knows it.
-/

namespace HoprStrategy.Curvy

open Library SdkWorld

variable {Fr : Type} [DecidableEq Fr] {config : SdkConfig Fr}
  {distinct : Prop} {world : SdkWorld Fr} {α β : Type}

/-! ## Direct shielding -/

/-- The note is the one journalled for direct shielding. -/
def DirectJournalled (config : SdkConfig Fr) (note : OwnedNote Fr)
    (world : SdkWorld Fr) : Prop :=
  ∃ shield, world.memory.directShieldInFlight = some shield ∧
    shield.note.toOwned config.codec = .ok note

omit [DecidableEq Fr] in
theorem DirectJournalled.of_quiet {before after : SdkWorld Fr}
    {note : OwnedNote Fr} (hnote : DirectJournalled config note before)
    (hquiet : Quiet before after) : DirectJournalled config note after := by
  unfold DirectJournalled
  rw [hquiet.memory]
  exact hnote

omit [DecidableEq Fr] in
theorem SeenUnknown.mono {history later : List (SdkEvent Fr)}
    {note : OwnedNote Fr} (hunknown : SeenUnknown config history note)
    (h : history <:+ later) : SeenUnknown config later note := by
  rcases hunknown with ⟨status, hreported, hstatus⟩
  exact ⟨status, hreported.mono h, hstatus⟩

theorem parseAddress_reads (what address : String) :
    Reads config distinct (SdkM.parseAddress config what address)
      (fun _ _ => True) world := by
  unfold SdkM.parseAddress
  split
  · exact reads_pure trivial
  · exact reads_throw

section

variable (hphase : world.phase = .settled)

include hphase

theorem checkVaultToken_reads (endpoints : CurvyChainEndpoints) :
    Reads config distinct (SdkM.checkVaultToken config endpoints)
      (fun _ _ => True) world := by
  apply (token_reads hphase).andThen
  intro token first hfirst _
  split
  · apply (reads_fallible (.vaultToken token) (fun reply => reply) _
      (hfirst.settled hphase) rfl).andThen
    intro _ _ _ _
    exact reads_require.mono fun _ _ _ _ => trivial
  · exact reads_pure trivial

theorem shieldRouterChecked_reads (endpoints : CurvyChainEndpoints) :
    Reads config distinct (SdkM.shieldRouterChecked config endpoints)
      (fun _ _ => True) world := by
  apply reads_ofExcept.andThen
  intro router first hfirst _
  apply (parseAddress_reads _ _).andThen
  intro _ second hsecond _
  apply (checkVaultToken_reads
    ((hfirst.trans hsecond).settled hphase) endpoints).andThen
  exact fun _ _ _ _ => reads_pure trivial

theorem shieldLanded_reads (note : OwnedNote Fr) :
    Reads config distinct (SdkM.shieldLanded config note)
      (fun landed after => landed = false →
        SeenUnknown config after.history note) world := by
  apply (reads_fallible (.noteStatus (config.codec.noteId note)) _ _ hphase
    rfl).mono
  rintro landed after _ ⟨reply, hreply, rfl⟩ rfl
  cases (reply : Except String ℕ) with
  | error error => cases hreply
  | ok status =>
      refine ⟨status, List.mem_cons_self, ?_⟩
      simpa [Except.map] using hreply

theorem submitReconcilingNonceConflicts_reads {note : OwnedNote Fr}
    (call : Bytes) (retries : ℕ)
    (hjournalled : DirectJournalled config note world)
    (hunknown : SeenUnknown config world.history note) :
    Reads config distinct
      (SdkM.submitReconcilingNonceConflicts call
        (SdkM.shieldLanded config note) retries)
      (fun _ _ => True) world := by
  induction retries generalizing world with
  | zero => exact reads_throw
  | succ retries ih =>
      apply (reads_fallible .transactionCount (fun reply => reply) _ hphase
        rfl).andThen
      rintro nonce first hfirst ⟨reply, rfl, rfl⟩
      rcases hjournalled.of_quiet hfirst with ⟨shield, hshield, hnote⟩
      apply (reads_call (.sendModuleCall call nonce)
        ⟨hfirst.settled hphase, shield, note, hshield, hnote,
          hunknown.mono hfirst.history, rfl⟩ rfl).andThen
      intro result second hsecond _
      have hquiet := hfirst.trans hsecond
      have hphase₂ := hquiet.settled hphase
      split
      · exact reads_pure trivial
      · split
        · apply (reads_call (.noncePolls nonce) hphase₂
            rfl).andThen
          intro polls third hthird _
          apply reads_raise.andThen
          intro settled fourth hfourth _
          apply reads_require.andThen
          intro _ fifth hfifth _
          have hquiet₅ := (hthird.trans hfourth).trans hfifth
          apply (shieldLanded_reads (hquiet₅.settled hphase₂)
            note).andThen
          intro landed sixth hsixth hlanded
          have hquiet₆ := hquiet₅.trans hsixth
          split
          · exact reads_pure trivial
          · rename_i hfalse
            exact ih (hquiet₆.settled hphase₂)
              (hjournalled.of_quiet (hquiet.trans hquiet₆))
              (hlanded (by simpa using hfalse))
        · exact reads_throw

theorem observeDirectShield_reads (note : OwnedNote Fr) (attempts : ℕ) :
    Reads config distinct (SdkM.observeDirectShield config note attempts)
      (fun status after => (status = 1 ∨ status = 2) ∧
        Reported after.history (.noteStatus (config.codec.noteId note))
          (.ok status)) world := by
  induction attempts generalizing world with
  | zero => exact reads_throw
  | succ attempts ih =>
      apply (noteStatus_reads hphase _).andThen
      intro status first hfirst hstatus
      split
      · rename_i hseen
        exact reads_pure ⟨hseen, hstatus.reported⟩
      · exact ih (hfirst.settled hphase)

end

section

variable (hphase : world.phase = .settled)

include hphase

theorem directShieldNote_obeys (endpoints : CurvyChainEndpoints)
    (gross : ℕ) :
    Obeyed config distinct (SdkM.directShieldNote config endpoints gross)
      (fun result after => after.phase = .settled ∧
        DirectJournalled config result.1 after)
      (fun _ after => Halted after) world := by
  apply obeys_readState hphase
  split
  · rename_i stored hstored
    apply obeys_require hphase
    intro _
    apply reads_ofExcept.chain hphase
    intro note first hfirst hphase₁ hnote
    refine ⟨hphase₁, stored, ?_, hnote⟩
    rw [hfirst.memory]
    exact hstored
  · rename_i hnone
    apply (shieldRouterChecked_reads hphase endpoints).chain hphase
    intro router first hfirst hphase₁ _
    apply (token_reads hphase₁).chain hphase₁
    intro token second hsecond hphase₂ _
    have hquiet := hfirst.trans hsecond
    rw [← hquiet.memory] at hnone
    apply (reads_fallible (.prepareDirectShield gross token)
      (fun reply => reply) _ ⟨hphase₂, hnone⟩ rfl).chain hphase₂
    rintro note third hthird hphase₃ ⟨reply, rfl, rfl⟩
    apply obeys_readState hphase₃
    apply obeys_mutate hphase₃ rfl
      (.journalDirectShield hnone (reported_sinceSave rfl))
    · exact ⟨rfl, _, rfl, toOwned_ofOwned _ note⟩
    · exact fun _ _ h => Or.inr h

theorem sendDirectShield_reads (endpoints : CurvyChainEndpoints)
    (gross : ℕ) {note : OwnedNote Fr} (router : Option String)
    (hjournalled : DirectJournalled config note world)
    (hunknown : SeenUnknown config world.history note) :
    Reads config distinct
      (SdkM.sendDirectShield config endpoints gross note router)
      (fun status after => (status = 1 ∨ status = 2) ∧
        Reported after.history (.noteStatus (config.codec.noteId note))
          (.ok status)) world := by
  have hrouter : Reads config distinct
      (SdkM.shieldRouter config endpoints router) (fun _ _ => True) world := by
    cases router with
    | none => exact shieldRouterChecked_reads hphase endpoints
    | some router => exact reads_pure trivial
  apply hrouter.andThen
  intro _ first hfirst _
  apply (parseAddress_reads _ _).andThen
  intro _ second hsecond _
  apply (parseAddress_reads _ _).andThen
  intro _ third hthird _
  have hquiet₃ := (hfirst.trans hsecond).trans hthird
  apply (reads_fallible (.shieldCalldata note gross) (fun reply => reply) _
    (hquiet₃.settled hphase) rfl).andThen
  intro calldata fourth hfourth _
  have hquiet₄ := hquiet₃.trans hfourth
  apply (reads_fallible (.encodeRouterShield endpoints gross calldata)
    (fun reply => reply) _ (hquiet₄.settled hphase) rfl).andThen
  intro call fifth hfifth _
  have hquiet₅ := hquiet₄.trans hfifth
  apply (submitReconcilingNonceConflicts_reads (hquiet₅.settled hphase) call
    SdkM.nonceRetries (hjournalled.of_quiet hquiet₅)
    (hunknown.mono hquiet₅.history)).andThen
  intro _ sixth hsixth _
  exact observeDirectShield_reads ((hquiet₅.trans hsixth).settled hphase)
    note directShieldObservations

theorem bookDirectShield_obeys {note : OwnedNote Fr} {observed : ℕ}
    (hjournalled : DirectJournalled config note world)
    (hstatus : observed = 1 ∨ observed = 2)
    (hobserved : Reported world.history
      (.noteStatus (config.codec.noteId note)) (.ok observed)) :
    Obeyed config distinct (SdkM.bookDirectShield config note observed)
      (fun _ after => after.phase = .settled) (fun _ after => Halted after)
      world := by
  rcases hjournalled with ⟨shield, hshield, hnote⟩
  apply obeys_readState hphase
  apply reads_ofExcept.chain hphase
  intro already first hfirst hphase₁ halready
  rw [← hfirst.memory] at hshield halready ⊢
  apply obeys_mutateLast hphase₁ rfl
  · exact .bookDirectShield hshield hnote hstatus
      (hobserved.mono hfirst.history) halready
  · rfl
  · exact fun _ _ h => Or.inr h

theorem directShield_obeys (gross : ℕ) :
    Obeyed config distinct (SdkM.directShield config gross)
      (fun _ after => after.phase = .settled) (fun _ after => Halted after)
      world := by
  apply obeys_require hphase
  intro _
  apply (client_reads hphase).chain hphase
  intro endpoints first hfirst hphase₁ _
  apply Program.Obeys.seq (directShieldNote_obeys hphase₁ endpoints gross)
    fun _ _ h => h
  rintro ⟨note, router⟩ second ⟨hphase₂, hjournalled⟩
  apply (noteStatus_reads hphase₂ _).chain hphase₂
  intro status third hthird hphase₃ hstatus
  have hjournalled₃ := hjournalled.of_quiet hthird
  split
  · rename_i hknown
    apply Program.Obeys.seq (bookDirectShield_obeys hphase₃ hjournalled₃
      hknown hstatus.reported) fun _ _ h => h
    intro _ fourth hphase₄
    exact (recoverPending_obeys hphase₄).mono (fun _ _ h => h.phase)
      fun _ _ h => h
  · rename_i hunknown
    apply (sendDirectShield_reads hphase₃ endpoints gross router hjournalled₃
      ⟨status, hstatus.reported, hunknown⟩).chain hphase₃
    rintro observed fourth hfourth hphase₄ ⟨hknown, hobserved⟩
    apply Program.Obeys.seq (bookDirectShield_obeys hphase₄
      (hjournalled₃.of_quiet hfourth) hknown hobserved) fun _ _ h => h
    intro _ fifth hphase₅
    exact (recoverPending_obeys hphase₅).mono (fun _ _ h => h.phase)
      fun _ _ h => h

end

/-! ## Shielding through a portal -/

section

variable (hphase : world.phase = .settled)

include hphase

theorem portalShield_obeys (gross : ℕ) (recovery : String) :
    Obeyed config distinct (SdkM.portalShield config gross recovery)
      (fun shield after => after.phase = .settled ∧
        after.memory.shieldInFlight = some shield)
      (fun _ after => Halted after) world := by
  apply obeys_readState hphase
  split
  · rename_i shield hshield
    apply obeys_require hphase
    exact fun _ => ⟨hphase, hshield⟩
  · rename_i hnone
    apply (token_reads hphase).chain hphase
    intro token first hfirst hphase₁ _
    rw [← hfirst.memory] at hnone
    apply (reads_fallible (.prepareDeposit gross token recovery)
      (fun reply => reply) _ ⟨hphase₁, hnone⟩ rfl).chain hphase₁
    rintro prepared second hsecond hphase₂ ⟨reply, rfl, rfl⟩
    apply obeys_readState hphase₂
    apply obeys_mutate hphase₂ rfl
      (.journalShield hnone (reported_sinceSave rfl))
    · exact ⟨rfl, rfl⟩
    · exact fun _ _ h => Or.inr h

theorem erc20Balance_reads (token holder : String) :
    Reads config distinct (SdkM.erc20Balance token holder)
      (fun balance after => LastReported after.history
        (.erc20Balance token holder) (.ok balance)) world := by
  apply (reads_fallible (.erc20Balance token holder) (fun reply => reply) _
    hphase rfl).mono
  rintro balance after _ ⟨reply, rfl, rfl⟩
  rfl

theorem fundedPortal_reads (endpoints : CurvyChainEndpoints) (gross : ℕ)
    {shield : StoredShield}
    (hshield : world.memory.shieldInFlight = some shield)
    (hstage : shield.stage = .prepared) :
    Reads config distinct
      (SdkM.fundedPortal config endpoints gross shield.portalAddress)
      (fun balance after => LastReported after.history
        (.erc20Balance endpoints.tokenAddress shield.portalAddress)
        (.ok balance)) world := by
  apply (erc20Balance_reads hphase _ _).andThen
  intro balance first hfirst hbalance
  split
  · rename_i hzero
    subst hzero
    have hphase₁ := hfirst.settled hphase
    unfold SdkM.parseAddress
    split
    · apply (reads_fallible (.fundPortal shield.portalAddress gross)
        (fun reply => reply) _ ⟨hphase₁, shield, _, by
          rw [hfirst.memory]; exact hshield, rfl, hstage, hbalance⟩
        rfl).andThen
      intro _ second hsecond _
      exact erc20Balance_reads (hsecond.settled hphase₁) _ _
    · exact reads_throw
  · exact reads_pure hbalance

theorem fundShield_obeys (endpoints : CurvyChainEndpoints) (gross : ℕ)
    {shield : StoredShield}
    (hshield : world.memory.shieldInFlight = some shield) :
    Obeyed config distinct (SdkM.fundShield config endpoints gross shield)
      (fun _ after => after.phase = .settled ∧
        after.memory.shieldInFlight = some { shield with stage := .funded } ∧
        world.history <:+ after.history)
      (fun _ after => Halted after) world := by
  unfold SdkM.fundShield
  split
  · rename_i hstage
    refine ⟨hphase, ?_, List.suffix_rfl⟩
    rw [hshield, ← hstage]
  · rename_i hstage
    apply (fundedPortal_reads hphase endpoints gross hshield hstage).chain
      hphase
    intro balance first hfirst hphase₁ hbalance
    apply obeys_require hphase₁
    rintro rfl
    rw [← hfirst.memory] at hshield
    apply obeys_readState hphase₁
    apply obeys_mutateLast hphase₁ rfl
      (.markShieldFunded hshield hstage hbalance)
    · exact ⟨rfl, rfl, hfirst.history.trans (List.suffix_cons _ _)⟩
    · exact fun _ _ h => Or.inr h

theorem bookShield_obeys {note : OwnedNote Fr} {observed : ℕ}
    {shield : StoredShield}
    (hshield : world.memory.shieldInFlight = some shield)
    (hnote : shield.note.toOwned config.codec = .ok note)
    (hobserved : Reported world.history
      (.noteStatus (config.codec.noteId note)) (.ok observed))
    (hshielded : (observed = 1 ∨ observed = 2) ∨
      ∃ prepared entry, prepared.note = note ∧
        Reported world.history (.shieldPreparedDeposit prepared)
          (.ok entry)) :
    Obeyed config distinct (SdkM.bookShield config note observed)
      (fun _ after => after.phase = .settled) (fun _ after => Halted after)
      world := by
  apply obeys_readState hphase
  apply reads_ofExcept.chain hphase
  intro already first hfirst hphase₁ halready
  rw [← hfirst.memory] at hshield halready ⊢
  apply obeys_mutateLast hphase₁ rfl
  · refine .bookShield hshield hnote (hobserved.mono hfirst.history) ?_
      halready
    rcases hshielded with hstatus | ⟨prepared, entry, hprepared, hentry⟩
    · exact Or.inl hstatus
    · exact Or.inr ⟨prepared, entry, hprepared,
        hentry.mono hfirst.history⟩
  · rfl
  · exact fun _ _ h => Or.inr h

theorem shieldThroughPortal_obeys (endpoints : CurvyChainEndpoints)
    (gross : ℕ) (recovery : String) :
    Obeyed config distinct
      (SdkM.shieldThroughPortal config endpoints gross recovery)
      (fun _ after => after.phase = .settled) (fun _ after => Halted after)
      world := by
  apply Program.Obeys.seq (portalShield_obeys hphase gross recovery)
    fun _ _ h => h
  rintro shield first ⟨hphase₁, hshield⟩
  apply reads_ofExcept.chain hphase₁
  intro prepared second hsecond hphase₂ hprepared
  have hnote : shield.note.toOwned config.codec = .ok prepared.note ∧
      prepared.portalAddress = shield.portalAddress := by
    unfold SdkM.StoredShield.preparedDeposit at hprepared
    split at hprepared
    · cases howned : shield.note.toOwned config.codec with
      | error error =>
          rw [howned] at hprepared
          cases hprepared
      | ok note =>
          rw [howned] at hprepared
          cases hprepared
          exact ⟨rfl, rfl⟩
    · cases hprepared
  rw [← hsecond.memory] at hshield
  apply (noteStatus_reads hphase₂ _).chain hphase₂
  intro status third hthird hphase₃ hstatus
  rw [← hthird.memory] at hshield
  split
  · rename_i hknown
    apply Program.Obeys.seq (bookShield_obeys hphase₃ hshield hnote.1
      hstatus.reported (Or.inl hknown)) fun _ _ h => h
    intro _ fourth hphase₄
    exact (recoverPending_obeys hphase₄).mono (fun _ _ h => h.phase)
      fun _ _ h => h
  · apply Program.Obeys.seq (fundShield_obeys hphase₃ endpoints gross hshield)
      fun _ _ h => h
    rintro _ fourth ⟨hphase₄, hfunded, hhistory⟩
    apply (reads_fallible (.shieldPreparedDeposit prepared)
      (fun reply => reply) _ ⟨hphase₄, _, hfunded, rfl, hnote.2.symm,
        hnote.1⟩ rfl).chain hphase₄
    rintro entry fifth hfifth hphase₅ ⟨reply, rfl, rfl⟩
    apply Program.Obeys.seq (bookShield_obeys hphase₅ hfunded hnote.1
      (hstatus.reported.mono (hhistory.trans hfifth.history))
      (Or.inr ⟨prepared, entry, rfl, List.mem_cons_self⟩)) fun _ _ h => h
    intro _ sixth hphase₆
    apply Program.Obeys.seq (recoverPending_obeys hphase₆) fun _ _ h => h
    exact fun _ _ h => h.phase

theorem shield_obeys (gross : ℕ) (recovery : String) :
    Obeyed config distinct (SdkM.shield config gross recovery)
      (fun _ after => after.phase = .settled) (fun _ after => Halted after)
      world := by
  apply (client_reads hphase).chain hphase
  intro endpoints first hfirst hphase₁ _
  apply Program.Obeys.seq (reconcileRelayAggregation_obeys hphase₁
    (Names.all first)) fun _ _ h => h
  intro _ second hsecond
  apply Program.Obeys.seq (recoverPending_obeys hsecond.phase) fun _ _ h => h
  intro _ third hthird
  apply obeys_readState hthird.phase
  split
  · exact hthird.phase
  · split
    · exact directShield_obeys hthird.phase gross
    · exact shieldThroughPortal_obeys hthird.phase endpoints gross recovery

theorem ensureFunded_obeys (gross : HoprBalance) (recovery : String) :
    Obeyed config distinct (SdkM.ensureFunded config gross recovery)
      (fun _ after => after.phase = .settled) (fun _ after => Halted after)
      world := by
  apply obeys_require hphase
  intro _
  apply Program.Obeys.seq (shield_obeys hphase gross.wei recovery)
    fun _ _ h => h
  exact fun _ _ h => h

end

end HoprStrategy.Curvy
