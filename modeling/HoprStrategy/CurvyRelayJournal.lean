import HoprStrategy.CurvyRelayInvocation
import HoprStrategy.CurvySpendSession

/-!
# The discipline of the relay journal

The attempts in the journal are proofs of one spend.  One is added beside
others only after the last of them was marked for rebuild, and why it was
marked is read off the history, as is what is known of the tree when one of
several is booked.
-/

namespace HoprStrategy.Curvy

open Library SdkWorld

variable {Fr : Type} {codec : NoteCodec Fr} {start : SdkState}
  {history earlier : List (SdkEvent Fr)} {event : SdkEvent Fr}

/-- Proofs of the same spend on the same deployment. -/
structure Alike (first second : StoredRelayAggregation) : Prop where
  inputs : second.inputs = first.inputs
  allocationIds : second.allocationIds = first.allocationIds
  spendKey : second.spendKey = first.spendKey
  chainId : second.chainId = first.chainId
  aggregator : eqIgnoreAsciiCase first.aggregator second.aggregator = true

structure JournalKept (attempts : List StoredRelayAggregation) : Prop where
  alike : ∀ first ∈ attempts, ∀ second ∈ attempts, Alike first second
  bounded : attempts.length ≤ maxRelayAggregationAttempts
  marked : ∀ attempt ∈ attempts.dropLast, attempt.rebuild = true

theorem Alike.refl (attempt : StoredRelayAggregation) :
    Alike attempt attempt :=
  ⟨rfl, rfl, rfl, rfl, eqIgnoreAsciiCase_refl _⟩

theorem Alike.symm {first second : StoredRelayAggregation}
    (halike : Alike first second) : Alike second first where
  inputs := halike.inputs.symm
  allocationIds := halike.allocationIds.symm
  spendKey := halike.spendKey.symm
  chainId := halike.chainId.symm
  aggregator := eqIgnoreAsciiCase_symm halike.aggregator

theorem Alike.trans {first second third : StoredRelayAggregation}
    (halike : Alike first second) (hnext : Alike second third) :
    Alike first third where
  inputs := hnext.inputs.trans halike.inputs
  allocationIds := hnext.allocationIds.trans halike.allocationIds
  spendKey := hnext.spendKey.trans halike.spendKey
  chainId := hnext.chainId.trans halike.chainId
  aggregator := eqIgnoreAsciiCase_trans halike.aggregator hnext.aggregator

namespace JournalKept

variable {attempts : List StoredRelayAggregation}

theorem nil : JournalKept [] where
  alike first hfirst := by cases hfirst
  bounded := Nat.zero_le _
  marked attempt hattempt := by cases hattempt

/-- A replacement joins attempts of the same spend, the last of which is
marked. -/
theorem concat (hkept : JournalKept attempts)
    {attempt : StoredRelayAggregation}
    (halike : ∀ previous, attempts.getLast? = some previous →
      previous.rebuild = true ∧ Alike previous attempt)
    (hlength : attempts.length < maxRelayAggregationAttempts) :
    JournalKept (attempts ++ [attempt]) := by
  have hnew : ∀ other ∈ attempts, Alike other attempt := by
    intro other hother
    cases hlast : attempts.getLast? with
    | none =>
        rw [List.getLast?_eq_none_iff.mp hlast] at hother
        cases hother
    | some previous =>
        have hprevious := hkept.alike other hother previous
          (List.mem_of_getLast? hlast)
        exact hprevious.trans (halike previous hlast).2
  constructor
  · intro first hfirst second hsecond
    rcases List.mem_append.mp hfirst with hfirst | hfirst
    · rcases List.mem_append.mp hsecond with hsecond | hsecond
      · exact hkept.alike first hfirst second hsecond
      · rw [List.mem_singleton.mp hsecond]
        exact hnew first hfirst
    · rw [List.mem_singleton.mp hfirst]
      rcases List.mem_append.mp hsecond with hsecond | hsecond
      · exact (hnew second hsecond).symm
      · rw [List.mem_singleton.mp hsecond]
        exact .refl attempt
  · rw [List.length_append]
    exact hlength
  · intro other hother
    rw [List.dropLast_concat] at hother
    cases hlast : attempts.getLast? with
    | none =>
        rw [List.getLast?_eq_none_iff.mp hlast] at hother
        cases hother
    | some previous =>
        obtain ⟨older, holder⟩ := List.getLast?_eq_some_iff.mp hlast
        have hmarked := hkept.marked
        rw [holder, List.dropLast_concat] at hmarked
        rw [holder] at hother
        rcases List.mem_append.mp hother with hother | hother
        · exact hmarked other hother
        · rw [List.mem_singleton.mp hother]
          exact (halike previous hlast).1

/-- An entry is rewritten, and stays marked if it was. -/
theorem set (hkept : JournalKept attempts) {index : ℕ}
    {attempt rewritten : StoredRelayAggregation}
    (hattempt : attempts[index]? = some attempt)
    (halike : Alike attempt rewritten)
    (hmarked : attempt.rebuild = true → rewritten.rebuild = true) :
    JournalKept (attempts.set index rewritten) := by
  have hmem := List.mem_of_getElem? hattempt
  constructor
  · intro first hfirst second hsecond
    rcases List.mem_or_eq_of_mem_set hfirst with hfirst | hfirst
    · rcases List.mem_or_eq_of_mem_set hsecond with hsecond | hsecond
      · exact hkept.alike first hfirst second hsecond
      · rw [hsecond]
        exact (hkept.alike first hfirst attempt hmem).trans halike
    · rw [hfirst]
      rcases List.mem_or_eq_of_mem_set hsecond with hsecond | hsecond
      · exact halike.symm.trans (hkept.alike attempt hmem second hsecond)
      · rw [hsecond]
        exact .refl rewritten
  · rw [List.length_set]
    exact hkept.bounded
  · intro other hother
    rw [List.dropLast_eq_take, List.length_set, List.take_set] at hother
    rw [← List.dropLast_eq_take] at hother
    by_cases hindex : index < attempts.dropLast.length
    · rcases List.mem_or_eq_of_mem_set hother with hother | hother
      · exact hkept.marked other hother
      · have hkeeps : attempt ∈ attempts.dropLast := by
          have hget : attempts.dropLast[index]? = some attempt := by
            rw [List.length_dropLast] at hindex
            rw [List.getElem?_dropLast, if_pos hindex]
            exact hattempt
          exact List.mem_of_getElem? hget
        rw [hother]
        exact hmarked (hkept.marked attempt hkeeps)
    · rw [List.set_eq_of_length_le (Nat.le_of_not_lt hindex)] at hother
      exact hkept.marked other hother

theorem dropLast (hkept : JournalKept attempts) :
    JournalKept attempts.dropLast := by
  have hsublist := List.dropLast_sublist attempts
  constructor
  · intro first hfirst second hsecond
    exact hkept.alike first (hsublist.subset hfirst) second
      (hsublist.subset hsecond)
  · exact hsublist.length_le.trans hkept.bounded
  · intro attempt hattempt
    exact hkept.marked attempt
      ((List.dropLast_sublist attempts.dropLast).subset hattempt)

end JournalKept

/-! ## Waits without progress -/

/-- A report on the last attempt, at the end of a wait or not, and whether it
brought news: another status, another transaction, or a request which moved
during the wait. -/
inductive RelayReport where
  | seen (news : Bool)
  | ranOut (news : Bool)

def AttemptUpdate.report (attempt : StoredRelayAggregation) :
    AttemptUpdate → Option RelayReport
  | .observed status transactionHash =>
      some (.seen (attempt.showsProgress status transactionHash))
  | .landed status transactionHash =>
      some (.seen (attempt.showsProgress status transactionHash))
  | .timedOut status transactionHash progressed =>
      some (.ranOut (progressed ||
        attempt.showsProgress status transactionHash))
  | _ => none

/-- The reports which were saved on the attempt which was prepared last, the
last one first. -/
def relayReports (start : SdkState) : List (SdkEvent Fr) → List RelayReport
  | [] => []
  | event :: earlier =>
      match event.stores with
      | some (.prepareRelay, _) => []
      | some (.saveRelayAttempt cause, _) =>
          ((stored start earlier).relayAggregations.getLast?.bind
            cause.report).toList ++ relayReports start earlier
      | _ => relayReports start earlier

/-- The waits which ran out in a row, with no news at their end or since. -/
def quietWaits : List RelayReport → ℕ
  | [] => 0
  | .seen news :: older => if news then 0 else quietWaits older
  | .ranOut news :: older => if news then 0 else quietWaits older + 1

/-- The last news came from a wait which ran out. -/
def lateNews : List RelayReport → Bool
  | [] => false
  | .seen news :: older => if news then false else lateNews older
  | .ranOut news :: older => if news then true else lateNews older

/-- A wait which ran out. -/
def SdkEvent.ranOut :
    SdkEvent Fr → Option (RelayStatus × Option String × Bool)
  | ⟨.awaitInclusion _,
      .error (.timeout _ status transactionHash progressed)⟩ =>
      some (status, transactionHash, progressed)
  | _ => none

/-- After a wait which ran out with news no two waits in a row run out without
any. -/
def NewsFollows (start : SdkState) : List (SdkEvent Fr) → Prop
  | [] => True
  | event :: earlier =>
      (∀ result ∈ event.ranOut,
        lateNews (relayReports start earlier) = true →
        quietWaits (relayReports start earlier) = 1 →
        ∀ attempt ∈ (stored start earlier).relayAggregations.getLast?,
          (result.2.2 || attempt.showsProgress result.1 result.2.1) = true) ∧
      NewsFollows start earlier

instance NewsFollows.decidable (start : SdkState) :
    (history : List (SdkEvent Fr)) → Decidable (NewsFollows start history)
  | [] => inferInstanceAs (Decidable True)
  | _ :: earlier =>
      have := NewsFollows.decidable start earlier
      inferInstanceAs (Decidable (_ ∧ _))

/-- The counter of an attempt: a wait which ran out with news is counted with
the quiet ones after it. -/
def CountsWaits (attempt : StoredRelayAggregation)
    (reports : List RelayReport) : Prop :=
  attempt.timeoutsWithoutProgress.toNat =
    quietWaits reports + (lateNews reports).toNat

theorem CountsWaits.observe {attempt : StoredRelayAggregation}
    {reports : List RelayReport} (hcounts : CountsWaits attempt reports)
    (status : RelayStatus) (transactionHash : Option String) :
    CountsWaits (attempt.observeProgress status transactionHash)
      (.seen (attempt.showsProgress status transactionHash) :: reports) := by
  unfold CountsWaits StoredRelayAggregation.observeProgress
  cases hprogress : attempt.showsProgress status transactionHash with
  | true => rfl
  | false => exact hcounts

theorem saturatingSucc_toNat {count : UInt8}
    (hfew : count < maxRelayTimeoutsWithoutProgress) :
    (saturatingSucc count).toNat = count.toNat + 1 := by
  have hlt : count.toNat < 3 := hfew
  have hne : count ≠ 255 := by
    intro heq
    rw [heq] at hlt
    exact absurd hlt (by decide)
  rw [saturatingSucc, if_neg hne, UInt8.toNat_add]
  simp only [UInt8.toNat_one]
  omega

theorem CountsWaits.timedOut {attempt : StoredRelayAggregation}
    {reports : List RelayReport} (hcounts : CountsWaits attempt reports)
    (hfew : attempt.timeoutsWithoutProgress <
      maxRelayTimeoutsWithoutProgress)
    (status : RelayStatus) (transactionHash : Option String)
    (progressed : Bool) :
    CountsWaits (attempt.timedOut status transactionHash progressed)
      (.ranOut (progressed || attempt.showsProgress status transactionHash) ::
        reports) := by
  unfold CountsWaits StoredRelayAggregation.timedOut
    StoredRelayAggregation.observeProgress
  cases progressed with
  | true => rfl
  | false =>
      cases hprogress : attempt.showsProgress status transactionHash with
      | true => rfl
      | false =>
          have hcount : attempt.timeoutsWithoutProgress.toNat =
            quietWaits reports + (lateNews reports).toNat := hcounts
          simp only [Bool.false_eq_true, if_false, Bool.or_self, quietWaits,
            lateNews, saturatingSucc_toNat hfew, hcount]
          omega

/-- The third count is a third quiet wait, unless the count began with a wait
which ran out with news. -/
theorem CountsWaits.quiet {attempt : StoredRelayAggregation}
    {reports : List RelayReport} (hcounts : CountsWaits attempt reports)
    (hfew : attempt.timeoutsWithoutProgress <
      maxRelayTimeoutsWithoutProgress)
    {status : RelayStatus} {transactionHash : Option String}
    {progressed : Bool}
    (hmarked : (attempt.timedOut status transactionHash progressed).rebuild =
      true)
    (hfollows : lateNews reports = true → quietWaits reports = 1 →
      (progressed || attempt.showsProgress status transactionHash) = true) :
    maxRelayTimeoutsWithoutProgress.toNat ≤ quietWaits
      (.ranOut (progressed || attempt.showsProgress status transactionHash) ::
        reports) := by
  have hcount := hcounts.timedOut hfew status transactionHash progressed
  have hthree : 3 ≤ (attempt.timedOut status transactionHash
    progressed).timeoutsWithoutProgress.toNat := of_decide_eq_true hmarked
  have hold : attempt.timeoutsWithoutProgress.toNat < 3 := hfew
  change 3 ≤ _
  unfold CountsWaits at hcounts hcount
  cases hnews : progressed || attempt.showsProgress status transactionHash with
  | true =>
      rw [hnews] at hcount
      simp [quietWaits, lateNews] at hcount
      omega
  | false =>
      rw [hnews] at hcount hfollows
      simp only [quietWaits, lateNews, Bool.false_eq_true, if_false] at hcount ⊢
      cases hlate : lateNews reports with
      | true =>
          have hone : quietWaits reports ≠ 1 :=
            fun h => Bool.false_ne_true (hfollows hlate h)
          rw [hlate] at hcounts hcount
          simp only [Bool.toNat_true] at hcounts hcount
          omega
      | false =>
          rw [hlate] at hcount
          simp only [Bool.toNat_false] at hcount
          omega

/-! ## Marks -/

/-- Why an attempt is marked for rebuild: a reply which permits a replacement,
a refused re-POST, a failed request beside other attempts, a missing circuit
version, or three waits which ran out in a row without news. -/
inductive RebuildReason (start : SdkState) (history : List (SdkEvent Fr))
    (attempts : ℕ) (attempt : StoredRelayAggregation) : Prop
  | permitted {error : RelayError} (hpermits : error.permitsReplacement = true)
      (hreply : (∃ requestId, attempt.requestId = some requestId ∧
          Reported history (.relayStatus requestId) (.error error)) ∨
        LastReported history
          (.relayByIntent attempt.intent attempt.chainId) (.error error) ∨
        Awaited history attempt (.error error))
  | refusedRepost (hrefused : Refused history attempt.intent true)
  | failedBeside {text : String} (hattempts : attempts ≠ 1)
      (hfailed : Awaited history attempt (.error (.failed text)))
  | missingCircuit (hcircuit : attempt.circuit = none)
  | stalled {requestId : String} {status : RelayStatus}
      {transactionHash : Option String} {progressed : Bool}
      (hwait : Awaited history attempt
        (.error (.timeout requestId status transactionHash progressed)))
      (hwaits : maxRelayTimeoutsWithoutProgress.toNat ≤ quietWaits
        (.ranOut (progressed ||
            attempt.showsProgress status transactionHash) ::
          relayReports start history))

/-- The entry of the proof was marked by an update which is stored, for a
reason. -/
def WasMarked (start : SdkState) (history : List (SdkEvent Fr))
    (attempt : StoredRelayAggregation) : Prop :=
  ∃ recent mark older cause state last marked,
    history = recent ++ mark :: older ∧
    mark.stores = some (.saveRelayAttempt cause, state) ∧
    (stored start older).relayAggregations.getLast? = some last ∧
    last.rebuild = false ∧
    state.relayAggregations.getLast? = some marked ∧
    marked.rebuild = true ∧
    (∀ circuit, attempt.body circuit = last.body circuit) ∧
    RebuildReason start older (stored start older).relayAggregations.length
      last

theorem WasMarked.cons {attempt : StoredRelayAggregation}
    (hmarked : WasMarked start history attempt) (event : SdkEvent Fr) :
    WasMarked start (event :: history) attempt := by
  obtain ⟨recent, mark, older, cause, state, last, entry, hhistory, hmark⟩ :=
    hmarked
  refine ⟨event :: recent, mark, older, cause, state, last, entry, ?_, hmark⟩
  rw [hhistory]
  rfl

theorem WasMarked.same {attempt rewritten : StoredRelayAggregation}
    (hmarked : WasMarked start history attempt)
    (hbody : ∀ circuit, rewritten.body circuit = attempt.body circuit) :
    WasMarked start history rewritten := by
  obtain ⟨recent, mark, older, cause, state, last, entry, hhistory, hstores,
    hlast, hunmarked, hentry, hset, hsame, hreason⟩ := hmarked
  exact ⟨recent, mark, older, cause, state, last, entry, hhistory, hstores,
    hlast, hunmarked, hentry, hset,
    fun circuit => (hbody circuit).trans (hsame circuit), hreason⟩

section AttemptStep

variable {attempts : ℕ} {attempt rewritten : StoredRelayAggregation}
  {cause : AttemptUpdate}

theorem AttemptStep.alike
    (hstep : AttemptStep history attempts attempt cause rewritten) :
    Alike attempt rewritten ∧
      ∀ circuit, rewritten.body circuit = attempt.body circuit := by
  cases hstep <;>
    exact ⟨⟨rfl, rfl, rfl, rfl, eqIgnoreAsciiCase_refl _⟩, fun _ => rfl⟩

/-- A wait which ran out is followed up by the entry of its counter. -/
theorem NewsFollows.awaited (hfollows : NewsFollows start history)
    {requestId : String} {status : RelayStatus}
    {transactionHash : Option String} {progressed : Bool}
    (hlast : (stored start history).relayAggregations.getLast? = some attempt)
    (hawaited : Awaited history attempt
      (.error (.timeout requestId status transactionHash progressed)))
    (hlate : lateNews (relayReports start history) = true)
    (hquiet : quietWaits (relayReports start history) = 1) :
    (progressed || attempt.showsProgress status transactionHash) = true := by
  obtain ⟨submission, _, hreported⟩ := hawaited
  obtain ⟨older, hhistory⟩ := List.head?_eq_some_iff.mp hreported
  subst hhistory
  exact hfollows.1 (status, transactionHash, progressed) rfl hlate hquiet
    attempt hlast

theorem AttemptStep.reason
    (hstep : AttemptStep history attempts attempt cause rewritten)
    (hunmarked : attempt.rebuild = false) (hmarked : rewritten.rebuild = true)
    (hfew : attempt.timeoutsWithoutProgress <
      maxRelayTimeoutsWithoutProgress)
    (hcounts : CountsWaits attempt (relayReports start history))
    (hlast : (stored start history).relayAggregations.getLast? = some attempt)
    (hfollows : NewsFollows start history) :
    RebuildReason start history attempts attempt := by
  have hkept : attempt.rebuild ≠ true := by simp [hunmarked]
  cases hstep with
  | legacyCircuit hcircuit _ => exact .missingCircuit hcircuit
  | lookupRefused hpermits hrefused =>
      apply RebuildReason.permitted hpermits
      rcases hrefused with hstatus | hintent
      · exact Or.inl hstatus
      · exact Or.inr (Or.inl hintent)
  | missingCircuit hcircuit => exact .missingCircuit hcircuit
  | posting _ _ => exact absurd hmarked hkept
  | refusedRepost hrefused => exact .refusedRepost hrefused
  | observed _ => exact absurd hmarked hkept
  | awaitRefused hpermits hawaited =>
      exact .permitted hpermits (Or.inr (Or.inr hawaited))
  | timedOut hawaited =>
      exact .stalled hawaited (hcounts.quiet hfew hmarked
        (hfollows.awaited hlast hawaited))
  | failedBeside hattempts hawaited => exact .failedBeside hattempts hawaited
  | landed _ => exact absurd hmarked hkept

/-- An attempt which stays unmarked goes on counting. -/
theorem AttemptStep.counts
    (hstep : AttemptStep history attempts attempt cause rewritten)
    (hunmarked : rewritten.rebuild = false)
    (hfew : attempt.timeoutsWithoutProgress <
      maxRelayTimeoutsWithoutProgress)
    (hcounts : CountsWaits attempt (relayReports start history)) :
    rewritten.timeoutsWithoutProgress < maxRelayTimeoutsWithoutProgress ∧
      CountsWaits rewritten ((cause.report attempt).toList ++
        relayReports start history) := by
  have hobserved : ∀ status transactionHash,
      (attempt.observeProgress status
        transactionHash).timeoutsWithoutProgress <
          maxRelayTimeoutsWithoutProgress := by
    intro status transactionHash
    unfold StoredRelayAggregation.observeProgress
    dsimp only
    split
    · decide
    · exact hfew
  cases hstep with
  | legacyCircuit _ _ => cases hunmarked
  | lookupRefused _ _ => cases hunmarked
  | missingCircuit _ => cases hunmarked
  | posting _ _ => exact ⟨hfew, hcounts⟩
  | refusedRepost _ => cases hunmarked
  | observed _ => exact ⟨hobserved _ _, hcounts.observe _ _⟩
  | awaitRefused _ _ => cases hunmarked
  | timedOut _ =>
      constructor
      · exact UInt8.not_le.mp (of_decide_eq_false hunmarked)
      · exact hcounts.timedOut hfew _ _ _
  | failedBeside _ _ => cases hunmarked
  | landed _ => exact ⟨hobserved _ _, hcounts.observe _ _⟩

end AttemptStep

/-! ## Histories -/

/-- What an update may do to the journal which is stored. -/
structure Sanctioned (codec : NoteCodec Fr) (start : SdkState)
    (earlier : List (SdkEvent Fr)) (update : Update) (next : SdkState) :
    Prop where
  replaced : ∀ last,
    (stored start earlier).relayAggregations.getLast? = some last →
    (stored start earlier).relayAggregations.length <
      next.relayAggregations.length →
    last.rebuild = true ∧ WasMarked start earlier last
  booked : ∀ index, update = .finishRelay (some index) →
    1 < (stored start earlier).relayAggregations.length →
    ∃ config winner, config.codec = codec ∧
      (stored start earlier).relayAggregations[index]? = some winner ∧
      OutputsFinalized config earlier winner.emitted

def Disciplined (codec : NoteCodec Fr) (start : SdkState) :
    List (SdkEvent Fr) → Prop
  | [] => True
  | event :: earlier =>
      (∀ update next, event.stores = some (update, next) →
        Sanctioned codec start earlier update next) ∧
      Disciplined codec start earlier

structure JournalInvariant (codec : NoteCodec Fr) (start : SdkState)
    (world : SdkWorld Fr) : Prop where
  stored : stored start world.history = world.disk
  journal : world.phase ≠ .saved →
    world.memory.relayAggregations = world.disk.relayAggregations
  kept : JournalKept world.disk.relayAggregations
  marks : NewsFollows start world.history →
    ∀ attempt ∈ world.disk.relayAggregations, attempt.rebuild = true →
      WasMarked start world.history attempt
  counts : ∀ attempt, world.disk.relayAggregations.getLast? = some attempt →
    attempt.rebuild = false →
    attempt.timeoutsWithoutProgress < maxRelayTimeoutsWithoutProgress ∧
      CountsWaits attempt (relayReports start world.history)
  disciplined : NewsFollows start world.history →
    Disciplined codec start world.history

/-! ## One more event -/

theorem relayReports_of_stores_none (hstores : event.stores = none) :
    relayReports start (event :: history) = relayReports start history := by
  simp [relayReports, hstores]

/-- Neither a new attempt nor a report on the last one. -/
def Update.unreported : Update → Bool
  | .prepareRelay | .saveRelayAttempt _ => false
  | _ => true

theorem relayReports_of_unreported {update : Update} {next : SdkState}
    (hstores : event.stores = some (update, next))
    (hupdate : update.unreported = true) :
    relayReports start (event :: history) = relayReports start history := by
  cases update with
  | prepareRelay => cases hupdate
  | saveRelayAttempt cause => cases hupdate
  | _ => simp only [relayReports, hstores]

theorem relayReports_of_attempt {cause : AttemptUpdate} {next : SdkState}
    {attempt : StoredRelayAggregation}
    (hstores : event.stores = some (.saveRelayAttempt cause, next))
    (hlast : (stored start history).relayAggregations.getLast? =
      some attempt) :
    relayReports start (event :: history) =
      (cause.report attempt).toList ++ relayReports start history := by
  simp [relayReports, hstores, hlast]

theorem relayReports_of_winner {next : SdkState}
    (hstores : event.stores =
      some (.saveRelayAttempt .winnerMetadata, next)) :
    relayReports start (event :: history) = relayReports start history := by
  simp only [relayReports, hstores]
  cases (stored start history).relayAggregations.getLast? with
  | none => rfl
  | some attempt => rfl

theorem replaces_alike {config : SdkConfig Fr}
    {endpoints : CurvyChainEndpoints} {intent : String}
    {request : PixAggregationRequest Fr} {inputs : List StoredNote}
    {allocationIds : List PixAddressId} {previous : StoredRelayAggregation}
    (hreplaces : SdkM.replaces previous request endpoints inputs
      allocationIds = true) :
    Alike previous (SdkM.relayAttempt config endpoints intent request inputs
      allocationIds) := by
  simp only [SdkM.replaces, Bool.and_eq_true, beq_iff_eq] at hreplaces
  obtain ⟨⟨⟨⟨hinputs, hids⟩, hkey⟩, hchain⟩, haggregator⟩ := hreplaces
  exact ⟨hinputs.symm, hids.symm, hkey.symm, hchain.symm, haggregator⟩

/-- The journal after one more update. -/
structure NextJournal (codec : NoteCodec Fr) (start : SdkState)
    (history : List (SdkEvent Fr)) (event : SdkEvent Fr) (update : Update)
    (next : SdkState) : Prop where
  kept : JournalKept next.relayAggregations
  marks : NewsFollows start history →
    ∀ attempt ∈ next.relayAggregations, attempt.rebuild = true →
      WasMarked start (event :: history) attempt
  counts : ∀ attempt, next.relayAggregations.getLast? = some attempt →
    attempt.rebuild = false →
    attempt.timeoutsWithoutProgress < maxRelayTimeoutsWithoutProgress ∧
      CountsWaits attempt (relayReports start (event :: history))
  sanctioned : NewsFollows start history →
    Sanctioned codec start history update next

namespace JournalInvariant

variable {world : SdkWorld Fr} {update : Update} {next : SdkState}

/-- An event which stores nothing. -/
theorem record (hinv : JournalInvariant codec start world)
    (hstores : event.stores = none) {phase : Phase}
    (hphase : phase ≠ .saved → world.phase ≠ .saved) :
    JournalInvariant codec start
      { world with
        phase := phase
        history := event :: world.history } where
  stored := (stored_of_stores_none hstores).trans hinv.stored
  journal hsaved := hinv.journal (hphase hsaved)
  kept := hinv.kept
  marks hfollows attempt hattempt hmarked :=
    (hinv.marks hfollows.2 attempt hattempt hmarked).cons event
  counts attempt hlast hunmarked := by
    rw [relayReports_of_stores_none hstores]
    exact hinv.counts attempt hlast hunmarked
  disciplined hfollows := by
    constructor
    · intro update next hupdate
      rw [hstores] at hupdate
      cases hupdate
    · exact hinv.disciplined hfollows.2

theorem store (hinv : JournalInvariant codec start world)
    (hstores : event.stores = some (update, next))
    (hnext : NextJournal codec start world.history event update next)
    {memory : SdkState} {records : AllocationTable} {phase : Phase}
    (hmemory : phase ≠ .saved →
      memory.relayAggregations = next.relayAggregations) :
    JournalInvariant codec start
      { memory := memory
        disk := next
        records := records
        phase := phase
        history := event :: world.history } where
  stored := stored_of_stores hstores
  journal := hmemory
  kept := hnext.kept
  marks hfollows := hnext.marks hfollows.2
  counts := hnext.counts
  disciplined hfollows := by
    constructor
    · intro other state hupdate
      rw [hstores] at hupdate
      cases hupdate
      exact hnext.sanctioned hfollows.2
    · exact hinv.disciplined hfollows.2

/-- An update which has nothing to do with the journal. -/
theorem unchanged (hinv : JournalInvariant codec start world)
    (hstores : event.stores = some (update, next))
    (hupdate : update.unreported = true)
    (hsame : next.relayAggregations = world.disk.relayAggregations)
    (hunbooked : ∀ index, update ≠ .finishRelay (some index)) :
    NextJournal codec start world.history event update next where
  kept := by
    rw [hsame]
    exact hinv.kept
  marks hfollows attempt hattempt hmarked := by
    rw [hsame] at hattempt
    exact (hinv.marks hfollows attempt hattempt hmarked).cons event
  counts attempt hlast hunmarked := by
    rw [relayReports_of_unreported hstores hupdate]
    rw [hsame] at hlast
    exact hinv.counts attempt hlast hunmarked
  sanctioned _ := by
    constructor
    · intro last _ hgrown
      rw [hsame, hinv.stored] at hgrown
      exact absurd hgrown (lt_irrefl _)
    · intro index hbooked
      exact absurd hbooked (hunbooked index)

/-- The journal is emptied. -/
theorem emptied (hnone : next.relayAggregations = [])
    (hbooked : ∀ index, update = .finishRelay (some index) →
      1 < (Curvy.stored start history).relayAggregations.length →
      ∃ config winner, config.codec = codec ∧
        (Curvy.stored start history).relayAggregations[index]? = some winner ∧
        OutputsFinalized config history winner.emitted) :
    NextJournal codec start history event update next where
  kept := by
    rw [hnone]
    exact .nil
  marks _ attempt hattempt := by
    rw [hnone] at hattempt
    cases hattempt
  counts attempt hlast := by
    rw [hnone] at hlast
    cases hlast
  sanctioned _ := by
    constructor
    · intro last _ hgrown
      rw [hnone] at hgrown
      cases hgrown
    · exact hbooked

/-- An attempt is added. -/
theorem prepared (hinv : JournalInvariant codec start world)
    {attempt : StoredRelayAggregation} {allocations : List StoredAllocation}
    {remove : List PixAddressId}
    (hadded : next.relayAggregations =
      world.disk.relayAggregations ++ [attempt])
    (hprevious : ∀ previous,
      world.disk.relayAggregations.getLast? = some previous →
      previous.rebuild = true ∧ Alike previous attempt)
    (hlength : world.disk.relayAggregations.length <
      maxRelayAggregationAttempts)
    (hunmarked : attempt.rebuild = false)
    (hcount : attempt.timeoutsWithoutProgress = 0) :
    NextJournal codec start world.history
      ⟨.saveUpdate .prepareRelay next allocations remove, .ok ()⟩
      .prepareRelay next where
  kept := by
    rw [hadded]
    exact hinv.kept.concat hprevious hlength
  marks hfollows other hother hmarked := by
    rw [hadded] at hother
    rcases List.mem_append.mp hother with hold | hnew
    · exact (hinv.marks hfollows other hold hmarked).cons _
    · rw [List.mem_singleton.mp hnew, hunmarked] at hmarked
      cases hmarked
  counts last hlast _ := by
    rw [hadded, List.getLast?_concat, Option.some.injEq] at hlast
    unfold CountsWaits
    rw [← hlast, hcount]
    exact ⟨by decide, rfl⟩
  sanctioned hfollows := by
    constructor
    · intro last hlast _
      rw [hinv.stored] at hlast
      have hmarked := (hprevious last hlast).1
      exact ⟨hmarked, hinv.marks hfollows last (List.mem_of_getLast? hlast)
        hmarked⟩
    · intro index hbooked
      cases hbooked

/-- The last attempt is dropped, and those before it are marked. -/
theorem dropped (hinv : JournalInvariant codec start world)
    (hdropped : next.relayAggregations =
      world.disk.relayAggregations.dropLast) :
    NextJournal codec start world.history event .dropRejectedAttempt next where
  kept := by
    rw [hdropped]
    exact hinv.kept.dropLast
  marks hfollows attempt hattempt hmarked := by
    rw [hdropped] at hattempt
    exact (hinv.marks hfollows attempt (List.dropLast_subset _ hattempt)
      hmarked).cons event
  counts attempt hlast hunmarked := by
    rw [hdropped] at hlast
    have hmarked := hinv.kept.marked attempt (List.mem_of_getLast? hlast)
    rw [hunmarked] at hmarked
    cases hmarked
  sanctioned _ := by
    constructor
    · intro last _ hgrown
      rw [hdropped, hinv.stored, List.length_dropLast] at hgrown
      omega
    · intro index hbooked
      cases hbooked

/-- An entry is rewritten, and stays marked if it was. -/
theorem rewritten (hinv : JournalInvariant codec start world)
    {cause : AttemptUpdate} {index : ℕ}
    {attempt rewritten : StoredRelayAggregation}
    (hattempt : world.disk.relayAggregations[index]? = some attempt)
    (hset : next.relayAggregations =
      world.disk.relayAggregations.set index rewritten)
    (halike : Alike attempt rewritten)
    (hmarked : attempt.rebuild = true → rewritten.rebuild = true)
    (hmarks : NewsFollows start world.history → rewritten.rebuild = true →
      WasMarked start (event :: world.history) rewritten)
    (hcounts : ∀ last, next.relayAggregations.getLast? = some last →
      last.rebuild = false →
      last.timeoutsWithoutProgress < maxRelayTimeoutsWithoutProgress ∧
        CountsWaits last (relayReports start (event :: world.history))) :
    NextJournal codec start world.history event (.saveRelayAttempt cause)
      next where
  kept := by
    rw [hset]
    exact hinv.kept.set hattempt halike hmarked
  marks hfollows other hother hrebuild := by
    rw [hset] at hother
    rcases List.mem_or_eq_of_mem_set hother with hother | hother
    · exact (hinv.marks hfollows other hother hrebuild).cons event
    · rw [hother] at hrebuild ⊢
      exact hmarks hfollows hrebuild
  counts := hcounts
  sanctioned _ := by
    constructor
    · intro last _ hgrown
      rw [hset, hinv.stored, List.length_set] at hgrown
      exact absurd hgrown (lt_irrefl _)
    · intro other hbooked
      cases hbooked

end JournalInvariant

section

variable [DecidableEq Fr] {config : SdkConfig Fr} {distinct : Prop}
  {world : SdkWorld Fr} {update : Update} {next : SdkState}
  {allocations : List StoredAllocation} {remove : List PixAddressId}

omit [DecidableEq Fr] in
/-- What the guard lets be saved from a clone keeps to the discipline. -/
theorem DurableStep.nextJournal
    (hstep : DurableStep config distinct world update next allocations remove)
    (hinv : JournalInvariant config.codec start world)
    (hphase : world.phase = .settled) :
    NextJournal config.codec start world.history
      ⟨.saveUpdate update next allocations remove, .ok ()⟩ update next := by
  have hjournal := hinv.journal (by simp [hphase])
  have hstores : (⟨.saveUpdate update next allocations remove, .ok ()⟩ :
      SdkEvent Fr).stores = some (update, next) := rfl
  cases hstep with
  | @prepareRelay endpoints intent request inputs _ _ _ hlength hspend =>
      rw [hjournal] at hlength hspend
      apply hinv.prepared (congrArg (· ++ _) hjournal) _ hlength rfl rfl
      intro previous hlast
      rw [hlast] at hspend
      exact ⟨hspend.1, replaces_alike hspend.2.1⟩
  | @saveRelayAttempt cause attempt rewritten hlast hunmarked hstep =>
      rw [hjournal] at hlast
      obtain ⟨halike, hbody⟩ := hstep.alike
      obtain ⟨hfew, hcounts⟩ := hinv.counts attempt hlast hunmarked
      have hattempt : world.disk.relayAggregations[
          world.disk.relayAggregations.length - 1]? = some attempt := by
        rw [← List.getLast?_eq_getElem?]
        exact hlast
      have hset : (world.memory.relayAggregations.set
          (world.memory.relayAggregations.length - 1)
            rewritten).getLast? = some rewritten := by
        rw [hjournal, List.getLast?_eq_getElem?, List.length_set,
          List.getElem?_set_self (List.getElem?_eq_some_iff.mp hattempt).1]
      apply hinv.rewritten hattempt (by rw [hjournal]) halike
      · intro hmarked
        rw [hunmarked] at hmarked
        cases hmarked
      · intro hfollows hmarked
        rw [← hinv.stored] at hlast
        have hreason := hstep.reason hunmarked hmarked hfew hcounts hlast
          hfollows
        rw [hjournal, ← hinv.stored] at hreason
        exact ⟨[], _, world.history, cause, _, attempt, rewritten, rfl,
          hstores, hlast, hunmarked, hset, hmarked, hbody, hreason⟩
      · intro last hget hkept
        rw [hset, Option.some.injEq] at hget
        rw [← hinv.stored] at hlast
        rw [relayReports_of_attempt hstores hlast]
        rw [← hget] at hkept ⊢
        exact hstep.counts hkept hfew hcounts
  | @winnerMetadata index attempt requestId transactionHash hattempt _ _
      hhash _ =>
      rw [hjournal] at hattempt hhash
      have halike : Alike attempt
          { attempt with
            requestId := some requestId
            transactionHash := transactionHash } :=
        ⟨rfl, rfl, rfl, rfl, eqIgnoreAsciiCase_refl _⟩
      apply hinv.rewritten hattempt (by rw [hjournal]) halike
      · exact id
      · intro hfollows hmarked
        have hmarks := hinv.marks hfollows attempt
          (List.mem_of_getElem? hattempt) hmarked
        exact (hmarks.cons _).same fun _ => rfl
      · intro last hget hunmarked
        rw [relayReports_of_winner hstores]
        simp only [hjournal, List.getLast?_eq_getElem?, List.length_set,
          List.getElem?_set] at hget
        split at hget
        · rename_i hindex
          rw [if_pos (List.getElem?_eq_some_iff.mp hattempt).1,
            Option.some.injEq] at hget
          rw [hindex, ← List.getLast?_eq_getElem?] at hattempt
          obtain ⟨hfew, hcounts⟩ := hinv.counts attempt hattempt
            (by rw [← hget] at hunmarked; exact hunmarked)
          rw [← hget, hhash hattempt]
          exact ⟨hfew, hcounts⟩
        · rw [← List.getLast?_eq_getElem?] at hget
          exact hinv.counts last hget hunmarked
  | @bookRelay index attempt change _ hattempt _ _ hfinal _ _ =>
      apply JournalInvariant.emptied rfl
      intro other hother hmany
      cases hother
      rw [hinv.stored, ← hjournal] at hmany ⊢
      exact ⟨config, attempt, rfl, hattempt, hfinal hmany⟩
  | releaseRelay _ _ _ =>
      apply JournalInvariant.emptied rfl
      intro index hbooked
      cases hbooked
  | dropRejectedAttempt _ _ _ =>
      exact hinv.dropped (congrArg List.dropLast hjournal)
  | prepareOperator _ _ _ _ =>
      exact hinv.unchanged hstores rfl hjournal fun _ hsame => by cases hsame
  | bookOperator _ _ _ _ _ =>
      exact hinv.unchanged hstores rfl hjournal fun _ hsame => by cases hsame
  | releaseOperator _ _ =>
      exact hinv.unchanged hstores rfl hjournal fun _ hsame => by cases hsame
  | dropOperatorAttempt _ _ _ =>
      exact hinv.unchanged hstores rfl hjournal fun _ hsame => by cases hsame

theorem Update.unreported_of_mutatesFirst {update : Update}
    (hupdate : update.mutatesFirst = true) :
    update.unreported = true ∧
      ∀ index, update ≠ .finishRelay (some index) := by
  cases update with
  | finishRelay winner => cases hupdate
  | prepareRelay => cases hupdate
  | saveRelayAttempt cause => cases hupdate
  | _ => exact ⟨rfl, by simp⟩

/-- Every guarded call keeps the invariant. -/
theorem JournalInvariant.step {before after : SdkWorld Fr}
    {call : SdkCall Fr} {reply : call.Reply}
    (hinv : JournalInvariant config.codec start before)
    (hstep : GuardedStep config distinct before call reply after) :
    JournalInvariant config.codec start after := by
  cases hstep with
  | read => exact hinv
  | external reply hexternal _ _ =>
      exact hinv.record (SdkEvent.stores_of_not_saves
        (SdkEvent.saves_external hexternal reply)) id
  | found reader _ _ => exact hinv.record rfl id
  | missed reader id reply _ _ => exact hinv.record rfl fun hsaved => hsaved
  | missedMutated id _ _ hphase =>
      exact hinv.record rfl fun _ => by simp [hphase]
  | mutated hphase hstep =>
      obtain ⟨hrelay, _⟩ := hstep.journals
      have hsaved : before.phase ≠ .saved := by simp [hphase]
      exact { hinv with
        journal := fun _ => hrelay.trans (hinv.journal hsaved) }
  | clearedIds hphase =>
      exact { hinv with
        journal := hinv.journal }
  | assigned hphase =>
      exact { hinv with
        journal := fun _ => rfl }
  | saved hphase _ hstep =>
      apply hinv.store rfl (hstep.nextJournal hinv hphase)
      exact fun hsaved => absurd rfl hsaved
  | saveFailed error _ _ => exact hinv.record rfl id
  | @persisted update ids allocations hphase hupdate _ _ =>
      have hstores : (⟨.saveUpdate update before.memory allocations [],
          .ok ()⟩ : SdkEvent Fr).stores = some (update, before.memory) := rfl
      have hsaved : before.phase ≠ .saved := by simp [hphase]
      obtain ⟨hunreported, hunbooked⟩ :=
        Update.unreported_of_mutatesFirst hupdate
      have hnext := hinv.unchanged hstores hunreported (hinv.journal hsaved)
        hunbooked
      exact hinv.store hstores hnext fun _ => rfl
  | stranded error hphase _ =>
      exact hinv.record rfl fun _ => by simp [hphase]

/-! ## Sessions -/

omit [DecidableEq Fr] in
/-- A journal as it was first written: at most one attempt, which is not
marked, and none of whose waits ran out. -/
def FirstWritten (state : SdkState) : Prop :=
  state.relayAggregations = [] ∨ ∃ attempt,
    state.relayAggregations = [attempt] ∧ attempt.rebuild = false ∧
      attempt.timeoutsWithoutProgress = 0

/-- The operations of an adapter, apart from the reset, which nothing
calls. -/
def JournalOperation (codec : NoteCodec Fr) (program : SdkM Fr Unit) : Prop :=
  ∃ config : SdkConfig Fr, config.codec = codec ∧
    AdapterOperation config program ∧ program ≠ SdkM.resetChainState

/-- The worlds of an adapter which started with this state in its store. -/
def JournalReached (codec : NoteCodec Fr) (start : SdkState)
    (records : AllocationTable) (world : SdkWorld Fr) : Prop :=
  Passes sdkEnvironment (fun world => world = .agreeing start records)
    (JournalOperation codec) SdkWorld.resumed SdkWorld.reloaded world

omit [DecidableEq Fr] in
theorem JournalInvariant.agreeing (codec : NoteCodec Fr) {start : SdkState}
    (hstart : FirstWritten start) (records : AllocationTable) :
    JournalInvariant codec start (SdkWorld.agreeing start records) where
  stored := rfl
  journal := fun _ => rfl
  kept := by
    change JournalKept start.relayAggregations
    rcases hstart with hnone | ⟨attempt, hone, _, _⟩
    · rw [hnone]
      exact .nil
    · rw [hone]
      exact JournalKept.nil.concat (by simp) (by decide)
  marks := by
    change _ → ∀ attempt ∈ start.relayAggregations, _
    intro _ attempt hattempt hmarked
    rcases hstart with hnone | ⟨first, hone, hunmarked, _⟩
    · rw [hnone] at hattempt
      cases hattempt
    · rw [hone] at hattempt
      rw [List.mem_singleton.mp hattempt, hunmarked] at hmarked
      cases hmarked
  counts := by
    change ∀ attempt, start.relayAggregations.getLast? = some attempt → _
    intro attempt hlast _
    rcases hstart with hnone | ⟨first, hone, _, hcount⟩
    · rw [hnone] at hlast
      cases hlast
    · rw [hone, List.getLast?_singleton, Option.some.injEq] at hlast
      unfold CountsWaits
      rw [← hlast, hcount]
      exact ⟨by decide, rfl⟩
  disciplined _ := trivial

omit [DecidableEq Fr] in
theorem JournalInvariant.resume {world : SdkWorld Fr}
    (hinv : JournalInvariant codec start world) (hhalted : Halted world) :
    JournalInvariant codec start world.resumed := by
  have hsaved : world.phase ≠ .saved := by
    rcases hhalted with hphase | hphase <;> simp [hphase]
  exact { hinv with
    journal := fun _ => hinv.journal hsaved }

theorem JournalOperation.obeys {program : SdkM Fr Unit}
    (hoperation : JournalOperation codec program) {world : SdkWorld Fr}
    (hphase : world.phase = .settled) :
    program.Obeys sdkEnvironment (SessionGuard codec)
      (fun _ after => Halted after) (fun _ after => Halted after) world := by
  obtain ⟨config, hcodec, hadapter, hreset⟩ := hoperation
  apply (hadapter.obeys hreset hphase).widen
  exact fun _ _ hguard => ⟨config, hcodec, hguard⟩

theorem journalSession (codec : NoteCodec Fr) {start : SdkState}
    (hstart : FirstWritten start) (records : AllocationTable) :
    SessionInvariant sdkEnvironment
      (fun world => world = .agreeing start records)
      (JournalOperation codec) SdkWorld.resumed SdkWorld.reloaded
      (SessionGuard codec) (fun _ after => Halted after)
      (fun _ after => Halted after) (JournalInvariant codec start)
      (fun world => JournalInvariant codec start world ∧ Halted world) where
  started := by
    rintro _ rfl
    exact ⟨.agreeing codec hstart records, Or.inl rfl⟩
  begun := fun _ h => h.1.resume h.2
  recovered := fun _ hinv => ⟨{ hinv with journal := fun _ => rfl }, Or.inl rfl⟩
  returned := fun _ _ hinv hhalted => ⟨hinv, hhalted⟩
  failed := fun _ _ hinv hhalted => ⟨hinv, hhalted⟩
  obeys := fun _ _ hoperation _ => hoperation.obeys rfl
  step := by
    rintro before request reply after hinv ⟨config, rfl, hguard⟩ henv
    exact hinv.step (guardedStep_of_guard hguard henv)

/-- What holds of the relay journal in a world, of how it came about, and of
every invocation of the settling loop there. -/
structure JournalDiscipline (codec : NoteCodec Fr) (start : SdkState)
    (world : SdkWorld Fr) : Prop where
  journals : ∀ state ∈ world.states, JournalKept state.relayAggregations
  stored : stored start world.history = world.disk
  disciplined : NewsFollows start world.history →
    Disciplined codec start world.history
  proofs : ∀ (config : SdkConfig Fr)
    (outcome : Outcome SdkError (Option SdkM.RelayAggregationOutcome))
    (after : SdkWorld Fr),
    (SdkM.reconcileRelayAggregation config).Runs sdkEnvironment world.resumed
      outcome after →
      proofsAsked after.history ≤ proofsAsked world.history + 1
  finishes : ∀ config : SdkConfig Fr,
    Finishes (SdkM.reconcileRelayAggregation config) world.resumed

theorem JournalInvariant.discipline {world : SdkWorld Fr}
    (hinv : JournalInvariant codec start world) :
    JournalDiscipline codec start world where
  journals := by
    intro state hstate
    unfold SdkWorld.states at hstate
    split at hstate
    · rw [List.mem_singleton.mp hstate]
      exact hinv.kept
    · rename_i hsaved
      rcases List.mem_cons.mp hstate with rfl | hmemory
      · exact hinv.kept
      · rw [List.mem_singleton.mp hmemory, hinv.journal hsaved]
        exact hinv.kept
  stored := hinv.stored
  disciplined := hinv.disciplined
  proofs := by
    intro config outcome after hruns
    have hphase : world.resumed.phase = .settled := rfl
    exact reconcileRelayAggregation_proofs hphase hruns
  finishes := fun _ => reconcileRelayAggregation_finishes rfl

/-- The relay journal is kept to its discipline in every world which the
operations of an adapter pass through. -/
theorem relayJournalDiscipline {records : AllocationTable}
    {world : SdkWorld Fr} (hstart : FirstWritten start)
    (hreached : JournalReached codec start records world) :
    JournalDiscipline codec start world :=
  (journalSession codec hstart records).passes (fun _ h => h.1.discipline)
    (fun _ h => h.discipline) hreached

end

/-! ## Runs of one relayer -/

/-- A proof which was never POSTed. -/
def unpostedAttempt : StoredRelayAggregation where
  intent := "first"
  chainId := 100
  aggregator := "aggregator"
  maxInputs := 2
  proof := ⟨[], [], []⟩
  publicSignals := []
  requestKey := "key"
  spendKey := "spend"
  inputs := []
  change := StoredNote.ofOwned digitCodec (digitNote (digit 1) (digit 0))
  emitted := []
  allocationIds := []
  attempted := false
  requestId := none
  transactionHash := none
  rebuild := false
  lastStatus := none
  timeoutsWithoutProgress := 0
  circuit := some ⟨"pix", 1⟩

def unpostedState : SdkState :=
  { SdkState.fresh none with
    relayAggregations := [unpostedAttempt] }

/-- A store and an SDK which work, and a relayer which answers a POST with
this status, and reports the request as being submitted ever after. -/
def waitingAnswer (posted : RelayStatus) (world : SdkWorld (Fin 10))
    (call : SdkCall (Fin 10)) : call.Reply × SdkWorld (Fin 10) :=
  let waiting : RelaySubmission := ⟨"request", .submitting, none, none⟩
  let reply : call.Reply := match call with
    | .client => .ok digitEndpoints
    | .token => .ok (0 : ℕ)
    | .saveUpdate _ _ _ _ => .ok ()
    | .relayFee _ _ => .ok none
    | .protocolFeeCollector => .ok none
    | .buildPixAggregation _ _ _ _ =>
        .ok ⟨2, ⟨[], [], []⟩, [], "key", "spend",
          digitNote (digit 2) (digit 0), [], ⟨"pix", 1⟩⟩
    | .uuid => "second"
    | .relaySubmit _ => .ok (.accepted { waiting with status := posted })
    | .relayStatus _ => .ok waiting
    | .awaitInclusion submission => awaitInclusion submission [.ok waiting]
    | call => unreachable world call
  (reply, world.after call reply)

/-- One allocation after another, each of which waits for the request. -/
def waits (posted : RelayStatus) : ℕ → SdkWorld (Fin 10)
  | 0 => SdkWorld.agreeing unpostedState .empty
  | calls + 1 => ((SdkM.allocate (digitConfig .relayer) []).play
      (waitingAnswer posted) (waits posted calls).resumed).2

theorem waitingAnswer_runs (posted : RelayStatus) (world : SdkWorld (Fin 10)) :
    (SdkM.allocate (digitConfig .relayer) []).Runs sdkEnvironment world
      ((SdkM.allocate (digitConfig .relayer) []).play (waitingAnswer posted)
        world).1
      ((SdkM.allocate (digitConfig .relayer) []).play (waitingAnswer posted)
        world).2 := by
  apply Program.play_runs (waitingAnswer posted)
  intro world call
  refine ⟨?_, rfl⟩
  cases call with
  | readState => exact permits_unreachable world .readState
  | allocation reader id =>
      exact permits_unreachable world (.allocation reader id)
  | awaitInclusion submission => exact ⟨_, rfl⟩
  | _ => trivial

theorem allocate_journalOperation :
    JournalOperation digitCodec (SdkM.allocate (digitConfig .relayer) []) :=
  ⟨digitConfig .relayer, rfl, .allocate [], fun hreset => by cases hreset⟩

theorem journalReached_waits {posted : RelayStatus} {calls : ℕ}
    (hcomplete : ∀ call < calls, ((SdkM.allocate (digitConfig .relayer)
      []).play (waitingAnswer posted) (waits posted call).resumed).1 ≠
        .crashed) :
    JournalReached digitCodec unpostedState .empty (waits posted calls) := by
  left
  induction calls with
  | zero => exact .start rfl
  | succ calls ih =>
      apply Session.complete (ih fun call hcall =>
        hcomplete call (Nat.lt_succ_of_lt hcall)) allocate_journalOperation
        (waitingAnswer_runs posted _)
      exact hcomplete calls (Nat.lt_succ_self calls)

/-- The proof is replaced after three quiet waits. -/
theorem relayJournalDiscipline_waits :
    (waits .submitting 4).disk.relayAggregations.length = 2 ∧
      JournalDiscipline digitCodec unpostedState (waits .submitting 4) ∧
      NewsFollows unpostedState (waits .submitting 4).history :=
  ⟨by decide +kernel, relayJournalDiscipline (Or.inr ⟨_, rfl, rfl, rfl⟩)
    (journalReached_waits (by decide +kernel)), by decide +kernel⟩

/-! ## A wait which ran out with news -/

theorem Disciplined.drop (hdisciplined : Disciplined codec start history)
    (count : ℕ) : Disciplined codec start (history.drop count) := by
  induction count generalizing history with
  | zero => exact hdisciplined
  | succ count ih =>
      cases history with
      | nil => trivial
      | cons event earlier => exact ih hdisciplined.2

theorem Disciplined.last {update : Update} {next : SdkState}
    (hdisciplined : Disciplined codec start history)
    (hlast : history.head?.bind SdkEvent.stores = some (update, next)) :
    Sanctioned codec start history.tail update next := by
  cases history with
  | nil => cases hlast
  | cons event earlier => exact hdisciplined.1 update next hlast

/-- Neither a refusal nor a failure. -/
def SdkEvent.uneventful : SdkEvent Fr → Bool
  | ⟨.relaySubmit _, .error (.rejected _)⟩ => false
  | ⟨.relayStatus _, .error error⟩ => ! error.permitsReplacement
  | ⟨.relayByIntent _ _, .error error⟩ => ! error.permitsReplacement
  | ⟨.awaitInclusion _, .error (.failed _)⟩ => false
  | ⟨.awaitInclusion _, .error error⟩ => ! error.permitsReplacement
  | _ => true

theorem RebuildReason.quietWaits_le {attempts : ℕ}
    {attempt : StoredRelayAggregation}
    (hreason : RebuildReason start history attempts attempt)
    (huneventful : ∀ event ∈ history, event.uneventful = true)
    (hcircuit : attempt.circuit ≠ none) :
    2 ≤ quietWaits (relayReports start history) := by
  cases hreason with
  | @permitted error hpermits hreply =>
      rcases hreply with ⟨requestId, _, hstatus⟩ | hintent | hawaited
      · have hfound := huneventful _ hstatus
        simp [SdkEvent.uneventful, hpermits] at hfound
      · have hfound := huneventful _ (List.mem_of_head? hintent)
        simp [SdkEvent.uneventful, hpermits] at hfound
      · obtain ⟨submission, _, hreported⟩ := hawaited
        have hfound := huneventful _ (List.mem_of_head? hreported)
        cases error with
        | missingRequest => cases hfound
        | rejected => cases hfound
        | _ => cases hpermits
  | refusedRepost hrefused =>
      obtain ⟨body, text, state, rest, _, hhistory⟩ := hrefused
      have hfound := huneventful ⟨.relaySubmit body, .error (.rejected text)⟩
        (by rw [hhistory]; exact List.mem_cons_self)
      cases hfound
  | failedBeside _ hfailed =>
      obtain ⟨submission, _, hreported⟩ := hfailed
      have hfound := huneventful _ (List.mem_of_head? hreported)
      cases hfound
  | missingCircuit hnone => exact absurd hnone hcircuit
  | stalled _ hwaits =>
      have hthree : 3 ≤ quietWaits (_ :: relayReports start history) := hwaits
      simp only [quietWaits] at hthree
      split at hthree
      · omega
      · omega

/-- A wait in which the relayer takes the request up is counted with the two
quiet ones after it. -/
theorem relayJournalDiscipline_lateNews :
    ¬ ∀ (start : SdkState) (records : AllocationTable)
      (world : SdkWorld (Fin 10)), FirstWritten start →
      JournalReached digitCodec start records world →
      Disciplined digitCodec start world.history := by
  intro hclaim
  have hdisciplined := (hclaim unpostedState .empty (waits .queued 4)
    (Or.inr ⟨_, rfl, rfl, rfl⟩)
    (journalReached_waits (by decide +kernel))).drop 6
  have hprepared : ((waits .queued 4).history.drop 6).head?.bind
      SdkEvent.stores = some (.prepareRelay,
        stored unpostedState ((waits .queued 4).history.drop 6)) := by
    decide +kernel
  have hreplaced := (hdisciplined.last hprepared).replaced
  rw [List.tail_drop] at hreplaced
  have hone : (stored unpostedState ((waits .queued 4).history.drop
      7)).relayAggregations.getLast?.isSome = true := by decide +kernel
  obtain ⟨last, hlast⟩ := Option.isSome_iff_exists.mp hone
  obtain ⟨_, recent, mark, older, cause, state, unmarked, marked, hsplit, _,
    hbefore, hunmarked, _, _, _, hreason⟩ :=
      hreplaced last hlast (by decide +kernel)
  have huneventful : ∀ event ∈ (waits .queued 4).history.drop 7,
      event.uneventful = true := by decide +kernel
  have hcounted : ∀ older ∈ ((waits .queued 4).history.drop 7).tails,
      ∀ last ∈ (stored unpostedState older).relayAggregations.getLast?,
        last.rebuild = false → last.circuit ≠ none ∧
          quietWaits (relayReports unpostedState older) < 2 := by
    decide +kernel
  have hsuffix : older <:+ (waits .queued 4).history.drop 7 := by
    rw [hsplit]
    exact (List.suffix_cons mark older).trans (List.suffix_append recent _)
  obtain ⟨hcircuit, hfew⟩ := hcounted older
    ((List.mem_tails _ _).mpr hsuffix) unmarked hbefore hunmarked
  have hmany := hreason.quietWaits_le
    (fun event hevent => huneventful event (hsuffix.subset hevent)) hcircuit
  omega

end HoprStrategy.Curvy
