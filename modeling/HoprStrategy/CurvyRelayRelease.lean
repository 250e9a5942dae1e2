import HoprStrategy.CurvyRelayJournal

/-!
# Releases of the relay journal

A copy of a proof which was POSTed may land at any later time, unless the
relayer refused that very POST, or reported its request as failed while no
other copy was outstanding.  The journal is emptied without a winner only when
no copy can land, as long as no wait fails beside a second copy, or on a
request which a conflict named.
-/

namespace HoprStrategy.Curvy

open Library SdkWorld

variable {Fr : Type} {codec : NoteCodec Fr} {start : SdkState}
  {history earlier : List (SdkEvent Fr)} {event : SdkEvent Fr}
  {intent : String} {chainId : ℕ}

/-! ## Copies of a proof -/

/-- A POST of the aggregation with this intent. -/
def SdkEvent.postsProof (intent : String) : SdkEvent Fr → Bool
  | ⟨.relaySubmit body, _⟩ =>
      body.action = .aggregation && body.intent = intent
  | _ => false

/-- A POST which the relayer answered as rejected. -/
def SdkEvent.refused : SdkEvent Fr → Bool
  | ⟨.relaySubmit _, .error (.rejected _)⟩ => true
  | _ => false

/-- The POSTs of the proof which were not refused. -/
def outstanding (intent : String) (history : List (SdkEvent Fr)) : ℕ :=
  history.countP fun event => event.postsProof intent && ! event.refused

/-! ### Requests -/

/-- Which request an event names for the proof with this intent. -/
abbrev Naming (Fr : Type) : Type := String → ℕ → SdkEvent Fr → Option String

/-- In reply to a POST, whoever holds the spend, or by its intent. -/
def SdkEvent.namesRequest : Naming Fr
  | intent, _, ⟨.relaySubmit body, .ok answer⟩ =>
      if body.intent = intent then some answer.submission.requestId else none
  | intent, chainId, ⟨.relayByIntent other network, .ok (some submission)⟩ =>
      if other = intent ∧ network = chainId then some submission.requestId
      else none
  | _, _, _ => none

/-- The proof's own request: a conflict names the one of another POST. -/
def SdkEvent.ownRequest : Naming Fr
  | _, _, ⟨.relaySubmit _, .ok (.conflict _)⟩ => none
  | intent, chainId, event => event.namesRequest intent chainId

def SdkEvent.conflictRequest : Naming Fr
  | intent, _, ⟨.relaySubmit body, .ok (.conflict submission)⟩ =>
      if body.intent = intent then some submission.requestId else none
  | _, _, _ => none

/-- A request which was named, or which one that was named has become. -/
inductive LeadsTo (names : SdkEvent Fr → Option String)
    (history : List (SdkEvent Fr)) : String → Prop
  | named {event : SdkEvent Fr} {requestId : String}
      (hevent : event ∈ history) (hnames : names event = some requestId) :
      LeadsTo names history requestId
  | followed {requestId : String} {submission : RelaySubmission}
      (hleads : LeadsTo names history requestId)
      (hreply : Reported history (.relayStatus requestId) (.ok submission)) :
      LeadsTo names history submission.requestId
  | awaited {submission landed : RelaySubmission}
      (hleads : LeadsTo names history submission.requestId)
      (hreply : Reported history (.awaitInclusion submission) (.ok landed)) :
      LeadsTo names history landed.requestId

theorem LeadsTo.mono {names : SdkEvent Fr → Option String}
    {requestId : String} (hleads : LeadsTo names earlier requestId)
    (hsuffix : earlier <:+ history) : LeadsTo names history requestId := by
  induction hleads with
  | named hevent hnames => exact .named (hsuffix.subset hevent) hnames
  | followed _ hreply ih => exact .followed ih (hreply.mono hsuffix)
  | awaited _ hreply ih => exact .awaited ih (hreply.mono hsuffix)

theorem LeadsTo.cons {names : SdkEvent Fr → Option String}
    {requestId : String} (hleads : LeadsTo names history requestId)
    (event : SdkEvent Fr) : LeadsTo names (event :: history) requestId :=
  hleads.mono (List.suffix_cons event history)

theorem LeadsTo.exists_named {names : SdkEvent Fr → Option String}
    {requestId : String} (hleads : LeadsTo names history requestId) :
    ∃ event ∈ history, (names event).isSome = true := by
  induction hleads with
  | @named event _ hevent hnames =>
      exact ⟨event, hevent, Option.isSome_iff_exists.mpr ⟨_, hnames⟩⟩
  | followed _ _ ih => exact ih
  | awaited _ _ ih => exact ih

theorem SdkEvent.namesRequest_cases (event : SdkEvent Fr) (intent : String)
    (chainId : ℕ) :
    event.namesRequest intent chainId = event.ownRequest intent chainId ∨
      event.namesRequest intent chainId =
        event.conflictRequest intent chainId := by
  rcases event with ⟨call, reply⟩
  cases call with
  | relaySubmit body =>
      rcases (reply : Except RelayError RelayAnswer) with error | answer
      · exact Or.inl rfl
      · cases answer with
        | accepted submission => exact Or.inl rfl
        | conflict submission => exact Or.inr rfl
  | _ => exact Or.inl rfl

/-- A request which was named is the proof's own, or goes back to a
conflict. -/
theorem LeadsTo.own_or_conflict {requestId : String}
    (hleads : LeadsTo (SdkEvent.namesRequest intent chainId) history
      requestId) :
    LeadsTo (SdkEvent.ownRequest intent chainId) history requestId ∨
      LeadsTo (SdkEvent.conflictRequest intent chainId) history
        requestId := by
  induction hleads with
  | @named event _ hevent hnames =>
      rcases event.namesRequest_cases intent chainId with heq | heq
      · exact Or.inl (.named hevent (heq.symm.trans hnames))
      · exact Or.inr (.named hevent (heq.symm.trans hnames))
  | followed _ hreply ih =>
      exact ih.imp (fun h => .followed h hreply) fun h => .followed h hreply
  | awaited _ hreply ih =>
      exact ih.imp (fun h => .awaited h hreply) fun h => .awaited h hreply

/-- A failed wait names nothing. -/
theorem LeadsTo.of_failed {submission : RelaySubmission}
    {text requestId : String}
    (hleads : LeadsTo (SdkEvent.namesRequest intent chainId)
      (⟨.awaitInclusion submission, .error (.failed text)⟩ :: history)
      requestId) :
    LeadsTo (SdkEvent.namesRequest intent chainId) history requestId := by
  induction hleads with
  | named hevent hnames =>
      rcases List.mem_cons.mp hevent with rfl | hold
      · cases hnames
      · exact .named hold hnames
  | followed _ hreply ih =>
      rcases List.mem_cons.mp hreply with heq | hold
      · cases heq
      · exact .followed ih hold
  | awaited _ hreply ih =>
      rcases List.mem_cons.mp hreply with heq | hold
      · cases heq
      · exact .awaited ih hold

/-! ### Releases -/

/-- After this POST its request was reported as failed, with no other copy of
the proof outstanding. -/
def FailedAlone (names : Naming Fr) (intent : String) (chainId : ℕ)
    (later : List (SdkEvent Fr)) (post : SdkEvent Fr)
    (earlier : List (SdkEvent Fr)) : Prop :=
  ∃ recent submission text between,
    later = recent ++
      ⟨.awaitInclusion submission, .error (.failed text)⟩ :: between ∧
    LeadsTo (names intent chainId)
      (⟨.awaitInclusion submission, .error (.failed text)⟩ ::
        (between ++ post :: earlier)) submission.requestId ∧
    outstanding intent between = 0 ∧ outstanding intent earlier = 0

/-- No copy of the attempt's proof which was POSTed can still land, if the
names are of requests of its own. -/
def NoneLands (names : Naming Fr) (history : List (SdkEvent Fr))
    (attempt : StoredRelayAggregation) : Prop :=
  ∀ later post earlier, history = later ++ post :: earlier →
    post.postsProof attempt.intent = true →
    post.refused = true ∨
      FailedAlone names attempt.intent attempt.chainId later post earlier

/-- The POST of a conflict shares the fate of the request which is named. -/
def NothingLands (history : List (SdkEvent Fr))
    (attempt : StoredRelayAggregation) : Prop :=
  NoneLands SdkEvent.namesRequest history attempt

/-- The journal was emptied without a winner only when nothing could land. -/
def ReleasedDead (names : Naming Fr) (start : SdkState) :
    List (SdkEvent Fr) → Prop
  | [] => True
  | event :: earlier =>
      (∀ update next, event.stores = some (update, next) →
        (∀ winner, update ≠ .finishRelay (some winner)) →
        next.relayAggregations = [] →
        ∀ attempt ∈ (stored start earlier).relayAggregations,
          NoneLands names earlier attempt) ∧
      ReleasedDead names start earlier

/-- A wait which ended with its request reported as failed. -/
def SdkEvent.waitFailed : SdkEvent Fr → Bool
  | ⟨.awaitInclusion _, .error (.failed _)⟩ => true
  | _ => false

/-- A UUID which was drawn. -/
def SdkEvent.drawn : SdkEvent Fr → Option String
  | ⟨.uuid, intent⟩ => some (intent : String)
  | _ => none

/-- No wait fails for the only journalled proof while two copies of it are
outstanding. -/
def FailsAlone (start : SdkState) : List (SdkEvent Fr) → Prop
  | [] => True
  | event :: earlier =>
      (event.waitFailed = true →
        (stored start earlier).relayAggregations.length = 1 →
        ∀ attempt ∈ (stored start earlier).relayAggregations,
          outstanding attempt.intent earlier ≤ 1) ∧
      FailsAlone start earlier

/-- The request for which a wait failed. -/
def SdkEvent.failedRequest : SdkEvent Fr → Option String
  | ⟨.awaitInclusion submission, .error (.failed _)⟩ =>
      some submission.requestId
  | _ => none

/-- No wait fails for the only journalled proof on a request which a conflict
named. -/
def FailsUnconflicted (start : SdkState) : List (SdkEvent Fr) → Prop
  | [] => True
  | event :: earlier =>
      (∀ requestId ∈ event.failedRequest,
        (stored start earlier).relayAggregations.length = 1 →
        ∀ attempt ∈ (stored start earlier).relayAggregations,
          ¬ LeadsTo (SdkEvent.conflictRequest attempt.intent attempt.chainId)
            earlier requestId) ∧
      FailsUnconflicted start earlier

/-- A wait fails for the only journalled proof on a request of its names. -/
def FailsNamed (names : Naming Fr) (start : SdkState) :
    List (SdkEvent Fr) → Prop
  | [] => True
  | event :: earlier =>
      (∀ requestId ∈ event.failedRequest,
        (stored start earlier).relayAggregations.length = 1 →
        ∀ attempt ∈ (stored start earlier).relayAggregations,
          LeadsTo (SdkEvent.namesRequest attempt.intent attempt.chainId)
            earlier requestId →
          LeadsTo (names attempt.intent attempt.chainId) earlier requestId) ∧
      FailsNamed names start earlier

/-- A fresh UUID is not the intent of an earlier POST. -/
def FreshIntents : List (SdkEvent Fr) → Prop
  | [] => True
  | event :: earlier =>
      (∀ intent ∈ event.drawn, ∀ post ∈ earlier,
        post.postsProof intent = false) ∧
      FreshIntents earlier

instance FailsAlone.decidable (start : SdkState) :
    (history : List (SdkEvent Fr)) → Decidable (FailsAlone start history)
  | [] => inferInstanceAs (Decidable True)
  | _ :: earlier =>
      have := FailsAlone.decidable start earlier
      inferInstanceAs (Decidable (_ ∧ _))

instance FreshIntents.decidable :
    (history : List (SdkEvent Fr)) → Decidable (FreshIntents history)
  | [] => inferInstanceAs (Decidable True)
  | _ :: earlier =>
      have := FreshIntents.decidable earlier
      inferInstanceAs (Decidable (_ ∧ _))

theorem FailsNamed.refl (start : SdkState) (history : List (SdkEvent Fr)) :
    FailsNamed SdkEvent.namesRequest start history := by
  induction history with
  | nil => trivial
  | cons event earlier ih => exact ⟨fun _ _ _ _ _ hleads => hleads, ih⟩

theorem FailsUnconflicted.failsNamed
    (hfails : FailsUnconflicted start history) :
    FailsNamed SdkEvent.ownRequest start history := by
  induction history with
  | nil => trivial
  | cons event earlier ih =>
      refine ⟨?_, ih hfails.2⟩
      intro requestId hrequest hone attempt hattempt hleads
      exact hleads.own_or_conflict.resolve_right
        (hfails.1 requestId hrequest hone attempt hattempt)

/-- A POST which was answered with a conflict. -/
def SdkEvent.conflicts : SdkEvent Fr → Bool
  | ⟨.relaySubmit _, .ok (.conflict _)⟩ => true
  | _ => false

theorem failsUnconflicted_of_none
    (hnone : ∀ event ∈ history, event.conflicts = false) :
    FailsUnconflicted start history := by
  induction history with
  | nil => trivial
  | cons event earlier ih =>
      obtain ⟨_, hearlier⟩ := List.forall_mem_cons.mp hnone
      refine ⟨?_, ih hearlier⟩
      intro requestId _ _ attempt _ hleads
      obtain ⟨⟨call, reply⟩, hmem, hnames⟩ := hleads.exists_named
      cases call with
      | relaySubmit body =>
          rcases (reply : Except RelayError RelayAnswer) with error | answer
          · cases hnames
          · cases answer with
            | accepted submission => cases hnames
            | conflict submission => cases hearlier _ hmem
      | _ => cases hnames

theorem outstanding_append (first second : List (SdkEvent Fr)) :
    outstanding intent (first ++ second) =
      outstanding intent first + outstanding intent second :=
  List.countP_append

theorem outstanding_post {post : SdkEvent Fr}
    (hpost : post.postsProof intent = true) (haccepted : post.refused ≠ true) :
    outstanding intent (post :: history) = outstanding intent history + 1 := by
  unfold outstanding
  rw [List.countP_cons_of_pos]
  simp [hpost, haccepted]

/-- The request of the only outstanding copy fails. -/
theorem noneLands_of_failed {names : Naming Fr}
    {attempt : StoredRelayAggregation} {submission : RelaySubmission}
    {text : String}
    (hown : LeadsTo (names attempt.intent attempt.chainId)
      (⟨.awaitInclusion submission, .error (.failed text)⟩ :: history)
      submission.requestId)
    (halone : outstanding attempt.intent history ≤ 1) :
    NoneLands names (⟨.awaitInclusion submission, .error (.failed text)⟩ ::
      history) attempt := by
  intro later post earlier hsplit hpost
  by_cases hrefused : post.refused = true
  · exact Or.inl hrefused
  cases later with
  | nil =>
      cases hsplit
      cases hpost
  | cons report between =>
      obtain ⟨hreport, hbetween⟩ := List.cons.inj hsplit
      rw [hbetween, List.append_eq] at hown halone
      rw [outstanding_append, outstanding_post hpost hrefused] at halone
      refine Or.inr ⟨[], submission, text, between, ?_, hown, by omega,
        by omega⟩
      rw [List.nil_append, hreport]

/-- The first and only POST of the proof is refused. -/
theorem noneLands_of_refused {names : Naming Fr}
    {attempt : StoredRelayAggregation}
    {post save : SdkEvent Fr} (hrefused : post.refused = true)
    (hsave : save.postsProof attempt.intent = false)
    (hfirst : ∀ other ∈ history, other.postsProof attempt.intent = false) :
    NoneLands names (post :: save :: history) attempt := by
  intro later other earlier hsplit hother
  have hmem : other ∈ post :: save :: history := by
    rw [hsplit]
    exact List.mem_append_right later List.mem_cons_self
  rcases List.mem_cons.mp hmem with heq | hmem
  · rw [heq]
    exact Or.inl hrefused
  rcases List.mem_cons.mp hmem with heq | hmem
  · rw [heq, hsave] at hother
    cases hother
  · rw [hfirst other hmem] at hother
    cases hother

/-- The last copy of a proof which was not refused. -/
theorem exists_lastPost (houtstanding : outstanding intent history ≠ 0) :
    ∃ later post earlier, history = later ++ post :: earlier ∧
      post.postsProof intent = true ∧ post.refused ≠ true ∧
      outstanding intent history = outstanding intent earlier + 1 := by
  induction history with
  | nil => exact absurd rfl houtstanding
  | cons event older ih =>
      by_cases hcopy : event.postsProof intent = true ∧ event.refused ≠ true
      · exact ⟨[], event, older, rfl, hcopy.1, hcopy.2,
          outstanding_post hcopy.1 hcopy.2⟩
      · have hsame : outstanding intent (event :: older) =
            outstanding intent older := by
          unfold outstanding
          rw [List.countP_cons_of_neg]
          simpa using hcopy
        rw [hsame] at houtstanding ⊢
        obtain ⟨later, post, earlier, hsplit, hpost⟩ := ih houtstanding
        refine ⟨event :: later, post, earlier, ?_, hpost⟩
        rw [hsplit, List.cons_append]

/-- Beside an earlier copy no report settles the last one. -/
theorem NoneLands.outstanding_le {names : Naming Fr}
    {attempt : StoredRelayAggregation}
    (hdead : NoneLands names history attempt) :
    outstanding attempt.intent history ≤ 1 := by
  by_cases hnone : outstanding attempt.intent history = 0
  · omega
  obtain ⟨later, post, earlier, hsplit, hpost, haccepted, hcount⟩ :=
    exists_lastPost hnone
  rcases hdead later post earlier hsplit hpost with hrefused | hfailed
  · exact absurd hrefused haccepted
  · obtain ⟨_, _, _, _, _, _, _, hfirst⟩ := hfailed
    omega

/-- An outstanding copy which cannot land has a request. -/
theorem NoneLands.leadsTo {names : Naming Fr}
    {attempt : StoredRelayAggregation}
    (hdead : NoneLands names history attempt)
    (houtstanding : outstanding attempt.intent history ≠ 0) :
    ∃ requestId, LeadsTo (names attempt.intent attempt.chainId) history
      requestId := by
  obtain ⟨later, post, earlier, hsplit, hpost, haccepted, _⟩ :=
    exists_lastPost houtstanding
  rcases hdead later post earlier hsplit hpost with hrefused | hfailed
  · exact absurd hrefused haccepted
  · obtain ⟨recent, submission, text, between, hlater, hleads, _⟩ := hfailed
    refine ⟨submission.requestId, hleads.mono ⟨recent, ?_⟩⟩
    rw [hsplit, hlater, List.append_assoc, List.cons_append]

/-- What the last event released. -/
theorem ReleasedDead.last {names : Naming Fr} {next : SdkState}
    (hdead : ReleasedDead names start history)
    (hlast : history.head?.bind SdkEvent.stores =
      some (.finishRelay none, next))
    (hempty : next.relayAggregations = []) :
    ∀ attempt ∈ (stored start history.tail).relayAggregations,
      NoneLands names history.tail attempt := by
  cases history with
  | nil => cases hlast
  | cons event earlier =>
      exact hdead.1 (.finishRelay none) next hlast (fun _ h => by cases h)
        hempty

/-! ## The journal and its POSTs -/

/-- No copy of a proof was POSTed before the entry of its first POST. -/
def PostedAfter : List (SdkEvent Fr) → Prop
  | [] => True
  | event :: earlier =>
      (∀ state, event.stores =
          some (.saveRelayAttempt (.posting false), state) →
        ∀ attempt, state.relayAggregations.getLast? = some attempt →
          ∀ post ∈ earlier, post.postsProof attempt.intent = false) ∧
      PostedAfter earlier

/-- What is known of the last attempt while it is not marked. -/
structure LastAttempt (history : List (SdkEvent Fr))
    (attempt : StoredRelayAggregation) : Prop where
  unposted : attempt.attempted = false →
    ∀ post ∈ history, post.postsProof attempt.intent = false
  request : ∀ requestId, attempt.requestId = some requestId →
    LeadsTo (SdkEvent.namesRequest attempt.intent attempt.chainId) history
      requestId

/-- What holds of the stored journal and the history. -/
structure Landing (names : Naming Fr) (start : SdkState)
    (journal : List StoredRelayAggregation) (history : List (SdkEvent Fr)) :
    Prop where
  last : ∀ attempt, journal.getLast? = some attempt →
    attempt.rebuild = false → LastAttempt history attempt
  posted : PostedAfter history
  released : ReleasedDead names start history

theorem SdkEvent.postsProof_of_stores {update : Update} {next : SdkState}
    (hstores : event.stores = some (update, next)) (intent : String) :
    event.postsProof intent = false := by
  rcases event with ⟨call, reply⟩
  cases call with
  | relaySubmit body => cases hstores
  | _ => rfl

theorem LastAttempt.cons {attempt : StoredRelayAggregation}
    (hlast : LastAttempt history attempt)
    (hquiet : attempt.attempted = false →
      event.postsProof attempt.intent = false) :
    LastAttempt (event :: history) attempt where
  unposted := by
    intro hattempted post hmem
    rcases List.mem_cons.mp hmem with heq | hold
    · rw [heq]
      exact hquiet hattempted
    · exact hlast.unposted hattempted post hold
  request requestId hrequest := (hlast.request requestId hrequest).cons event

namespace Landing

variable {names : Naming Fr} {journal : List StoredRelayAggregation}
  {update : Update} {next : SdkState}

/-- An event which stores nothing. -/
theorem record (hlanding : Landing names start journal history)
    (hstores : event.stores = none)
    (hquiet : ∀ attempt, journal.getLast? = some attempt →
      attempt.rebuild = false → attempt.attempted = false →
      event.postsProof attempt.intent = false) :
    Landing names start journal (event :: history) where
  last attempt hattempt hunmarked :=
    (hlanding.last attempt hattempt hunmarked).cons
      (hquiet attempt hattempt hunmarked)
  posted := by
    refine ⟨?_, hlanding.posted⟩
    intro state hposting
    rw [hstores] at hposting
    cases hposting
  released := by
    refine ⟨?_, hlanding.released⟩
    intro update next hupdate
    rw [hstores] at hupdate
    cases hupdate

theorem store (hlanding : Landing names start journal history)
    (hstores : event.stores = some (update, next))
    (hlast : ∀ attempt, next.relayAggregations.getLast? = some attempt →
      attempt.rebuild = false → LastAttempt history attempt)
    (hposting : update = .saveRelayAttempt (.posting false) →
      ∀ attempt, next.relayAggregations.getLast? = some attempt →
        ∀ post ∈ history, post.postsProof attempt.intent = false)
    (hreleased : (∀ winner, update ≠ .finishRelay (some winner)) →
      next.relayAggregations = [] →
      ∀ attempt ∈ (stored start history).relayAggregations,
        NoneLands names history attempt) :
    Landing names start next.relayAggregations (event :: history) where
  last attempt hattempt hunmarked :=
    (hlast attempt hattempt hunmarked).cons fun _ =>
      SdkEvent.postsProof_of_stores hstores attempt.intent
  posted := by
    refine ⟨?_, hlanding.posted⟩
    intro state hsaved
    rw [hstores] at hsaved
    cases hsaved
    exact hposting rfl
  released := by
    refine ⟨?_, hlanding.released⟩
    intro other state hsaved
    rw [hstores] at hsaved
    cases hsaved
    exact hreleased

/-- An update which leaves the journal alone. -/
theorem unchanged (hlanding : Landing names start journal history)
    (hstores : event.stores = some (update, next))
    (hstored : (stored start history).relayAggregations = journal)
    (hsame : next.relayAggregations = journal)
    (hunposting : update ≠ .saveRelayAttempt (.posting false)) :
    Landing names start next.relayAggregations (event :: history) := by
  apply hlanding.store hstores
  · rw [hsame]
    exact hlanding.last
  · intro hposting
    exact absurd hposting hunposting
  · intro _ hnone attempt hattempt
    rw [hstored, ← hsame, hnone] at hattempt
    cases hattempt

end Landing

/-! ## The steps of the journal -/

theorem LastReported.history_eq {call : SdkCall Fr} {reply : call.Reply}
    (hlast : LastReported history call reply) :
    ∃ older, history = ⟨call, reply⟩ :: older :=
  List.head?_eq_some_iff.mp hlast

theorem AttemptStep.lastAttempt {attempts : ℕ} {cause : AttemptUpdate}
    {attempt rewritten : StoredRelayAggregation}
    (hstep : AttemptStep history attempts attempt cause rewritten)
    (hlast : LastAttempt history attempt)
    (hunmarked : rewritten.rebuild = false) :
    LastAttempt history rewritten := by
  cases hstep with
  | legacyCircuit => cases hunmarked
  | lookupRefused => cases hunmarked
  | missingCircuit => cases hunmarked
  | refusedRepost => cases hunmarked
  | awaitRefused => cases hunmarked
  | failedBeside => cases hunmarked
  | posting hrequest _ =>
      constructor
      · intro hunposted
        cases hunposted
      · exact hlast.request
  | timedOut _ => exact ⟨hlast.unposted, hlast.request⟩
  | landed _ => exact ⟨hlast.unposted, hlast.request⟩
  | observed hfound =>
      refine ⟨hlast.unposted, ?_⟩
      intro requestId hrequest
      cases hrequest
      rcases hfound with ⟨known, hknown, hreply⟩ | hreply | ⟨_, body, answer,
        hbody, hanswer, hreply⟩
      · exact .followed (hlast.request known hknown) hreply.reported
      · exact .named hreply.reported (if_pos ⟨rfl, rfl⟩)
      · exact .named hreply.reported (by rw [← hanswer]; exact if_pos hbody)

theorem AttemptStep.firstPost {attempts : ℕ} {cause : AttemptUpdate}
    {attempt rewritten : StoredRelayAggregation}
    (hstep : AttemptStep history attempts attempt cause rewritten)
    (hcause : cause = .posting false) :
    attempt.attempted = false ∧ rewritten.intent = attempt.intent := by
  cases hstep with
  | posting _ _ => exact ⟨AttemptUpdate.posting.inj hcause, rfl⟩
  | _ => cases hcause

/-- The last entry after one entry is rewritten. -/
theorem getLast?_set_cases {attempts : List StoredRelayAggregation}
    {index : ℕ} {attempt rewritten last : StoredRelayAggregation}
    (hattempt : attempts[index]? = some attempt)
    (hlast : (attempts.set index rewritten).getLast? = some last) :
    (last = rewritten ∧ attempts.getLast? = some attempt) ∨
      attempts.getLast? = some last := by
  simp only [List.getLast?_eq_getElem?, List.length_set,
    List.getElem?_set] at hlast ⊢
  split at hlast
  · rename_i hindex
    rw [if_pos (List.getElem?_eq_some_iff.mp hattempt).1,
      Option.some.injEq] at hlast
    rw [← hindex]
    exact Or.inl ⟨hlast.symm, hattempt⟩
  · exact Or.inr hlast

section

variable [DecidableEq Fr] {config : SdkConfig Fr} {distinct : Prop}
  {world : SdkWorld Fr} {update : Update} {next : SdkState}
  {allocations : List StoredAllocation} {remove : List PixAddressId}

omit [DecidableEq Fr] in
/-- The last attempt is dead once its first POST is refused. -/
theorem Landing.refusal {names : Naming Fr}
    {journal : List StoredRelayAggregation}
    {attempt : StoredRelayAggregation}
    (hlanding : Landing names start journal history)
    (hstored : (stored start history).relayAggregations.getLast? =
      some attempt)
    (hrefused : Refused history attempt.intent false) :
    NoneLands names history attempt := by
  obtain ⟨body, text, state, rest, hintent, hhistory⟩ := hrefused
  have hposted := hlanding.posted
  rw [hhistory] at hposted hstored ⊢
  exact noneLands_of_refused rfl rfl (hposted.2.1 state rfl attempt hstored)

omit [DecidableEq Fr] in
/-- A release follows the refusal of the only POST, or a failed wait. -/
theorem Landing.releases {names : Naming Fr}
    {attempt : StoredRelayAggregation}
    (hlanding : Landing names start [attempt] history)
    (hstored : (stored start history).relayAggregations = [attempt])
    (halone : FailsAlone start history)
    (hnamed : FailsNamed names start history)
    (hunmarked : attempt.rebuild = false)
    (hdead : Refused history attempt.intent false ∨
      ∃ text, Awaited history attempt (.error (.failed text))) :
    NoneLands names history attempt := by
  rcases hdead with hrefused | ⟨text, submission, hrequest, hfailed⟩
  · exact hlanding.refusal (by rw [hstored]; rfl) hrefused
  · obtain ⟨older, hhistory⟩ := hfailed.history_eq
    have hleads := (hlanding.last attempt rfl hunmarked).request
      submission.requestId hrequest
    rw [hhistory] at hleads halone hnamed hstored ⊢
    have hone : (stored start older).relayAggregations = [attempt] := hstored
    have hlength : (stored start older).relayAggregations.length = 1 := by
      rw [hone]
      rfl
    have hmem : attempt ∈ (stored start older).relayAggregations := by
      rw [hone]
      exact List.mem_singleton_self attempt
    have hown := hnamed.1 submission.requestId rfl hlength attempt hmem
      hleads.of_failed
    exact noneLands_of_failed (hown.cons _)
      (halone.1 rfl hlength attempt hmem)

omit [DecidableEq Fr] in
/-- What the guard lets be saved from a clone. -/
theorem DurableStep.landing {names : Naming Fr}
    (hstep : DurableStep config distinct world update next allocations remove)
    (hinv : JournalInvariant config.codec start world)
    (hlanding : Landing names start world.disk.relayAggregations
      world.history)
    (hphase : world.phase = .settled) (hfresh : FreshIntents world.history)
    (halone : FailsAlone start world.history)
    (hnamed : FailsNamed names start world.history) :
    Landing names start next.relayAggregations
      (⟨.saveUpdate update next allocations remove, .ok ()⟩ ::
        world.history) := by
  have hjournal := hinv.journal (by simp [hphase])
  have hstored : (stored start world.history).relayAggregations =
      world.disk.relayAggregations := by
    rw [hinv.stored]
  have hstores : (⟨.saveUpdate update next allocations remove, .ok ()⟩ :
      SdkEvent Fr).stores = some (update, next) := rfl
  cases hstep with
  | @prepareRelay endpoints intent _ _ _ hintent _ _ _ =>
      apply hlanding.store hstores
      · intro attempt hattempt _
        rw [List.getLast?_concat, Option.some.injEq] at hattempt
        rw [← hattempt]
        obtain ⟨older, hhistory⟩ := hintent.history_eq
        rw [hhistory] at hfresh ⊢
        constructor
        · intro _ post hmem
          rcases List.mem_cons.mp hmem with heq | hold
          · rw [heq]
            rfl
          · exact hfresh.1 intent rfl post hold
        · intro requestId hrequest
          cases hrequest
      · intro hposting
        cases hposting
      · intro _ hnone
        simp at hnone
  | @saveRelayAttempt cause attempt rewritten hlast hunmarked hstep =>
      rw [hjournal] at hlast
      have hattempt := hlast
      rw [List.getLast?_eq_getElem?] at hattempt
      have hknown := hlanding.last attempt hlast hunmarked
      have hcases : ∀ last, (world.memory.relayAggregations.set
          (world.memory.relayAggregations.length - 1)
            rewritten).getLast? = some last →
          last = rewritten ∨ last = attempt := by
        intro last hget
        rw [hjournal] at hget
        rcases getLast?_set_cases hattempt hget with ⟨heq, _⟩ | hold
        · exact Or.inl heq
        · rw [hlast, Option.some.injEq] at hold
          exact Or.inr hold.symm
      apply hlanding.store hstores
      · intro last hget hkept
        rcases hcases last hget with heq | heq
        · rw [heq] at hkept ⊢
          exact hstep.lastAttempt hknown hkept
        · rw [heq]
          exact hknown
      · intro hposting last hget post hmem
        obtain ⟨hunposted, hsame⟩ :=
          hstep.firstPost (Update.saveRelayAttempt.inj hposting)
        rcases hcases last hget with heq | heq
        · rw [heq, hsame]
          exact hknown.unposted hunposted post hmem
        · rw [heq]
          exact hknown.unposted hunposted post hmem
      · intro _ hnone
        have hlength := congrArg List.length hnone
        rw [List.length_set, hjournal] at hlength
        rw [List.length_eq_zero_iff.mp hlength] at hlast
        cases hlast
  | @winnerMetadata index attempt requestId _ hattempt hattempted _ _
      hrequest =>
      rw [hjournal] at hattempt hrequest
      apply hlanding.store hstores
      · intro last hget hunmarked
        rw [hjournal] at hget
        rcases getLast?_set_cases hattempt hget with ⟨heq, hlast⟩ | hold
        · rw [heq] at hunmarked ⊢
          constructor
          · intro hunposted
            rw [hattempted] at hunposted
            cases hunposted
          · intro known hknown
            cases hknown
            obtain ⟨submission, landed, hsubmission, hlanded, hreply⟩ :=
              hrequest hlast
            rw [← hlanded]
            exact .awaited ((hlanding.last attempt hlast hunmarked).request
              submission.requestId hsubmission) hreply
        · exact hlanding.last last hold hunmarked
      · intro hposting
        cases hposting
      · intro _ hnone
        have hlength := congrArg List.length hnone
        rw [List.length_set, hjournal] at hlength
        rw [List.length_eq_zero_iff.mp hlength] at hattempt
        cases hattempt
  | @bookRelay index _ _ _ _ _ _ _ _ _ =>
      apply hlanding.store hstores
      · intro last hget
        cases hget
      · intro hposting
        cases hposting
      · intro hother
        exact absurd rfl (hother index)
  | @releaseRelay attempt hattempts hunmarked hdead =>
      rw [hjournal] at hattempts
      rw [hattempts] at hlanding hstored
      apply hlanding.store hstores
      · intro last hget
        cases hget
      · intro hposting
        cases hposting
      · intro _ _ other hother
        rw [hstored, List.mem_singleton] at hother
        rw [hother]
        exact hlanding.releases hstored halone hnamed hunmarked hdead
  | @dropRejectedAttempt attempt hlast hmany _ =>
      rw [hjournal] at hlast hmany
      apply hlanding.store hstores
      · intro last hget hunmarked
        rw [hjournal] at hget
        have hmarked := hinv.kept.marked last (List.mem_of_getLast? hget)
        rw [hunmarked] at hmarked
        cases hmarked
      · intro hposting
        cases hposting
      · intro _ hnone
        have hlength := congrArg List.length hnone
        rw [hjournal, List.length_dropLast, List.length_nil] at hlength
        have hpositive := List.length_pos_of_mem (List.mem_of_getLast? hlast)
        omega
  | prepareOperator _ _ _ _ =>
      exact hlanding.unchanged hstores hstored hjournal fun h => by cases h
  | bookOperator _ _ _ _ _ =>
      exact hlanding.unchanged hstores hstored hjournal fun h => by cases h
  | releaseOperator _ _ =>
      exact hlanding.unchanged hstores hstored hjournal fun h => by cases h
  | dropOperatorAttempt _ _ _ =>
      exact hlanding.unchanged hstores hstored hjournal fun h => by cases h

/-- A POST finds its entry marked as attempted. -/
theorem Guard.quiet_of_unattempted {call : SdkCall Fr} {reply : call.Reply}
    (hguard : Guard config distinct world call)
    (hinv : JournalInvariant codec start world)
    {attempt : StoredRelayAggregation}
    (hlast : world.disk.relayAggregations.getLast? = some attempt)
    (hunposted : attempt.attempted = false) :
    SdkEvent.postsProof attempt.intent ⟨call, reply⟩ = false := by
  cases call with
  | relaySubmit body =>
      obtain ⟨hphase, haction⟩ := hguard
      by_cases haggregation : body.action = .aggregation
      · obtain ⟨other, _, _, _, _, hother, _, hattempted, _⟩ :=
          haction haggregation
        rw [hinv.journal (by simp [hphase]), hlast, Option.some.injEq]
          at hother
        rw [← hother, hunposted] at hattempted
        cases hattempted
      · simp [SdkEvent.postsProof, haggregation]
  | _ => rfl

/-- Every guarded call keeps what is known of the journal. -/
theorem Landing.step {names : Naming Fr} {before after : SdkWorld Fr}
    {call : SdkCall Fr} {reply : call.Reply}
    (hinv : JournalInvariant config.codec start before)
    (hlanding : FreshIntents before.history →
      FailsAlone start before.history →
      FailsNamed names start before.history →
      Landing names start before.disk.relayAggregations before.history)
    (hstep : GuardedStep config distinct before call reply after)
    (hfresh : FreshIntents after.history)
    (halone : FailsAlone start after.history)
    (hnamed : FailsNamed names start after.history) :
    Landing names start after.disk.relayAggregations after.history := by
  have hstored : (stored start before.history).relayAggregations =
      before.disk.relayAggregations := by
    rw [hinv.stored]
  cases hstep with
  | read => exact hlanding hfresh halone hnamed
  | external reply hexternal hguard _ =>
      apply (hlanding hfresh.2 halone.2 hnamed.2).record (SdkEvent.stores_of_not_saves
        (SdkEvent.saves_external hexternal reply))
      intro attempt hlast _ hunposted
      exact hguard.quiet_of_unattempted hinv hlast hunposted
  | found => exact (hlanding hfresh.2 halone.2 hnamed.2).record rfl fun _ _ _ _ => rfl
  | missed => exact (hlanding hfresh.2 halone.2 hnamed.2).record rfl fun _ _ _ _ => rfl
  | missedMutated =>
      exact (hlanding hfresh.2 halone.2 hnamed.2).record rfl fun _ _ _ _ => rfl
  | mutated => exact hlanding hfresh halone hnamed
  | clearedIds => exact hlanding hfresh halone hnamed
  | assigned => exact hlanding hfresh halone hnamed
  | saved hphase _ hstep =>
      exact hstep.landing hinv (hlanding hfresh.2 halone.2 hnamed.2) hphase
        hfresh.2 halone.2 hnamed.2
  | saveFailed =>
      exact (hlanding hfresh.2 halone.2 hnamed.2).record rfl fun _ _ _ _ => rfl
  | @persisted update ids allocations hphase hupdate _ _ =>
      have hsaved : before.phase ≠ .saved := by simp [hphase]
      have hstores : (⟨.saveUpdate update before.memory allocations [],
          .ok ()⟩ : SdkEvent Fr).stores = some (update, before.memory) := rfl
      apply (hlanding hfresh.2 halone.2 hnamed.2).unchanged hstores hstored
        (hinv.journal hsaved)
      intro hposting
      rw [hposting] at hupdate
      cases hupdate
  | stranded =>
      exact (hlanding hfresh.2 halone.2 hnamed.2).record rfl fun _ _ _ _ => rfl

/-! ## Sessions -/

omit [DecidableEq Fr] in
/-- No proof of the journal was POSTed before. -/
def Unposted (state : SdkState) : Prop :=
  ∀ attempt ∈ state.relayAggregations,
    attempt.attempted = false ∧ attempt.requestId = none

/-- What is known of the journal while the UUIDs are fresh, no wait fails
beside a second copy, and every one on a request of the proof's own. -/
def Lands (codec : NoteCodec Fr) (start : SdkState) (world : SdkWorld Fr) :
    Prop :=
  JournalInvariant codec start world ∧
    (FreshIntents world.history → FailsAlone start world.history →
      FailsNamed SdkEvent.ownRequest start world.history →
      Landing SdkEvent.ownRequest start world.disk.relayAggregations
        world.history)

omit [DecidableEq Fr] in
theorem Landing.agreeing (names : Naming Fr) (hunposted : Unposted start) :
    Landing names start start.relayAggregations [] where
  last attempt hattempt _ := by
    obtain ⟨_, hrequest⟩ := hunposted attempt (List.mem_of_getLast? hattempt)
    constructor
    · intro _ post hmem
      cases hmem
    · intro requestId hknown
      rw [hrequest] at hknown
      cases hknown
  posted := trivial
  released := trivial

theorem landingSession (codec : NoteCodec Fr) {start : SdkState}
    (hstart : FirstWritten start) (hunposted : Unposted start)
    (records : AllocationTable) :
    SessionInvariant sdkEnvironment
      (fun world => world = .agreeing start records)
      (JournalOperation codec) SdkWorld.resumed SdkWorld.reloaded
      (SessionGuard codec) (fun _ after => Halted after)
      (fun _ after => Halted after) (Lands codec start)
      (fun world => Lands codec start world ∧ Halted world) where
  started := by
    rintro _ rfl
    exact ⟨⟨.agreeing codec hstart records,
      fun _ _ _ => .agreeing SdkEvent.ownRequest hunposted⟩, Or.inl rfl⟩
  begun := fun _ h => ⟨h.1.1.resume h.2, h.1.2⟩
  recovered := fun _ h =>
    ⟨⟨{ h.1 with journal := fun _ => rfl }, h.2⟩, Or.inl rfl⟩
  returned := fun _ _ hlands hhalted => ⟨hlands, hhalted⟩
  failed := fun _ _ hlands hhalted => ⟨hlands, hhalted⟩
  obeys := fun _ _ hoperation _ => hoperation.obeys rfl
  step := by
    rintro before request reply after ⟨hinv, hlanding⟩ ⟨config, rfl, hguard⟩
      henv
    have hstep := guardedStep_of_guard hguard henv
    exact ⟨hinv.step hstep, Landing.step hinv hlanding hstep⟩

/-- While the UUIDs are fresh and no wait fails for the only journalled proof
beside a second copy of it, or on a request which a conflict named, the journal
is emptied without a winner only when no copy of a journalled proof can
land. -/
theorem relayReleases {records : AllocationTable} {world : SdkWorld Fr}
    (hstart : FirstWritten start) (hunposted : Unposted start)
    (hreached : JournalReached codec start records world)
    (hfresh : FreshIntents world.history)
    (halone : FailsAlone start world.history)
    (hunconflicted : FailsUnconflicted start world.history) :
    ReleasedDead SdkEvent.ownRequest start world.history :=
  ((landingSession codec hstart hunposted records).passes
    (fun _ h => h.1) (fun _ h => h) hreached).2 hfresh halone
      hunconflicted.failsNamed |>.released

end

/-! ## A request which fails beside an earlier copy -/

/-- A store which works, and a relayer which finds nothing by intent and
answers POSTs alike. -/
def relayerAnswer (submitted : Except RelayError RelayAnswer)
    (world : SdkWorld (Fin 10)) (call : SdkCall (Fin 10)) :
    call.Reply × SdkWorld (Fin 10) :=
  let reply : call.Reply := match call with
    | .client => .ok digitEndpoints
    | .saveUpdate _ _ _ _ => .ok ()
    | .relaySubmit _ => submitted
    | .relayByIntent _ _ => .ok none
    | call => unreachable world call
  (reply, world.after call reply)

/-- The next allocation, during which the relayer gives this answer. -/
def allocated (submitted : Except RelayError RelayAnswer)
    (world : SdkWorld (Fin 10)) : Outcome SdkError Unit × SdkWorld (Fin 10) :=
  (SdkM.allocate (digitConfig .relayer) []).play (relayerAnswer submitted)
    world.resumed

theorem allocated_runs (submitted : Except RelayError RelayAnswer)
    (world : SdkWorld (Fin 10)) :
    (SdkM.allocate (digitConfig .relayer) []).Runs sdkEnvironment
      world.resumed (allocated submitted world).1
      (allocated submitted world).2 := by
  apply Program.play_runs (relayerAnswer submitted)
  intro world call
  refine ⟨?_, rfl⟩
  cases call with
  | readState => exact permits_unreachable world .readState
  | allocation reader id =>
      exact permits_unreachable world (.allocation reader id)
  | awaitInclusion submission =>
      exact permits_unreachable world (.awaitInclusion submission)
  | _ => trivial

theorem unpostedState_unposted : Unposted unpostedState := by
  intro attempt hattempt
  rw [List.mem_singleton.mp hattempt]
  exact ⟨rfl, rfl⟩

/-- The response to the first POST is lost. -/
def lostWorld : SdkWorld (Fin 10) :=
  (allocated (.error (.transport "lost"))
    (SdkWorld.agreeing unpostedState .empty)).2

/-- A POST is accepted, and its request fails. -/
def failedAfter (world : SdkWorld (Fin 10)) : SdkWorld (Fin 10) :=
  (allocated (.ok (.accepted ⟨"request", .failed, none, none⟩)) world).2

theorem relayReleases_failedAlone :
    (failedAfter (.agreeing unpostedState .empty)).disk.relayAggregations =
      [] ∧
      ReleasedDead SdkEvent.ownRequest unpostedState
        (failedAfter (.agreeing unpostedState .empty)).history :=
  ⟨by decide +kernel, relayReleases (Or.inr ⟨_, rfl, rfl, rfl⟩)
    unpostedState_unposted (Or.inr ⟨_, _, _, .start rfl, allocate_journalOperation,
      allocated_runs _ _⟩) (by decide +kernel) (by decide +kernel)
    (failsUnconflicted_of_none (by decide +kernel))⟩

/-- The lost POST may still land when the copy after it has failed. -/
theorem relayReleases_not_always :
    ¬ ∀ (start : SdkState) (records : AllocationTable)
      (world : SdkWorld (Fin 10)), FirstWritten start → Unposted start →
      JournalReached digitCodec start records world →
      FreshIntents world.history →
      ReleasedDead SdkEvent.ownRequest start world.history := by
  intro hreleases
  have hlost : Session sdkEnvironment
      (fun world => world = .agreeing unpostedState .empty)
      (JournalOperation digitCodec) SdkWorld.resumed SdkWorld.reloaded
      lostWorld := by
    have hstart : Session sdkEnvironment
        (fun world => world = .agreeing unpostedState .empty)
        (JournalOperation digitCodec) SdkWorld.resumed SdkWorld.reloaded
        (.agreeing unpostedState .empty) := .start rfl
    exact hstart.complete allocate_journalOperation
      (allocated_runs (.error (.transport "lost")) _) (by rintro ⟨⟩)
  have hdead := hreleases unpostedState .empty (failedAfter lostWorld)
    (Or.inr ⟨_, rfl, rfl, rfl⟩) unpostedState_unposted
    (Or.inr ⟨lostWorld, _, _, hlost, allocate_journalOperation,
      allocated_runs _ _⟩) (by decide +kernel)
  have hlast : (failedAfter lostWorld).history.head?.bind SdkEvent.stores =
      some (.finishRelay none, (failedAfter lostWorld).disk) := by
    decide +kernel
  have htwo : ∃ attempt ∈ (stored unpostedState
      (failedAfter lostWorld).history.tail).relayAggregations,
      outstanding attempt.intent (failedAfter lostWorld).history.tail = 2 := by
    decide +kernel
  obtain ⟨attempt, hattempt, hcount⟩ := htwo
  have hone := (hdead.last hlast (by decide +kernel) attempt
    hattempt).outstanding_le
  rw [hcount] at hone
  contradiction

/-- The only POST is answered with a conflict, and the request which it names
fails. -/
def conflictWorld : SdkWorld (Fin 10) :=
  (allocated (.ok (.conflict ⟨"older", .failed, none, none⟩))
    (SdkWorld.agreeing unpostedState .empty)).2

/-- The failure of another request releases the inputs as well. -/
theorem relayReleases_conflict :
    ¬ ReleasedDead SdkEvent.ownRequest unpostedState
      conflictWorld.history := by
  intro hdead
  have hlast : conflictWorld.history.head?.bind SdkEvent.stores =
      some (.finishRelay none, conflictWorld.disk) := by decide +kernel
  have hjournal : ∃ attempt ∈ (stored unpostedState
      conflictWorld.history.tail).relayAggregations,
      outstanding attempt.intent conflictWorld.history.tail ≠ 0 ∧
        ∀ event ∈ conflictWorld.history.tail,
          event.ownRequest attempt.intent attempt.chainId = none := by
    decide +kernel
  obtain ⟨attempt, hattempt, houtstanding, hnone⟩ := hjournal
  obtain ⟨requestId, hleads⟩ := (hdead.last hlast (by decide +kernel) attempt
    hattempt).leadsTo houtstanding
  obtain ⟨event, hevent, hnamed⟩ := hleads.exists_named
  rw [hnone event hevent] at hnamed
  cases hnamed

end HoprStrategy.Curvy
