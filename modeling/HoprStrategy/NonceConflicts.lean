import HoprStrategy.CurvyShield
import HoprStrategy.Library.ProgramTranslation

/-!
# The nonce of a Safe module call

The node's other transactions take their nonces from elsewhere, so a module
call may lose its nonce, or find an earlier copy of itself there.  What a
submission asks of the chain are its calls; between two of them any
transaction of the node may be mined.
-/

namespace HoprStrategy.Curvy

open Library

/-- The closures which a submission is given. -/
inductive SubmitCall where
  | transactionCount
  | send (nonce : ℕ)
  /-- The transaction counts which are read until the deadline. -/
  | settlePolls (nonce : ℕ)
  | alreadyExecuted

def SubmitCall.Reply : SubmitCall → Type
  | .transactionCount => Except String ℕ
  | .send _ => Except String String
  | .settlePolls _ => List (Except String ℕ)
  | .alreadyExecuted => Except String Bool

inductive SubmitError where
  | querying (error : String)
  | submitting (message : String)
  | stillPending (nonce : ℕ) (message : String)
  | checking (error : String)
  | lostRace (lastError : Option String)
  deriving DecidableEq

abbrev SubmitM : Type → Type :=
  Program SubmitCall SubmitCall.Reply SubmitError

/-- Sends the call at the current nonce.  A contested nonce is waited out, and
the call is sent again only if no copy of it has executed. -/
def submitReconcilingNonceConflicts (lastError : Option String) :
    ℕ → SubmitM Unit
  | 0 => .throw (.lostRace lastError)
  | retries + 1 => do
      let nonce ← (.call .transactionCount (.raise .querying) : SubmitM ℕ)
      match ← (.call (.send nonce) .pure :
          SubmitM (Except String String)) with
      | .ok _ => return ()
      | .error message =>
          if SdkM.isNonceConflict message then
            let polls ← (.call (.settlePolls nonce) .pure :
              SubmitM (List (Except String ℕ)))
            let settled ← .raise .querying (SdkM.nonceSettled nonce polls)
            .require (settled = true) (.stillPending nonce message)
            let executed ←
              (.call .alreadyExecuted (.raise .checking) : SubmitM Bool)
            if executed then return ()
            else submitReconcilingNonceConflicts (some message) retries
          else .throw (.submitting message)

/-! ## The chain -/

/-- The node's account, as far as one submission is concerned.  `earlier` is
the nonce of a copy which was signed before, `used` are the nonces which the
submission sent at, and `signed` those which a copy was signed at.  `reported`
is what was said of the call since the last one. -/
structure NonceWorld where
  count : ℕ
  earlier : Option ℕ
  started : Bool
  used : List ℕ
  signed : List ℕ
  executions : ℕ
  confirmed : Bool
  reported : Option Bool

namespace NonceWorld

def copies (world : NonceWorld) : List ℕ :=
  world.earlier.toList ++ world.signed

def send (world : NonceWorld) (nonce : ℕ) : NonceWorld :=
  { world with used := nonce :: world.used, reported := none }

def sign (world : NonceWorld) (nonce : ℕ) : NonceWorld :=
  { world.send nonce with signed := nonce :: world.signed }

/-- Before a submission: at most an earlier copy is around. -/
structure Initial (world : NonceWorld) : Prop where
  notStarted : world.started = false
  notUsed : world.used = []
  notSigned : world.signed = []
  notExecuted : world.executions = 0
  notConfirmed : world.confirmed = false

end NonceWorld

/-- Transactions are mined in the order of their nonces, one at each. -/
inductive Mined : NonceWorld → NonceWorld → Prop
  | refl (world : NonceWorld) : Mined world world
  /-- Another transaction, or a copy which has no effect. -/
  | other {before after : NonceWorld} (hmined : Mined before after) :
      Mined before { after with count := after.count + 1 }
  | copy {before after : NonceWorld} (hmined : Mined before after)
      (hcopy : after.count ∈ after.copies) :
      Mined before { after with
        count := after.count + 1
        executions := after.executions + 1 }

/-- The readings of a waiting loop, each of which is true when it is made. -/
inductive Polled : NonceWorld → List (Except String ℕ) → NonceWorld → Prop
  | done (world : NonceWorld) : Polled world [] world
  | count {before middle after : NonceWorld} {rest : List (Except String ℕ)}
      (hmined : Mined before middle) (hrest : Polled middle rest after) :
      Polled before (.ok middle.count :: rest) after
  | failed {before middle after : NonceWorld} {error : String}
      {rest : List (Except String ℕ)}
      (hmined : Mined before middle) (hrest : Polled middle rest after) :
      Polled before (.error error :: rest) after

/-- What the chain replies.  An earlier copy is not mined when the first nonce
is read, and the report is true once all copies are settled. -/
inductive SubmitStep : NonceWorld → (request : SubmitCall) → request.Reply →
    NonceWorld → Prop
  | count {before after : NonceWorld} (hmined : Mined before after)
      (hfirst : before.started = false →
        ∀ nonce ∈ before.earlier, after.count = nonce) :
      SubmitStep before .transactionCount (.ok after.count)
        { after with started := true }
  | countFailed {before after : NonceWorld} (error : String)
      (hmined : Mined before after) :
      SubmitStep before .transactionCount (.error error) after
  | confirmed {before middle after : NonceWorld} {nonce : ℕ} (hash : String)
      (hsigned : Mined before middle)
      (hmined : Mined (middle.sign nonce) after) (hnonce : nonce < after.count) :
      SubmitStep before (.send nonce) (.ok hash) { after with confirmed := true }
  | sent {before middle after : NonceWorld} {nonce : ℕ} (message : String)
      (hsigned : Mined before middle)
      (hmined : Mined (middle.sign nonce) after) :
      SubmitStep before (.send nonce) (.error message) after
  | notSigned {before after : NonceWorld} {nonce : ℕ} (message : String)
      (hmined : Mined before after) :
      SubmitStep before (.send nonce) (.error message) (after.send nonce)
  | polls {before after : NonceWorld} {nonce : ℕ}
      {readings : List (Except String ℕ)}
      (hpolled : Polled before readings after) :
      SubmitStep before (.settlePolls nonce) readings after
  | reported {before after : NonceWorld} (executed : Bool)
      (hmined : Mined before after)
      (htruthful : (∀ nonce ∈ after.copies, nonce < after.count) →
        (executed = true ↔ 0 < after.executions)) :
      SubmitStep before .alreadyExecuted (.ok executed)
        { after with reported := some executed }
  | reportFailed {before after : NonceWorld} (error : String)
      (hmined : Mined before after) :
      SubmitStep before .alreadyExecuted (.error error) after

namespace NonceWorld

def Settled (world : NonceWorld) : Prop :=
  ∀ nonce ∈ world.copies, nonce < world.count

/-- All copies which may still be mined are at the nonce, and none of them has
executed. -/
structure SafeNonce (world : NonceWorld) (nonce : ℕ) : Prop where
  live : ∀ other ∈ world.copies, world.count ≤ other → other = nonce
  unexecuted : world.count ≤ nonce → world.executions = 0

/-- Copies which may still be mined share their nonce, and are the only ones
which can execute. -/
structure Sound (world : NonceWorld) : Prop where
  once : world.executions ≤ 1
  live : ∀ nonce ∈ world.copies, world.count ≤ nonce →
    world.SafeNonce nonce
  executed : 0 < world.executions → ∃ nonce ∈ world.copies,
    nonce < world.count
  signed : world.signed.length ≤ world.used.length
  used : world.used.length ≤ SdkM.nonceRetries

end NonceWorld

open NonceWorld

variable {world before after : NonceWorld} {nonce : ℕ}

/-- Mining touches nothing else of the world. -/
structure Kept (before after : NonceWorld) : Prop where
  count : before.count ≤ after.count
  earlier : after.earlier = before.earlier
  used : after.used = before.used
  signed : after.signed = before.signed
  reported : after.reported = before.reported

theorem Mined.kept (hmined : Mined before after) : Kept before after := by
  induction hmined with
  | refl => exact ⟨le_rfl, rfl, rfl, rfl, rfl⟩
  | other _ ih =>
      exact ⟨Nat.le_succ_of_le ih.count, ih.earlier, ih.used, ih.signed,
        ih.reported⟩
  | copy _ _ ih =>
      exact ⟨Nat.le_succ_of_le ih.count, ih.earlier, ih.used, ih.signed,
        ih.reported⟩

theorem Mined.copies_eq (hmined : Mined before after) :
    after.copies = before.copies := by
  rw [copies, copies, hmined.kept.earlier, hmined.kept.signed]

theorem Mined.executions_of_settled (hmined : Mined before after)
    (hsettled : before.Settled) : after.executions = before.executions := by
  induction hmined with
  | refl => rfl
  | other hmined ih => exact ih
  | copy hmined hcopy ih =>
      rw [hmined.copies_eq] at hcopy
      have hlt := hsettled _ hcopy
      have hle := hmined.kept.count
      omega

theorem Mined.settled (hmined : Mined before after)
    (hsettled : before.Settled) : after.Settled := by
  intro nonce hmem
  rw [hmined.copies_eq] at hmem
  have hlt := hsettled nonce hmem
  have hle := hmined.kept.count
  omega

theorem Mined.safeNonce (hmined : Mined before after)
    (hsafe : before.SafeNonce nonce) : after.SafeNonce nonce := by
  induction hmined with
  | refl => exact hsafe
  | @other after hmined hafter =>
      constructor
      · intro other hmem hle
        exact hafter.live other hmem (Nat.le_of_succ_le hle)
      · intro hle
        exact hafter.unexecuted (Nat.le_of_succ_le hle)
  | @copy after hmined hcopy hafter =>
      have hnonce := hafter.live _ hcopy le_rfl
      constructor
      · intro other hmem hle
        exact hafter.live other hmem (Nat.le_of_succ_le hle)
      · intro hle
        dsimp only at hle
        omega

theorem Mined.sound (hmined : Mined before after) (hsound : before.Sound) :
    after.Sound := by
  induction hmined with
  | refl => exact hsound
  | @other after hmined hafter =>
      have hnext : Mined after { after with count := after.count + 1 } :=
        .other (.refl after)
      refine ⟨hafter.once, ?_, ?_, hafter.signed, hafter.used⟩
      · intro nonce hmem hle
        exact hnext.safeNonce
          (hafter.live nonce hmem (Nat.le_of_succ_le hle))
      · intro hpos
        obtain ⟨nonce, hmem, hlt⟩ := hafter.executed hpos
        exact ⟨nonce, hmem, Nat.lt_succ_of_lt hlt⟩
  | @copy after hmined hcopy hafter =>
      have hsafe := hafter.live _ hcopy le_rfl
      have hzero := hsafe.unexecuted le_rfl
      have hnext : Mined after { after with
          count := after.count + 1
          executions := after.executions + 1 } := .copy (.refl after) hcopy
      refine ⟨?_, ?_, ?_, hafter.signed, hafter.used⟩
      · dsimp only
        omega
      · intro nonce hmem hle
        exact hnext.safeNonce
          (hafter.live nonce hmem (Nat.le_of_succ_le hle))
      · intro _
        exact ⟨after.count, hcopy, Nat.lt_succ_self _⟩

theorem Mined.trans {middle : NonceWorld} (hfirst : Mined before middle)
    (hsecond : Mined middle after) : Mined before after := by
  induction hsecond with
  | refl => exact hfirst
  | other _ ih => exact .other ih
  | copy _ hcopy ih => exact .copy ih hcopy

theorem Polled.mined {readings : List (Except String ℕ)}
    (hpolled : Polled before readings after) : Mined before after := by
  induction hpolled with
  | done world => exact .refl world
  | count hmined _ ih => exact hmined.trans ih
  | failed hmined _ ih => exact hmined.trans ih

/-- A loop which comes to its end in time has seen the nonce mined. -/
theorem Polled.settled {readings : List (Except String ℕ)}
    (hpolled : Polled before readings after)
    (hsettled : SdkM.nonceSettled nonce readings = .ok true) :
    nonce < after.count := by
  induction hpolled with
  | done world => cases hsettled
  | failed _ _ _ => cases hsettled
  | @count before middle after rest hmined hrest ih =>
      rw [SdkM.nonceSettled] at hsettled
      split at hsettled
      · rename_i hlt
        have hle := hrest.mined.kept.count
        omega
      · exact ih hsettled

/-! ## One submission -/

/-- A copy is signed anew once all nonces before are mined and the call was
reported not to have executed, and not too often. -/
def SignsAfterReport (world : NonceWorld) : SubmitCall → Prop
  | .send _ =>
      world.used.length < SdkM.nonceRetries ∧
        (world.used ≠ [] → (∀ nonce ∈ world.used, nonce < world.count) ∧
          world.Settled ∧ world.reported = some false)
  | _ => True

/-- What keeps a submission sound. -/
def SignsSafely (world : NonceWorld) (request : SubmitCall) : Prop :=
  SignsAfterReport world request ∧
    ∀ nonce, request = .send nonce → world.SafeNonce nonce

/-- Soundness is about the copies, and not about what is said of them. -/
theorem NonceWorld.Sound.congr {other : NonceWorld} (hsound : world.Sound)
    (hcount : other.count = world.count)
    (hcopies : other.copies = world.copies)
    (hexecutions : other.executions = world.executions)
    (hsigned : other.signed.length ≤ other.used.length)
    (hused : other.used.length ≤ SdkM.nonceRetries) : other.Sound := by
  refine ⟨hexecutions ▸ hsound.once, ?_, ?_, hsigned, hused⟩
  · intro nonce hmem hle
    rw [hcopies] at hmem
    rw [hcount] at hle
    have hsafe := hsound.live nonce hmem hle
    constructor
    · rw [hcopies, hcount]
      exact hsafe.live
    · rw [hcount, hexecutions]
      exact hsafe.unexecuted
  · rw [hexecutions, hcopies, hcount]
    exact hsound.executed

theorem NonceWorld.Sound.send (hsound : world.Sound)
    (hused : world.used.length < SdkM.nonceRetries) :
    (world.send nonce).Sound :=
  hsound.congr rfl rfl rfl (Nat.le_succ_of_le hsound.signed) hused

theorem NonceWorld.Sound.sign (hsound : world.Sound)
    (hused : world.used.length < SdkM.nonceRetries)
    (hsafe : world.SafeNonce nonce) : (world.sign nonce).Sound := by
  have hsafe' : (world.sign nonce).SafeNonce nonce := by
    refine ⟨?_, hsafe.unexecuted⟩
    intro other hmem hle
    rcases List.mem_append.mp hmem with hearlier | hsigned
    · exact hsafe.live other (List.mem_append_left _ hearlier) hle
    · rcases List.mem_cons.mp hsigned with hnew | hold
      · exact hnew
      · exact hsafe.live other (List.mem_append_right _ hold) hle
  refine ⟨hsound.once, ?_, ?_, Nat.succ_le_succ hsound.signed, hused⟩
  · intro other hmem hle
    rw [hsafe'.live other hmem hle]
    exact hsafe'
  · intro hpos
    obtain ⟨other, hmem, hlt⟩ := hsound.executed hpos
    refine ⟨other, ?_, hlt⟩
    rcases List.mem_append.mp hmem with hearlier | hsigned
    · exact List.mem_append_left _ hearlier
    · exact List.mem_append_right _ (List.mem_cons_of_mem nonce hsigned)

theorem SubmitStep.sound {request : SubmitCall} {reply : request.Reply}
    (hstep : SubmitStep before request reply after)
    (hguard : SignsSafely before request) (hsound : before.Sound) :
    after.Sound := by
  cases hstep with
  | count hmined _ =>
      have hafter := hmined.sound hsound
      exact hafter.congr rfl rfl rfl hafter.signed hafter.used
  | countFailed _ hmined => exact hmined.sound hsound
  | reported _ hmined _ =>
      have hafter := hmined.sound hsound
      exact hafter.congr rfl rfl rfl hafter.signed hafter.used
  | reportFailed _ hmined => exact hmined.sound hsound
  | polls hpolled => exact hpolled.mined.sound hsound
  | confirmed hash hsigned hmined _ =>
      have hused := hguard.1.1
      rw [← hsigned.kept.used] at hused
      have hsign := Sound.sign (hsigned.sound hsound) hused
        (hsigned.safeNonce (hguard.2 _ rfl))
      have hafter := hmined.sound hsign
      exact hafter.congr rfl rfl rfl hafter.signed hafter.used
  | sent message hsigned hmined =>
      have hused := hguard.1.1
      rw [← hsigned.kept.used] at hused
      exact hmined.sound (Sound.sign (hsigned.sound hsound) hused
        (hsigned.safeNonce (hguard.2 _ rfl)))
  | notSigned message hmined =>
      have hused := hguard.1.1
      rw [← hmined.kept.used] at hused
      exact Sound.send (hmined.sound hsound) hused

/-- Where an attempt may start from. -/
inductive Ready (world : NonceWorld) : Prop where
  | fresh (notStarted : world.started = false) (notUsed : world.used = [])
      (notSigned : world.signed = [])
  | again (mined : ∀ nonce ∈ world.used, nonce < world.count)
      (settled : world.Settled) (reported : world.reported = some false)
      (unexecuted : world.executions = 0)

/-- The nonce which is read is safe, and the rules for signing are met. -/
theorem Ready.signsSafely {reply : Except String ℕ} (hsound : before.Sound)
    (hready : Ready before) (hbudget : before.used.length < SdkM.nonceRetries)
    (hstep : SubmitStep before .transactionCount reply after)
    (hreply : reply = .ok nonce) :
    SignsSafely after (.send nonce) ∧ after.used = before.used := by
  cases hstep with
  | countFailed => cases hreply
  | @count after hmined hfirst =>
      cases hreply
      have hused : after.used = before.used := hmined.kept.used
      refine ⟨⟨⟨?_, ?_⟩, ?_⟩, hused⟩
      · rw [← hused] at hbudget
        exact hbudget
      · intro hne
        cases hready with
        | fresh _ notUsed _ => exact absurd (hused.trans notUsed) hne
        | again mined settled reported _ =>
            refine ⟨?_, hmined.settled settled, ?_⟩
            · intro other hmem
              have hmem' : other ∈ before.used := hused ▸ hmem
              have hlt := mined other hmem'
              have hle := hmined.kept.count
              dsimp only
              omega
            · exact (hmined.kept.reported).trans reported
      · intro nonce hnonce
        cases hnonce
        cases hready with
        | fresh notStarted _ notSigned =>
            have hsigned : after.signed = [] :=
              (hmined.kept.signed).trans notSigned
            have hearlier : after.earlier = before.earlier :=
              hmined.kept.earlier
            have hcopy : ∀ other ∈ after.copies, other = after.count := by
              intro other hmem
              rw [copies, hsigned, List.append_nil, Option.mem_toList,
                hearlier] at hmem
              exact (hfirst notStarted other hmem).symm
            refine ⟨fun other hmem _ => hcopy other hmem, ?_⟩
            intro _
            by_contra hne
            obtain ⟨other, hmem, hlt⟩ := (hmined.sound hsound).executed
              (Nat.pos_of_ne_zero hne)
            rw [hcopy other hmem] at hlt
            exact lt_irrefl _ hlt
        | again _ settled _ unexecuted =>
            have hsettled := hmined.settled settled
            constructor
            · intro other hmem hle
              exact absurd (hsettled other hmem) (Nat.not_lt_of_le hle)
            · intro _
              exact (hmined.executions_of_settled settled).trans unexecuted

/-- A conflict leaves the nonces which were used at or below the contested
one. -/
structure Contested (world : NonceWorld) (nonce : ℕ) : Prop where
  used : ∀ other ∈ world.used, other < world.count ∨ other = nonce
  copies : ∀ other ∈ world.copies, other < world.count ∨ other = nonce

theorem Contested.mined (hcontested : Contested before nonce)
    (hmined : Mined before after) : Contested after nonce := by
  have hle := hmined.kept.count
  have hused : after.used = before.used := hmined.kept.used
  constructor
  · intro other hmem
    rw [hused] at hmem
    rcases hcontested.used other hmem with hlt | heq
    · exact Or.inl (by omega)
    · exact Or.inr heq
  · intro other hmem
    rw [hmined.copies_eq] at hmem
    rcases hcontested.copies other hmem with hlt | heq
    · exact Or.inl (by omega)
    · exact Or.inr heq

theorem SignsSafely.mined (hguard : SignsSafely before (.send nonce))
    (hmined : Mined before after) : SignsSafely after (.send nonce) := by
  have hused : after.used = before.used := hmined.kept.used
  have hreported : after.reported = before.reported :=
    hmined.kept.reported
  obtain ⟨⟨hbudget, hagain⟩, hsafe⟩ := hguard
  refine ⟨⟨hused ▸ hbudget, ?_⟩, fun other heq =>
    hmined.safeNonce (hsafe other heq)⟩
  rw [hused, hreported]
  intro hne
  obtain ⟨hnonces, hsettled, hreport⟩ := hagain hne
  refine ⟨?_, hmined.settled hsettled, hreport⟩
  intro other hmem
  exact lt_of_lt_of_le (hnonces other hmem) hmined.kept.count

theorem SignsSafely.contested (hguard : SignsSafely before (.send nonce)) :
    Contested (before.sign nonce) nonce ∧
      Contested (before.send nonce) nonce := by
  have hsafe := hguard.2 nonce rfl
  have hused : ∀ other ∈ nonce :: before.used,
      other < before.count ∨ other = nonce := by
    intro other hmem
    rcases List.mem_cons.mp hmem with hnew | hold
    · exact Or.inr hnew
    · by_cases hne : before.used = []
      · rw [hne] at hold
        cases hold
      · exact Or.inl ((hguard.1.2 hne).1 other hold)
  have hcopies : ∀ other ∈ before.copies,
      other < before.count ∨ other = nonce := by
    intro other hmem
    by_cases hlt : other < before.count
    · exact Or.inl hlt
    · exact Or.inr (hsafe.live other hmem (Nat.le_of_not_lt hlt))
  refine ⟨⟨hused, ?_⟩, ⟨hused, hcopies⟩⟩
  intro other hmem
  rcases List.mem_append.mp hmem with hearlier | hsigned
  · exact hcopies other (List.mem_append_left _ hearlier)
  · rcases List.mem_cons.mp hsigned with hnew | hold
    · exact Or.inr hnew
    · exact hcopies other (List.mem_append_right _ hold)

/-- After a reply which is not a confirmation. -/
theorem SubmitStep.contested {message : String}
    (hguard : SignsSafely before (.send nonce))
    (hstep : SubmitStep before (.send nonce) (.error message) after) :
    Contested after nonce ∧ after.used.length = before.used.length + 1 := by
  cases hstep with
  | sent message hsigned hmined =>
      have hguard' := (hguard.mined hsigned).contested.1
      refine ⟨hguard'.mined hmined, ?_⟩
      rw [hmined.kept.used]
      dsimp only [NonceWorld.sign, NonceWorld.send]
      rw [hsigned.kept.used, List.length_cons]
  | notSigned message hmined =>
      refine ⟨(hguard.mined hmined).contested.2, ?_⟩
      dsimp only [NonceWorld.send]
      rw [hmined.kept.used, List.length_cons]

/-- The report which a contested nonce is followed by is true, so the next
attempt may start from it, or the call has executed. -/
theorem SubmitStep.reported_cases {reply : Except String Bool}
    {executed : Bool} (hcontested : Contested before nonce)
    (hlt : nonce < before.count)
    (hstep : SubmitStep before .alreadyExecuted reply after)
    (hreply : reply = .ok executed) :
    after.used = before.used ∧
      (executed = true → 0 < after.executions) ∧
      (executed = false → Ready after) := by
  cases hstep with
  | reportFailed => cases hreply
  | @reported after _ hmined htruthful =>
      cases hreply
      have hcontested' := hcontested.mined hmined
      have hle := hmined.kept.count
      have hsettled : after.Settled := by
        intro other hmem
        rcases hcontested'.copies other hmem with hother | heq
        · exact hother
        · omega
      have hiff := htruthful hsettled
      refine ⟨hmined.kept.used, hiff.mp, ?_⟩
      intro hfalse
      refine .again ?_ hsettled (congrArg some hfalse) ?_
      · intro other hmem
        rcases hcontested'.used other hmem with hother | heq
        · exact hother
        · dsimp only
          omega
      · by_contra hne
        rw [hiff.mpr (Nat.pos_of_ne_zero hne)] at hfalse
        cases hfalse

theorem signsSafely_of_read {request : SubmitCall}
    (hread : ∀ nonce, request ≠ .send nonce) : SignsSafely world request := by
  refine ⟨?_, fun nonce heq => absurd heq (hread nonce)⟩
  cases request with
  | send nonce => exact absurd rfl (hread nonce)
  | transactionCount => trivial
  | settlePolls => trivial
  | alreadyExecuted => trivial

/-- Every attempt of a submission signs safely. -/
theorem submitReconcilingNonceConflicts_obeys (lastError : Option String)
    (retries : ℕ) (hsound : world.Sound) (hready : Ready world)
    (hbudget : world.used.length + retries ≤ SdkM.nonceRetries) :
    (submitReconcilingNonceConflicts lastError retries).Obeys SubmitStep
      SignsSafely
      (fun _ last => last.confirmed = true ∨ 0 < last.executions)
      (fun _ _ => True) world := by
  induction retries generalizing world lastError with
  | zero => trivial
  | succ retries ih =>
      rw [submitReconcilingNonceConflicts]
      refine Program.obeys_call
        (signsSafely_of_read fun nonce heq => by cases heq) ?_
      intro reply first hfirst
      apply Program.Obeys.bind
      refine Program.obeys_raise ?_ fun _ _ => True.intro
      intro nonce hnonce
      obtain ⟨hguard, hused⟩ :=
        hready.signsSafely hsound (by omega) hfirst hnonce
      have hsound₁ := hfirst.sound
        (signsSafely_of_read fun nonce heq => by cases heq) hsound
      refine Program.obeys_call hguard ?_
      intro sent second hsecond
      have hsound₂ := hsecond.sound hguard hsound₁
      cases sent with
      | ok hash =>
          cases hsecond with
          | confirmed hash _ _ _ => exact Or.inl rfl
      | error message =>
          obtain ⟨hcontested, hlength⟩ := hsecond.contested hguard
          dsimp only [Program.bind]
          split
          · refine Program.obeys_call
              (signsSafely_of_read fun nonce heq => by cases heq) ?_
            intro readings third hthird
            have hsound₃ := hthird.sound
              (signsSafely_of_read fun nonce heq => by cases heq) hsound₂
            cases hthird with
            | polls hpolled =>
                have hkept := hpolled.mined.kept
                have hcontested₃ := hcontested.mined hpolled.mined
                dsimp only [Program.bind, Program.bind_eq]
                apply Program.Obeys.bind
                refine Program.obeys_raise ?_ fun _ _ => True.intro
                intro settled hsettled
                apply Program.Obeys.bind
                refine Program.obeys_require ?_ fun _ => True.intro
                intro htrue
                rw [htrue] at hsettled
                have hlt := hpolled.settled hsettled
                refine Program.obeys_call
                  (signsSafely_of_read fun nonce heq => by cases heq) ?_
                intro report fourth hfourth
                have hsound₄ := hfourth.sound
                  (signsSafely_of_read fun nonce heq => by cases heq) hsound₃
                apply Program.Obeys.bind
                refine Program.obeys_raise ?_ fun _ _ => True.intro
                intro executed hexecuted
                obtain ⟨hused₄, hdone, hagain⟩ :=
                  hfourth.reported_cases hcontested₃ hlt hexecuted
                split
                · rename_i hyes
                  exact Or.inr (hdone hyes)
                · rename_i hno
                  refine ih (some message) hsound₄
                    (hagain (Bool.eq_false_of_not_eq_true hno)) ?_
                  rw [hused₄, hkept.used, hlength, hused]
                  omega
          · exact True.intro

namespace NonceWorld

theorem Initial.sound (hinitial : world.Initial) : world.Sound := by
  have hcopies : ∀ nonce ∈ world.copies, nonce ∈ world.earlier := by
    intro nonce hmem
    rw [copies, hinitial.notSigned, List.append_nil, Option.mem_toList] at hmem
    exact hmem
  refine ⟨?_, ?_, ?_, ?_, ?_⟩
  · rw [hinitial.notExecuted]
    exact Nat.zero_le 1
  · intro nonce hmem _
    refine ⟨?_, fun _ => hinitial.notExecuted⟩
    intro other hother _
    have hnonce := hcopies nonce hmem
    rw [hcopies other hother] at hnonce
    exact Option.some.inj hnonce
  · rw [hinitial.notExecuted]
    intro hpos
    exact absurd hpos (lt_irrefl 0)
  · rw [hinitial.notSigned]
    exact Nat.zero_le _
  · rw [hinitial.notUsed]
    exact Nat.zero_le _

end NonceWorld

/-- However the transactions are mined, a submission signs the call anew only
after the earlier copies are settled and reported not to have executed.  It
returns only if its own transaction was confirmed or the call executed, and
then, and whatever is mined later, at most one copy has executed. -/
theorem executesAtMostOnce {start : NonceWorld} (hinitial : start.Initial) :
    (submitReconcilingNonceConflicts none SdkM.nonceRetries).Obeys SubmitStep
        SignsAfterReport
        (fun _ last => last.confirmed = true ∨ 0 < last.executions)
        (fun _ _ => True) start ∧
      ∀ outcome last later,
        (submitReconcilingNonceConflicts none SdkM.nonceRetries).Runs
            SubmitStep start outcome last →
        Mined last later →
        later.executions ≤ 1 ∧ later.signed.length ≤ SdkM.nonceRetries := by
  have hready : Ready start :=
    .fresh hinitial.notStarted hinitial.notUsed hinitial.notSigned
  have hbudget : start.used.length + SdkM.nonceRetries ≤
      SdkM.nonceRetries := by
    rw [hinitial.notUsed, List.length_nil, Nat.zero_add]
  have hobeys := submitReconcilingNonceConflicts_obeys none
    SdkM.nonceRetries hinitial.sound hready hbudget
  refine ⟨hobeys.widen fun _ _ hguard => hguard.1, ?_⟩
  intro outcome last later hruns hmined
  have hsound := hruns.obeyed hobeys hinitial.sound
    fun _ _ _ _ hbefore hguard hstep => hstep.sound hguard hbefore
  have hlater := hmined.sound hsound
  exact ⟨hlater.once, hlater.signed.trans hlater.used⟩

/-- The call sits at the nonce 5 already when it is submitted again. -/
def sameNonceWorld : NonceWorld where
  count := 5
  earlier := some 5
  started := false
  used := []
  signed := []
  executions := 0
  confirmed := false
  reported := none

theorem executesAtMostOnce_sameNonce :
    (submitReconcilingNonceConflicts none SdkM.nonceRetries).Obeys SubmitStep
        SignsAfterReport
        (fun _ last => last.confirmed = true ∨ 0 < last.executions)
        (fun _ _ => True) sameNonceWorld ∧
      ∃ last, (submitReconcilingNonceConflicts none SdkM.nonceRetries).Runs
          SubmitStep sameNonceWorld (.returned ()) last ∧
        last.executions = 1 ∧ last.signed = [] := by
  have hinitial : sameNonceWorld.Initial := ⟨rfl, rfl, rfl, rfl, rfl⟩
  -- The copy is known, is mined while it is waited for, and has executed.
  let read : NonceWorld := { sameNonceWorld with started := true }
  let known := read.send 5
  let settled : NonceWorld := { known with count := 6, executions := 1 }
  let reported : NonceWorld := { settled with reported := some true }
  have hread : SubmitStep sameNonceWorld .transactionCount (.ok 5) read :=
    .count (.refl _) (by decide)
  have hsend : SubmitStep read (.send 5) (.error "already known") known :=
    .notSigned "already known" (.refl _)
  have hmined : Mined known settled := .copy (.refl _) List.mem_cons_self
  have hpolls : SubmitStep known (.settlePolls 5) [.ok 6] settled :=
    .polls (.count hmined (.done _))
  have hreport : SubmitStep settled .alreadyExecuted (.ok true) reported :=
    .reported true (.refl _) fun _ => iff_of_true rfl Nat.one_pos
  have hconflict : SdkM.isNonceConflict "already known" = true := by
    decide +kernel
  refine ⟨(executesAtMostOnce hinitial).1, reported, ?_, rfl, rfl⟩
  refine .call hread (.call hsend ?_)
  dsimp only [Program.bind]
  rw [if_pos hconflict]
  exact .call hpolls (.call hreport (.pure () reported))

/-! ## As part of the operator -/

/-- The closures of a direct shield. -/
def SubmitCall.sdkCalls {Fr : Type} (call : Bytes)
    (alreadyExecuted : SdkM Fr Bool) :
    (request : SubmitCall) → SdkM Fr request.Reply
  | .transactionCount => .call .transactionCount .pure
  | .send nonce => .call (.sendModuleCall call nonce) .pure
  | .settlePolls nonce => .call (.noncePolls nonce) .pure
  | .alreadyExecuted => alreadyExecuted.bind fun executed => .pure (.ok executed)

def SubmitError.toSdkError : SubmitError → SdkError
  | .querying error => .funding error
  | .submitting message =>
      .funding ("submitting the Safe module call: " ++ message)
  | .stillPending _ _ =>
      .funding ("the nonce was still pending; not resubmitting the Safe " ++
        "module call while an earlier copy of it may yet land")
  | .checking error => .funding error
  | .lostRace _ => .funding "the Safe module call lost the nonce race"

/-- The operator submits its calls in this way. -/
theorem submitReconcilingNonceConflicts_translate {Fr : Type} (call : Bytes)
    (alreadyExecuted : SdkM Fr Bool) (lastError : Option String)
    (retries : ℕ) :
    (submitReconcilingNonceConflicts lastError retries).translate
        (SubmitCall.sdkCalls call alreadyExecuted) SubmitError.toSdkError =
      SdkM.submitReconcilingNonceConflicts call alreadyExecuted retries := by
  induction retries generalizing lastError with
  | zero => rfl
  | succ retries ih =>
      rw [submitReconcilingNonceConflicts,
        SdkM.submitReconcilingNonceConflicts]
      refine congrArg (Program.call SdkCall.transactionCount)
        (funext fun reply => ?_)
      cases (reply : Except String ℕ) with
      | error error => rfl
      | ok nonce =>
          refine congrArg (Program.call (SdkCall.sendModuleCall call nonce))
            (funext fun reply => ?_)
          cases (reply : Except String String) with
          | ok hash => rfl
          | error message =>
              dsimp only [Program.bind]
              by_cases hconflict : SdkM.isNonceConflict message = true
              · rw [if_pos hconflict, if_pos hconflict]
                refine congrArg (Program.call (SdkCall.noncePolls nonce))
                  (funext fun readings => ?_)
                dsimp only [Program.bind, Program.bind_eq]
                rw [Program.translate_bind, Program.translate_raise]
                refine congrArg (Program.bind _) (funext fun settled => ?_)
                rw [Program.translate_bind, Program.translate_require]
                refine congrArg (Program.bind _) (funext fun _ => ?_)
                dsimp only [Program.bind, Program.translate,
                  SubmitCall.sdkCalls]
                rw [Program.bind_assoc]
                refine congrArg (Program.bind _) (funext fun executed => ?_)
                cases executed with
                | true => rfl
                | false => exact ih (some message)
              · rw [if_neg hconflict, if_neg hconflict]
                rfl

end HoprStrategy.Curvy
