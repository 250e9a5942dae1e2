import HoprStrategy.CurvySdkTraversal
import HoprStrategy.Library.ProgramMonitor

/-!
# Watching what an error of the bridge says

A deposit is refunded when its error says that no funds moved.  What an error
says depends on where it was raised, so the functions of the bridge are
watched: which of their errors look fund-free, whether an aggregation was
given up before the error was raised, and which allocations the relay journal
may come to name.
-/

namespace HoprStrategy.Curvy

open Library

variable {Fr : Type}

/-- The error does not say that no funds moved, so that it is the same after a
submission. -/
def Steady (error : SdkError) : Prop :=
  SdkM.tagAfterSubmission error = error

theorem steady_sdk {message : String} :
    Steady (.sdk message) ↔ isPreSubmissionRefusal message = false := by
  simp only [Steady, SdkM.tagAfterSubmission]
  split <;> simp_all

theorem steady_tagAfterSubmission (error : SdkError) :
    Steady (SdkM.tagAfterSubmission error) := by
  cases error with
  | sdk message =>
      by_cases hmessage : isPreSubmissionRefusal message = true <;>
        simp [Steady, SdkM.tagAfterSubmission, hmessage]
  | _ => rfl

/-! ## The calls -/

def errorText {α : Type} : Except String α → Option String
  | .ok _ => none
  | .error text => some text

/-- The text an SDK error is made of, if the call failed with one. -/
def SdkCall.failure : (call : SdkCall Fr) → call.Reply → Option String
  | .saveUpdate _ _ _ _, reply => errorText reply
  | .allocation _ _, reply => errorText reply
  | .noteStatus _, reply => errorText reply
  | .erc20Balance _ _, reply => errorText reply
  | .prepareDeposit _ _ _, reply => errorText reply
  | .prepareDirectShield _ _, reply => errorText reply
  | .shieldPreparedDeposit _, reply => errorText reply
  | .shieldCalldata _ _, reply => errorText reply
  | .commit _, reply => errorText reply
  | .pixMinimumInput _ _, reply => errorText reply
  | .buildPixAggregation _ _ _ _, reply =>
      errorText reply
  | .submitPixAggregation _, reply =>
      match (reply : Except SubmissionFailure (List TxLedger)) with
      | .ok _ => none
      | .error failure => some failure.message
  | .notesTreeSnapshot, reply =>
      match (reply : Except SnapshotFailure (Option (List String))) with
      | .error (.source message) => some message
      | _ => none
  | _, _ => none

/-- `build_pix_aggregation`. -/
def SdkCall.mayRefuse : SdkCall Fr → Bool
  | .buildPixAggregation _ _ _ _ => true
  | _ => false

/-- The SDK words an error as a refusal only when it refuses to prove an
aggregation.  `refuses` says whether it ever does. -/
def Worded (refuses : Prop) (call : SdkCall Fr) (reply : call.Reply) : Prop :=
  ∀ text, call.failure reply = some text →
    isPreSubmissionRefusal text = true → call.mayRefuse = true ∧ refuses

/-- The bridge among replies which agree with its world and are worded as the
SDK words them. -/
def wordedEnvironment (refuses : Prop) :
    Environment (SdkCall Fr) SdkCall.Reply (SdkWorld Fr) :=
  fun world call reply after =>
    sdkEnvironment world call reply after ∧ Worded refuses call reply

theorem Worded.steady {refuses : Prop} {call : SdkCall Fr}
    {reply : call.Reply} (hworded : Worded refuses call reply)
    (hcall : call.mayRefuse = false ∨ ¬ refuses) {text : String}
    (hfailure : call.failure reply = some text) : Steady (.sdk text) := by
  rw [steady_sdk, ← Bool.not_eq_true]
  intro hrefusal
  obtain ⟨hmay, hrefuses⟩ := hworded text hfailure hrefusal
  rcases hcall with hcall | hcall
  · rw [hcall] at hmay
    cases hmay
  · exact hcall hrefuses

/-- The updates which give the only aggregation of a journal up. -/
def Update.releases : Update → Bool
  | .finishRelay none | .finishOperator none => true
  | _ => false

/-- The error of a report on which an aggregation may be given up: the relayer
refuses it or reports it as failed, or the SDK reports its submission as
definitively failed. -/
def SdkCall.report : (call : SdkCall Fr) → call.Reply → Option SdkError
  | .relaySubmit _, reply =>
      match (reply : Except RelayError RelayAnswer) with
      | .error (.rejected text) => some (.relay (.rejected text))
      | _ => none
  | .awaitInclusion _, reply =>
      match (reply : Except RelayError RelaySubmission) with
      | .error (.failed text) => some (.relay (.failed text))
      | _ => none
  | .submitPixAggregation _, reply =>
      match (reply : Except SubmissionFailure (List TxLedger)) with
      | .error ⟨message, false⟩ => some (.sdk message)
      | _ => none
  | _, _ => none

/-! ## The monitor -/

/-- What the functions of a traversal may do: the allocations the relay
journal may name, whether the SDK may refuse a proof, and whether an
aggregation may be submitted by the operator. -/
structure Terms where
  named : PixAddressId → Prop
  refuses : Prop
  submits : Prop

def Terms.Admits (terms : Terms) (state : SdkState) : Prop :=
  ∀ attempt ∈ state.relayAggregations, ∀ id ∈ attempt.allocationIds,
    terms.named id

/-- Whether an aggregation was given up, and on which error; before that, the
error of the last report. -/
inductive Stage where
  | watching (report : Option SdkError)
  | released (error : SdkError)

def Stage.next : Stage → (call : SdkCall Fr) → call.Reply → Stage
  | .released error, _, _ => .released error
  | .watching report, .readState, _ => .watching report
  | .watching report, .writeState _, _ => .watching report
  | .watching report, .saveUpdate update _ _ _, reply =>
      match report, update.releases && (reply : Except String Unit).isOk with
      | some error, true => .released error
      | _, _ => .watching none
  | .watching _, call, reply => .watching (call.report reply)

@[simp] theorem Stage.next_failedSave {report : Option SdkError}
    {update : Update} {next : SdkState} {allocations : List StoredAllocation}
    {remove : List PixAddressId} {text : String} :
    Stage.next (.watching report)
      (.saveUpdate update next allocations remove : SdkCall Fr)
      (.error text : Except String Unit) = .watching none := by
  cases report <;> simp [Stage.next, Except.isOk, Except.toBool]

/-- Once an aggregation is given up nothing is left to do but to assign the
state. -/
def Stage.allows (terms : Terms) : Stage → SdkCall Fr → Prop
  | .watching _, .writeState next => terms.Admits next
  | .watching report, .saveUpdate update next allocations _ =>
      terms.Admits next ∧ (∀ record ∈ allocations, terms.named record.id) ∧
        (update.releases = true → ∃ error, report = some error ∧ Steady error)
  | .watching _, .submitPixAggregation _ => terms.submits
  | .watching _, .resetStore _ => False
  | .watching _, _ => True
  | .released _, .writeState next => terms.Admits next
  | .released _, _ => False

/-- The locked state and the records are as they were left. -/
def Unaltered (terms : Terms) : (call : SdkCall Fr) → call.Reply → Prop
  | .readState, state => terms.Admits state
  | .allocation _ id, reply =>
      match (reply : Except String (Option StoredAllocation)) with
      | .ok (some record) => record.id = id
      | _ => True
  | _, _ => True

def watch (terms : Terms) : Monitor (SdkCall Fr) SdkCall.Reply Stage where
  allows := Stage.allows terms
  expects _ call reply :=
    Worded terms.refuses call reply ∧ Unaltered terms call reply
  next := Stage.next

/-- Nothing was given up. -/
inductive ReturnsAt (holds : Prop) : Stage → Prop
  | watching {report : Option SdkError} (hholds : holds) :
      ReturnsAt holds (.watching report)

/-- If an aggregation was given up, the error is that of the report. -/
inductive FailsAt (loose : Prop) (error : SdkError) : Stage → Prop
  | watching {report : Option SdkError} (hsteady : loose ∨ Steady error) :
      FailsAt loose error (.watching report)
  | released (hsteady : Steady error) : FailsAt loose error (.released error)

/-- A function under watch.  Its errors are steady, unless it is `loose`. -/
def Watched {α : Type} (terms : Terms) (loose : Prop) (program : SdkM Fr α)
    (values : α → Prop) : Prop :=
  ∀ report, program.Meets (watch terms) (fun value => ReturnsAt (values value))
    (FailsAt loose) (.watching report)

namespace Watched

variable {α β : Type} {terms : Terms} {loose : Prop} {values : α → Prop}

theorem of_pure {value : α} (hvalue : values value) :
    Watched terms loose (.pure value : SdkM Fr α) values :=
  fun _ => .watching hvalue

theorem of_throw {error : SdkError} (herror : loose ∨ Steady error) :
    Watched terms loose (.throw error : SdkM Fr α) values :=
  fun _ => .watching herror

theorem bind {program : SdkM Fr α} {next : α → SdkM Fr β}
    {last : β → Prop} (hprogram : Watched terms loose program values)
    (hnext : ∀ value, values value → Watched terms loose (next value) last) :
    Watched terms loose (program >>= next) last := by
  intro report
  apply Program.Meets.bind
  apply (hprogram report).mono
  · rintro value _ ⟨hvalue⟩
    exact hnext value hvalue _
  · exact fun _ _ h => h

theorem mono {program : SdkM Fr α} {weaker : α → Prop} {looser : Prop}
    (hprogram : Watched terms loose program values)
    (hvalues : ∀ value, values value → weaker value)
    (hloose : loose → looser) : Watched terms looser program weaker := by
  intro report
  apply (hprogram report).mono
  · rintro value _ ⟨hvalue⟩
    exact .watching (hvalues value hvalue)
  · rintro error _ (hsteady | hsteady)
    · exact .watching (hsteady.imp hloose id)
    · exact .released hsteady

/-- After a submission no error is loose. -/
theorem tagged {program : SdkM Fr α}
    (hprogram : Watched terms True program values) :
    Watched terms loose (program.mapError SdkM.tagAfterSubmission) values := by
  intro report
  apply Program.meets_mapError
  apply (hprogram report).mono (fun _ _ h => h)
  rintro error _ (_ | hsteady)
  · exact .watching (Or.inr (steady_tagAfterSubmission error))
  · rw [show SdkM.tagAfterSubmission error = error from hsteady]
    exact .released hsteady

/-- A rewriting which keeps the steady errors. -/
theorem mapError {program : SdkM Fr α} {rewrite : SdkError → SdkError}
    (hprogram : Watched terms True program values)
    (hrewrite : ∀ error, Steady error → rewrite error = error) :
    Watched terms True (program.mapError rewrite) values := by
  intro report
  apply Program.meets_mapError
  apply (hprogram report).mono (fun _ _ h => h)
  rintro error _ (_ | hsteady)
  · exact .watching (Or.inl trivial)
  · rw [hrewrite error hsteady]
    exact .released hsteady

theorem of_require {condition : Prop} [Decidable condition]
    {error : SdkError} (herror : Steady error) :
    Watched terms loose (.require condition error : SdkM Fr Unit)
      fun _ => condition :=
  fun _ => Program.meets_require (fun h => .watching h)
    fun _ => .watching (Or.inr herror)

theorem of_raise {E : Type} {toError : E → SdkError} {result : Except E α}
    (hvalues : ∀ value, result = .ok value → values value)
    (herror : ∀ error, result = .error error →
      loose ∨ Steady (toError error)) :
    Watched terms loose (.raise toError result : SdkM Fr α) values :=
  fun _ => Program.meets_raise (fun value h => .watching (hvalues value h))
    fun error h => .watching (herror error h)

/-- A call other than to the locked state and a save. -/
theorem of_call {call : SdkCall Fr} {rest : call.Reply → SdkM Fr α}
    (hallows : ∀ report, Stage.allows terms (.watching report) call)
    (hnext : ∀ report reply, Stage.next (.watching report) call reply =
      .watching (call.report reply))
    (hrest : ∀ reply, Worded terms.refuses call reply →
      Unaltered terms call reply → Watched terms loose (rest reply) values) :
    Watched terms loose (.call call rest) values := by
  intro report
  refine Program.meets_call (hallows report) fun reply hexpects => ?_
  have hafter := hrest reply hexpects.1 hexpects.2 (call.report reply)
  rw [← hnext report reply] at hafter
  exact hafter

theorem of_readState {next : SdkState → SdkM Fr α}
    (hnext : ∀ state, terms.Admits state →
      Watched terms loose (next state) values) :
    Watched terms loose (SdkM.readState >>= next) values :=
  fun report => Program.meets_call trivial fun state hexpects =>
    hnext state hexpects.2 report

theorem of_writeState {next : SdkState} (hnext : terms.Admits next) :
    Watched terms loose (SdkM.writeState next : SdkM Fr Unit)
      fun _ => True :=
  fun _ => Program.meets_call hnext fun _ _ => .watching trivial

/-- A save which gives nothing up. -/
theorem of_saveUpdate {update : Update} {next : SdkState}
    {allocations : List StoredAllocation} {remove : List PixAddressId}
    (hupdate : update.releases = false) (hnext : terms.Admits next)
    (hallocations : ∀ record ∈ allocations, terms.named record.id) :
    Watched terms loose
      (SdkM.saveUpdate update next allocations remove : SdkM Fr Unit)
      fun _ => True := by
  intro report
  refine Program.meets_call ⟨hnext, hallocations, ?_⟩ ?_
  · rw [hupdate]
    simp
  · intro reply hexpects
    have hstage : Stage.next (.watching report)
        (.saveUpdate update next allocations remove : SdkCall Fr) reply =
        .watching none := by
      cases report <;> simp [Stage.next, hupdate]
    rw [show (watch terms).next (.watching report) _ reply = .watching none
      from hstage]
    cases (reply : Except String Unit) with
    | ok value => exact .watching trivial
    | error text =>
        exact .watching (Or.inr (hexpects.1.steady (Or.inl rfl) rfl))

theorem of_save {update : Update} {next : SdkState}
    (hupdate : update.releases = false) (hnext : terms.Admits next) :
    Watched terms loose (SdkM.save update next : SdkM Fr Unit)
      fun _ => True :=
  of_saveUpdate hupdate hnext (List.forall_mem_nil _)

end Watched

end HoprStrategy.Curvy
