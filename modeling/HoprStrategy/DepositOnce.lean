import HoprStrategy.DepositEvents
import HoprStrategy.Library.TaskList

/-!
# How often one allocation is funded

The duplicate guard is keyed by the allocation and written only when a flush
has settled; the in-flight guard is keyed by the destination.  While every
event for an allocation names the destination which is already under way, the
second guard covers the gap of the first, and an allocation is funded at most
once.  An event with another destination slips through.
-/

namespace HoprStrategy.Pix

open Library

variable {Id Addr Wire Payload Data Cause : Type}
  [DecidableEq Id] [DecidableEq Addr]

/-! ## What is under way -/

namespace FlushTask

/-- The destinations which the flush has yet to release. -/
def unreleased : FlushTask Id Addr Data Cause → List Addr
  | .calling batch => batch.map (·.destAddr)
  | .singleFunded deposit => [deposit.destAddr]
  | .singleRecorded deposit => [deposit.destAddr]
  | .singleFailed deposit _ => [deposit.destAddr]
  | .releasing _ remaining _ => remaining.map (·.destAddr)
  | .failedReleasing _ remaining _ => remaining.map (·.destAddr)
  | _ => []

/-- The deposits which the pool has not answered for. -/
def unanswered :
    FlushTask Id Addr Data Cause → List (BufferedDeposit Id Addr Data)
  | .calling batch => batch
  | _ => []

omit [DecidableEq Id] [DecidableEq Addr] in
@[simp] theorem unreleased_calling (batch : List (BufferedDeposit Id Addr Data)) :
    (calling batch : FlushTask Id Addr Data Cause).unreleased =
      batch.map (·.destAddr) := rfl

omit [DecidableEq Id] [DecidableEq Addr] in
@[simp] theorem unanswered_calling (batch : List (BufferedDeposit Id Addr Data)) :
    (calling batch : FlushTask Id Addr Data Cause).unanswered = batch := rfl

/-- The reported successes of the batch which are not recorded yet. -/
def unrecorded : FlushTask Id Addr Data Cause → List Id
  | .singleFunded deposit => [deposit.id]
  | .releasing batch _ outcomes =>
      (okIds outcomes).filter (· ∈ batch.map (·.id))
  | .recording batch _ outcomes _ =>
      (okIds outcomes).filter (· ∈ batch.map (·.id))
  | _ => []

end FlushTask

namespace HandlerPhase

/-- The allocation which the event handler is about to buffer. -/
def ids : HandlerPhase Id Addr Wire Payload Data → List Id
  | .cleared id _ _ _ => [id]
  | .claimed id _ _ _ => [id]
  | .reserved deposit => [deposit.id]
  | _ => []

/-- The destination which the event handler has marked as in flight. -/
def dests : HandlerPhase Id Addr Wire Payload Data → List Addr
  | .claimed _ dest _ _ => [dest]
  | .reserved deposit => [deposit.destAddr]
  | _ => []

end HandlerPhase

namespace DepositState

variable {cfg : PixStrategyConfig}
  {pool : DepositPool Id Addr Wire Payload Data Cause}
  {state after : DepositState Id Addr Wire Payload Data Cause}

/-- The deposits which are buffered or which the pool has not answered for. -/
def unsettled (state : DepositState Id Addr Wire Payload Data Cause) :
    List (BufferedDeposit Id Addr Data) :=
  state.depositBuffer ++ state.flushes.flatMap FlushTask.unanswered

/-- The allocations with a deposit on its way to the pool's answer. -/
def openIds (state : DepositState Id Addr Wire Payload Data Cause) : List Id :=
  state.handler.ids ++ state.unsettled.map (·.id)

def idsHeld (state : DepositState Id Addr Wire Payload Data Cause)
    (id : Id) : ℕ :=
  state.handler.ids.count id + (state.depositBuffer.map (·.id)).count id +
    held (fun task => (task.unanswered.map (·.id)).count id) state.flushes

def destsHeld (state : DepositState Id Addr Wire Payload Data Cause)
    (dest : Addr) : ℕ :=
  state.handler.dests.count dest +
    (state.depositBuffer.map (·.destAddr)).count dest +
    held (fun task => task.unreleased.count dest) state.flushes

omit [DecidableEq Addr] in
theorem count_openIds (id : Id) : state.openIds.count id = state.idsHeld id := by
  have hflushes : ∀ flushes : List (FlushTask Id Addr Data Cause),
      ((flushes.flatMap FlushTask.unanswered).map (·.id)).count id =
        held (fun task => (task.unanswered.map (·.id)).count id) flushes := by
    intro flushes
    induction flushes with
    | nil => rfl
    | cons task rest ih =>
        rw [List.flatMap_cons, List.map_append, List.count_append, ih]
        rfl
  unfold openIds idsHeld unsettled
  rw [List.count_append, List.map_append, List.count_append, hflushes]
  omega

/-- The guards cover what is under way, and every allocation is under way or
funded at most once. -/
structure Invariant
    (state : DepositState Id Addr Wire Payload Data Cause) : Prop where
  destOnce : ∀ dest, state.destsHeld dest ≤ 1
  destInFlight : ∀ dest, 0 < state.destsHeld dest →
    dest ∈ state.inFlightDestinations
  destCleared : ∀ id dest target data,
    state.handler = .cleared id dest target data → state.destsHeld dest = 0
  idOnce : ∀ id, state.idsHeld id + state.funded.count id ≤ 1
  recorded : ∀ id ∈ state.funded, id ∈ state.processedDeposits ∨
    ∃ task ∈ state.flushes, id ∈ task.unrecorded

/-- No other deposit of the allocation is under way to another destination, no
success of it is waiting to be recorded, and none has been recorded since the
event's own duplicate check. -/
structure Undisputed (state : DepositState Id Addr Wire Payload Data Cause)
    (id : Id) (dest : Addr) : Prop where
  sameDest : ∀ deposit ∈ state.unsettled, deposit.id = id →
    deposit.destAddr = dest
  noneUnrecorded : ∀ task ∈ state.flushes, id ∉ task.unrecorded
  notProcessed : id ∉ state.processedDeposits

/-- The condition on a step: an event which clears the last gate is
undisputed. -/
def ClearsUndisputed (cfg : PixStrategyConfig)
    (pool : DepositPool Id Addr Wire Payload Data Cause)
    (state : DepositState Id Addr Wire Payload Data Cause)
    (action : DepositAction Id Wire Payload Cause) : Prop :=
  action = .checkDestination →
    ∀ after id dest target data, state.next cfg pool action = some after →
      after.handler = .cleared id dest target data → state.Undisputed id dest

instance (state : DepositState Id Addr Wire Payload Data Cause) (id : Id)
    (dest : Addr) : Decidable (state.Undisputed id dest) :=
  decidable_of_iff
    ((∀ deposit ∈ state.unsettled, deposit.id = id →
        deposit.destAddr = dest) ∧
      (∀ task ∈ state.flushes, id ∉ task.unrecorded) ∧
      id ∉ state.processedDeposits)
    ⟨fun h => ⟨h.1, h.2.1, h.2.2⟩,
      fun h => ⟨h.sameDest, h.noneUnrecorded, h.notProcessed⟩⟩

/-- An event which does not clear the last gate is not asked anything. -/
instance (state : DepositState Id Addr Wire Payload Data Cause) :
    ∀ action, Decidable (ClearsUndisputed cfg pool state action)
  | .checkDestination =>
      match hnext : state.next cfg pool .checkDestination with
      | none => isTrue fun _ _ _ _ _ _ hafter => by
          rw [hnext] at hafter
          cases hafter
      | some after =>
          match hhandler : after.handler with
          | .cleared id dest _ _ =>
              decidable_of_iff (state.Undisputed id dest)
                ⟨fun hclear _ _ _ _ _ _ hafter hcleared => by
                  rw [hnext, Option.some.injEq] at hafter
                  rw [← hafter, hhandler] at hcleared
                  cases hcleared
                  exact hclear,
                fun hclears => hclears rfl after _ _ _ _ hnext hhandler⟩
          | .idle | .priced _ _ | .withinLimit _ _ | .claimed _ _ _ _
          | .reserved _ => isTrue fun _ _ _ _ _ _ hafter hcleared => by
              rw [hnext, Option.some.injEq] at hafter
              rw [← hafter, hhandler] at hcleared
              cases hcleared
  | .receive _ | .checkSpend _ | .claim | .reserve _ | .push | .flush
  | .answer _ _ | .settle _ => isTrue nofun

/-! ## The steps of a flush -/

/-- A flush step gives back at most one destination, and every success which
leaves its list has been recorded. -/
structure FlushStep
    (state after : DepositState Id Addr Wire Payload Data Cause)
    (task task' : FlushTask Id Addr Data Cause) : Prop where
  buffer : after.depositBuffer = state.depositBuffer
  handler : after.handler = state.handler
  flushes : after.flushes = state.flushes
  funded : after.funded = state.funded
  unanswered : task.unanswered = [] ∧ task'.unanswered = []
  released :
    (after.inFlightDestinations = state.inFlightDestinations ∧
      task.unreleased = task'.unreleased) ∨
    (∃ dest, after.inFlightDestinations = state.inFlightDestinations.erase dest ∧
      task.unreleased = dest :: task'.unreleased)
  processed : ∀ id ∈ state.processedDeposits, id ∈ after.processedDeposits
  recorded : ∀ id ∈ task.unrecorded,
    id ∈ after.processedDeposits ∨ id ∈ task'.unrecorded

theorem settleTask_step {task task' : FlushTask Id Addr Data Cause}
    (hsettle : state.settleTask pool task = some (after, task')) :
    FlushStep state after task task' := by
  cases task with
  | calling batch => simp [settleTask] at hsettle
  | singleFunded deposit =>
      simp only [settleTask, Option.some.injEq, Prod.mk.injEq] at hsettle
      obtain ⟨rfl, rfl⟩ := hsettle
      exact ⟨rfl, rfl, rfl, rfl, ⟨rfl, rfl⟩, .inl ⟨rfl, rfl⟩,
        fun _ hid => Finset.mem_insert_of_mem hid,
        fun id hid => .inl (by
          rw [List.mem_singleton.mp hid]
          exact Finset.mem_insert_self _ _)⟩
  | singleRecorded deposit =>
      simp only [settleTask, Option.some.injEq, Prod.mk.injEq] at hsettle
      obtain ⟨rfl, rfl⟩ := hsettle
      exact ⟨rfl, rfl, rfl, rfl, ⟨rfl, rfl⟩, .inr ⟨_, rfl, rfl⟩,
        fun _ hid => hid, fun _ hid => .inr hid⟩
  | singleFailed deposit error =>
      simp only [settleTask, Option.some.injEq, Prod.mk.injEq] at hsettle
      obtain ⟨rfl, rfl⟩ := hsettle
      refine ⟨rfl, rfl, rfl, rfl, ⟨rfl, ?_⟩, .inr ⟨_, rfl, ?_⟩,
        fun _ hid => hid, fun _ hid => .inr (by simp [FlushTask.unrecorded] at hid)⟩
      · split <;> rfl
      · split <;> rfl
  | releasing batch remaining outcomes =>
      cases remaining with
      | nil =>
          simp only [settleTask, Option.some.injEq, Prod.mk.injEq] at hsettle
          obtain ⟨rfl, rfl⟩ := hsettle
          exact ⟨rfl, rfl, rfl, rfl, ⟨rfl, rfl⟩, .inl ⟨rfl, rfl⟩,
            fun _ hid => hid, fun _ hid => .inr hid⟩
      | cons deposit remaining =>
          simp only [settleTask, Option.some.injEq, Prod.mk.injEq] at hsettle
          obtain ⟨rfl, rfl⟩ := hsettle
          exact ⟨rfl, rfl, rfl, rfl, ⟨rfl, rfl⟩, .inr ⟨_, rfl, rfl⟩,
            fun _ hid => hid, fun _ hid => .inr hid⟩
  | recording batch outcomesLen outcomes tally =>
      cases outcomes with
      | nil =>
          simp only [settleTask, Option.some.injEq, Prod.mk.injEq] at hsettle
          obtain ⟨rfl, rfl⟩ := hsettle
          exact ⟨rfl, rfl, rfl, rfl, ⟨rfl, rfl⟩, .inl ⟨rfl, rfl⟩,
            fun _ hid => hid, fun _ hid => .inr (by
              simp [FlushTask.unrecorded, okIds] at hid)⟩
      | cons outcome outcomes =>
          simp only [settleTask, Option.some.injEq, Prod.mk.injEq] at hsettle
          obtain ⟨rfl, rfl⟩ := hsettle
          refine ⟨rfl, rfl, rfl, rfl, ⟨rfl, rfl⟩, .inl ⟨rfl, rfl⟩, ?_, ?_⟩
          · intro id hid
            cases outcome with
            | ok settled => exact Finset.mem_insert_of_mem hid
            | error error => exact hid
          · intro id hid
            cases outcome with
            | error error => exact .inr hid
            | ok settled =>
                simp only [FlushTask.unrecorded, okIds, List.filterMap_cons,
                  Except.toOption, List.filter_cons] at hid
                by_cases hsame : id = settled
                · subst hsame
                  exact .inl (Finset.mem_insert_self _ _)
                · right
                  split at hid
                  · exact (List.mem_cons.mp hid).resolve_left hsame
                  · exact hid
  | failedReleasing batch remaining error =>
      cases remaining with
      | nil =>
          simp only [settleTask, Option.some.injEq, Prod.mk.injEq] at hsettle
          obtain ⟨rfl, rfl⟩ := hsettle
          refine ⟨rfl, rfl, rfl, rfl, ⟨rfl, ?_⟩, .inl ⟨rfl, ?_⟩,
            fun _ hid => hid, fun _ hid => .inr (by
              simp [FlushTask.unrecorded] at hid)⟩
          · split <;> rfl
          · split <;> rfl
      | cons deposit remaining =>
          simp only [settleTask, Option.some.injEq, Prod.mk.injEq] at hsettle
          obtain ⟨rfl, rfl⟩ := hsettle
          exact ⟨rfl, rfl, rfl, rfl, ⟨rfl, rfl⟩, .inr ⟨_, rfl, rfl⟩,
            fun _ hid => hid, fun _ hid => .inr hid⟩
  | refunding remaining =>
      cases remaining with
      | nil =>
          simp only [settleTask, Option.some.injEq, Prod.mk.injEq] at hsettle
          obtain ⟨rfl, rfl⟩ := hsettle
          exact ⟨rfl, rfl, rfl, rfl, ⟨rfl, rfl⟩, .inl ⟨rfl, rfl⟩,
            fun _ hid => hid, fun _ hid => .inr hid⟩
      | cons deposit remaining =>
          simp only [settleTask, Option.some.injEq, Prod.mk.injEq] at hsettle
          obtain ⟨rfl, rfl⟩ := hsettle
          exact ⟨rfl, rfl, rfl, rfl, ⟨rfl, rfl⟩, .inl ⟨rfl, rfl⟩,
            fun _ hid => hid, fun _ hid => .inr hid⟩
  | done => simp [settleTask] at hsettle

omit [DecidableEq Addr] in
/-- The answer keeps the destinations, and its successes are deposits of the
batch which wait to be recorded. -/
theorem answered_spec {batch : List (BufferedDeposit Id Addr Data)}
    {reply : PoolReply Id Cause} {task : FlushTask Id Addr Data Cause}
    (hanswered : answered batch reply = some task) :
    task.unanswered = [] ∧ task.unreleased = batch.map (·.destAddr) ∧
      (∀ id ∈ fundedBy batch reply, id ∈ task.unrecorded) ∧
      (∀ id, (fundedBy batch reply).count id ≤ (batch.map (·.id)).count id) := by
  cases reply with
  | single result =>
      match batch, result, hanswered with
      | [deposit], .ok (), hanswered =>
          simp only [answered, Option.some.injEq] at hanswered
          subst hanswered
          exact ⟨rfl, rfl, fun _ hid => hid, fun _ => le_rfl⟩
      | [deposit], .error error, hanswered =>
          simp only [answered, Option.some.injEq] at hanswered
          subst hanswered
          exact ⟨rfl, rfl, fun _ hid => by simp [fundedBy] at hid,
            fun _ => by simp [fundedBy]⟩
  | multiple result =>
      have hshape : (∃ outcomes, result = .ok outcomes ∧
            task = .releasing batch batch outcomes) ∨
          (∃ error, result = .error error ∧
            task = .failedReleasing batch batch error) := by
        match batch, result, hanswered with
        | [], .ok outcomes, hanswered =>
            exact .inl ⟨outcomes, rfl, by simpa [answered] using hanswered.symm⟩
        | [], .error error, hanswered =>
            exact .inr ⟨error, rfl, by simpa [answered] using hanswered.symm⟩
        | _ :: _ :: _, .ok outcomes, hanswered =>
            exact .inl ⟨outcomes, rfl, by simpa [answered] using hanswered.symm⟩
        | _ :: _ :: _, .error error, hanswered =>
            exact .inr ⟨error, rfl, by simpa [answered] using hanswered.symm⟩
      obtain ⟨outcomes, rfl, rfl⟩ | ⟨error, rfl, rfl⟩ := hshape
      · refine ⟨rfl, rfl, ?_, ?_⟩
        · intro id hid
          rw [FlushTask.unrecorded, List.mem_filter]
          have hboth := List.mem_bagInter.mp hid
          exact ⟨hboth.2, by simpa using hboth.1⟩
        · intro id
          simp only [fundedBy, List.count_bagInter]
          exact Nat.min_le_left _ _
      · exact ⟨rfl, rfl, fun _ hid => by simp [fundedBy] at hid,
          fun _ => by simp [fundedBy]⟩

/-! ## The steps of the system -/

/-- A step which moves things around without taking or giving back any. -/
theorem Invariant.keep (hinv : state.Invariant)
    (hdests : ∀ dest, after.destsHeld dest = state.destsHeld dest)
    (hids : ∀ id, after.idsHeld id = state.idsHeld id)
    (hflushes : ∀ task ∈ state.flushes, task ∈ after.flushes)
    (hfunded : after.funded = state.funded)
    (hinFlight : after.inFlightDestinations = state.inFlightDestinations)
    (hprocessed : after.processedDeposits = state.processedDeposits)
    (hcleared : ∀ id dest target data,
      after.handler ≠ .cleared id dest target data) :
    after.Invariant where
  destOnce dest := by
    rw [hdests]
    exact hinv.destOnce dest
  destInFlight dest := by
    rw [hdests, hinFlight]
    exact hinv.destInFlight dest
  destCleared id dest target data h := absurd h (hcleared id dest target data)
  idOnce id := by
    rw [hids, hfunded]
    exact hinv.idOnce id
  recorded id := by
    rw [hfunded, hprocessed]
    intro hid
    obtain hdone | ⟨task, htask, hmem⟩ := hinv.recorded id hid
    · exact .inl hdone
    · exact .inr ⟨task, hflushes task htask, hmem⟩

/-- The steps which only move the handler between two phases that hold the
same things. -/
theorem Invariant.ofHandler (hinv : state.Invariant)
    (hbuffer : after.depositBuffer = state.depositBuffer)
    (hflushes : after.flushes = state.flushes)
    (hfunded : after.funded = state.funded)
    (hinFlight : after.inFlightDestinations = state.inFlightDestinations)
    (hprocessed : after.processedDeposits = state.processedDeposits)
    (hids : after.handler.ids = state.handler.ids)
    (hdests : after.handler.dests = state.handler.dests)
    (hcleared : ∀ id dest target data,
      after.handler ≠ .cleared id dest target data) :
    after.Invariant := by
  refine hinv.keep (fun dest => ?_) (fun id => ?_) (fun task htask => ?_)
    hfunded hinFlight hprocessed hcleared
  · simp only [destsHeld, hbuffer, hflushes, hdests]
  · simp only [idsHeld, hbuffer, hflushes, hids]
  · rw [hflushes]
    exact htask

theorem Invariant.afterReceive (hinv : state.Invariant)
    (hidle : state.handler = .idle)
    (event : NewDepositAddress Id Wire Payload) :
    (state.receive cfg event).Invariant := by
  unfold receive
  split
  · exact hinv.ofHandler rfl rfl rfl rfl rfl (by rw [hidle]; rfl)
      (by rw [hidle]; rfl) (by simp [leave])
  · simp only
    split
    · exact hinv.ofHandler rfl rfl rfl rfl rfl (by rw [hidle]; rfl)
        (by rw [hidle]; rfl) (by simp [leave])
    · exact hinv.ofHandler rfl rfl rfl rfl rfl (by rw [hidle]; rfl)
        (by rw [hidle]; rfl) (by simp)

theorem Invariant.afterCheckSpend (hinv : state.Invariant)
    {event : NewDepositAddress Id Wire Payload} {target : HoprBalance}
    (hpriced : state.handler = .priced event target) (now : ℕ) :
    (state.checkSpend cfg event target now).Invariant := by
  unfold checkSpend
  simp only
  split
  · exact hinv.ofHandler rfl rfl rfl rfl rfl (by rw [hpriced]; rfl)
      (by rw [hpriced]; rfl) (by simp)
  · exact hinv.ofHandler rfl rfl rfl rfl rfl (by rw [hpriced]; rfl)
      (by rw [hpriced]; rfl) (by simp [leave])

omit [DecidableEq Id] in
/-- A deposit under way holds its destination. -/
theorem exists_destsHeld {deposit : BufferedDeposit Id Addr Data}
    (hdeposit : deposit ∈ state.unsettled) :
    0 < state.destsHeld deposit.destAddr := by
  unfold destsHeld
  obtain hbuffer | hflush := List.mem_append.mp hdeposit
  · have := List.count_pos_iff.mpr
      (List.mem_map_of_mem (f := fun d : BufferedDeposit Id Addr Data =>
        d.destAddr) hbuffer)
    omega
  · obtain ⟨task, htask, hmem⟩ := List.mem_flatMap.mp hflush
    cases task with
    | calling batch =>
        have hcount : 0 < (FlushTask.unreleased
            (.calling batch : FlushTask Id Addr Data Cause)).count
              deposit.destAddr :=
          List.count_pos_iff.mpr (List.mem_map_of_mem (f := fun d :
            BufferedDeposit Id Addr Data => d.destAddr) hmem)
        have := le_held (fun task : FlushTask Id Addr Data Cause =>
          task.unreleased.count deposit.destAddr) htask
        omega
    | _ => simp [FlushTask.unanswered] at hmem

/-- An event which clears the gates undisputed is the only one of its
allocation. -/
theorem Invariant.idsHeld_eq_zero (hinv : state.Invariant) {id : Id}
    {dest : Addr} (hundisputed : state.Undisputed id dest)
    (hhandler : state.handler.ids = [])
    (hfree : dest ∉ state.inFlightDestinations) :
    state.idsHeld id + state.funded.count id = 0 := by
  have hheld : state.idsHeld id = 0 := by
    rw [← count_openIds, openIds, hhandler, List.nil_append]
    refine List.count_eq_zero.mpr fun hmem => ?_
    obtain ⟨deposit, hdeposit, hid⟩ := List.mem_map.mp hmem
    have hdest := hundisputed.sameDest deposit hdeposit hid
    exact hfree (hdest ▸ hinv.destInFlight _ (exists_destsHeld hdeposit))
  have hfunded : state.funded.count id = 0 := by
    refine List.count_eq_zero.mpr fun hmem => ?_
    obtain hprocessed | ⟨task, htask, hunrecorded⟩ := hinv.recorded id hmem
    · exact hundisputed.notProcessed hprocessed
    · exact hundisputed.noneUnrecorded task htask hunrecorded
  omega

/-- The event clears the gates: its allocation is not under way yet. -/
theorem Invariant.afterCleared (hinv : state.Invariant)
    {event : NewDepositAddress Id Wire Payload} {id : Id} {dest : Addr}
    {target : HoprBalance} {data : Data}
    (hwithin : state.handler = .withinLimit event target)
    (hzero : state.idsHeld id + state.funded.count id = 0)
    (hfree : dest ∉ state.inFlightDestinations) :
    Invariant ({ state with handler := .cleared id dest target data } :
      DepositState Id Addr Wire Payload Data Cause) where
  destOnce d := by
    have hbefore := hinv.destOnce d
    simp only [destsHeld, hwithin] at hbefore
    exact hbefore
  destInFlight d := by
    have hbefore := hinv.destInFlight d
    simp only [destsHeld, hwithin] at hbefore
    exact hbefore
  destCleared := by
    intro _ d _ _ hcleared
    cases hcleared
    by_contra hheld
    have hbefore := hinv.destInFlight dest
    simp only [destsHeld, hwithin] at hbefore
    exact hfree (hbefore (Nat.pos_of_ne_zero hheld))
  idOnce i := by
    have hbefore := hinv.idOnce i
    simp only [idsHeld, hwithin, HandlerPhase.ids, List.count_nil]
      at hbefore hzero ⊢
    by_cases hid : i = id
    · subst hid
      rw [List.count_singleton_self]
      omega
    · rw [List.count_eq_zero.mpr fun h => hid (List.mem_singleton.mp h)]
      exact hbefore
  recorded := hinv.recorded

theorem Invariant.afterCheckDestination (hinv : state.Invariant)
    {event : NewDepositAddress Id Wire Payload} {target : HoprBalance}
    (hwithin : state.handler = .withinLimit event target)
    (hundisputed : ∀ id dest target' data,
      (state.checkDestination pool event target).handler =
        .cleared id dest target' data → state.Undisputed id dest) :
    (state.checkDestination pool event target).Invariant := by
  have hleave : ∀ result, (state.leave result).Invariant := fun result =>
    hinv.ofHandler rfl rfl rfl rfl rfl (by rw [hwithin]; rfl)
      (by rw [hwithin]; rfl) (by simp [leave])
  unfold checkDestination at hundisputed ⊢
  cases haddress : pool.tryIntoPublic event.address with
  | none => exact hleave _
  | some dest =>
      simp only [haddress] at hundisputed ⊢
      split
      next => exact hleave _
      next hfree =>
        rw [if_neg hfree] at hundisputed
        split
        next => exact hleave _
        next hsame =>
          rw [if_neg hsame] at hundisputed
          cases hdata : pool.tryFromDepositData event.depositData with
          | error error => exact hleave _
          | ok data =>
              simp only [hdata] at hundisputed ⊢
              have hclear := hundisputed event.id dest target data rfl
              have hnone : state.handler.ids = [] := by rw [hwithin]; rfl
              exact hinv.afterCleared hwithin
                (hinv.idsHeld_eq_zero hclear hnone hfree) hfree

theorem Invariant.afterClaim (hinv : state.Invariant) {id : Id} {dest : Addr}
    {target : HoprBalance} {data : Data}
    (hcleared : state.handler = .cleared id dest target data) :
    Invariant ({ state with
      inFlightDestinations := insert dest state.inFlightDestinations
      handler := .claimed id dest target data } :
        DepositState Id Addr Wire Payload Data Cause) where
  destOnce d := by
    have hbefore := hinv.destOnce d
    have hzero := hinv.destCleared id dest target data hcleared
    simp only [destsHeld, hcleared, HandlerPhase.dests, List.count_nil]
      at hbefore hzero ⊢
    by_cases hd : d = dest
    · subst hd
      rw [List.count_singleton_self]
      omega
    · rw [List.count_eq_zero.mpr fun h => hd (List.mem_singleton.mp h)]
      exact hbefore
  destInFlight d hheld := by
    by_cases hd : d = dest
    · subst hd
      exact Finset.mem_insert_self _ _
    · refine Finset.mem_insert_of_mem (hinv.destInFlight d ?_)
      simp only [destsHeld, hcleared, HandlerPhase.dests, List.count_nil]
        at hheld ⊢
      rw [List.count_eq_zero.mpr fun h => hd (List.mem_singleton.mp h)]
        at hheld
      exact hheld
  destCleared := by
    intro _ _ _ _ h
    cases h
  idOnce i := by
    have hbefore := hinv.idOnce i
    simp only [idsHeld, hcleared] at hbefore
    exact hbefore
  recorded := hinv.recorded

theorem Invariant.afterReserve (hinv : state.Invariant) {id : Id} {dest : Addr}
    {target : HoprBalance} {data : Data} (spend : SpendEntry)
    (ledger : SpendLedger)
    (hclaimed : state.handler = .claimed id dest target data) :
    Invariant ({ state with
      spendLedger := ledger
      handler := .reserved ⟨id, dest, target, data, spend⟩ } :
        DepositState Id Addr Wire Payload Data Cause) :=
  hinv.ofHandler rfl rfl rfl rfl rfl (by rw [hclaimed]; rfl)
    (by rw [hclaimed]; rfl) (by simp)

theorem Invariant.afterPush (hinv : state.Invariant)
    {deposit : BufferedDeposit Id Addr Data}
    (hreserved : state.handler = .reserved deposit) :
    Invariant ({ state with
      depositBuffer := state.depositBuffer ++ [deposit]
      handler := .idle
      result := .ok () } : DepositState Id Addr Wire Payload Data Cause) := by
  refine hinv.keep (fun dest => ?_) (fun id => ?_) (fun _ htask => htask)
    rfl rfl rfl (by simp)
  · simp only [destsHeld, hreserved, HandlerPhase.dests, List.map_append,
      List.count_append, List.map_cons, List.map_nil, List.count_nil]
    omega
  · simp only [idsHeld, hreserved, HandlerPhase.ids, List.map_append,
      List.count_append, List.map_cons, List.map_nil, List.count_nil]
    omega

theorem Invariant.afterFlush (hinv : state.Invariant)
    (hidle : state.handler = .idle) :
    Invariant { state with
      depositBuffer := []
      flushes := state.flushes ++ [.calling state.depositBuffer] } := by
  refine hinv.keep (fun dest => ?_) (fun id => ?_)
    (fun _ htask => List.mem_append_left _ htask) rfl rfl rfl
    (by simp [hidle])
  · simp only [destsHeld, held_append, held_singleton, FlushTask.unreleased,
      List.map_nil, List.count_nil]
    omega
  · simp only [idsHeld, held_append, held_singleton, FlushTask.unanswered,
      List.map_nil, List.count_nil]
    omega

/-- The answer of the pool: every success was a deposit of the batch until
now. -/
theorem Invariant.afterAnswer (hinv : state.Invariant) {index : ℕ}
    {batch : List (BufferedDeposit Id Addr Data)} {reply : PoolReply Id Cause}
    {task : FlushTask Id Addr Data Cause}
    (htask : state.flushes[index]? = some (.calling batch))
    (hanswered : answered batch reply = some task) :
    Invariant { state with
      flushes := state.flushes.set index task
      funded := state.funded ++ fundedBy batch reply } := by
  obtain ⟨hunanswered, hunreleased, hunrecorded, hcount⟩ :=
    answered_spec hanswered
  have hdests : ∀ dest,
      held (fun task => task.unreleased.count dest)
        (state.flushes.set index task) =
      held (fun task => task.unreleased.count dest) state.flushes := by
    intro dest
    have hset := held_set (fun task : FlushTask Id Addr Data Cause =>
      task.unreleased.count dest) task htask
    simp only [hunreleased, FlushTask.unreleased_calling] at hset
    omega
  have hids : ∀ id,
      held (fun task => (task.unanswered.map (·.id)).count id)
        (state.flushes.set index task) + (batch.map (·.id)).count id =
      held (fun task => (task.unanswered.map (·.id)).count id)
        state.flushes := by
    intro id
    have hset := held_set (fun task : FlushTask Id Addr Data Cause =>
      (task.unanswered.map (·.id)).count id) task htask
    simp only [hunanswered, FlushTask.unanswered_calling, List.map_nil,
      List.count_nil] at hset
    omega
  exact {
    destOnce := by
      intro dest
      have hbefore := hinv.destOnce dest
      simp only [destsHeld] at hbefore ⊢
      rw [hdests]
      exact hbefore
    destInFlight := by
      intro dest
      have hbefore := hinv.destInFlight dest
      simp only [destsHeld] at hbefore ⊢
      rw [hdests]
      exact hbefore
    destCleared := by
      intro id dest target data hcleared
      have hbefore := hinv.destCleared id dest target data hcleared
      simp only [destsHeld] at hbefore ⊢
      rw [hdests]
      exact hbefore
    idOnce := by
      intro id
      have hbefore := hinv.idOnce id
      have hbatch := hids id
      have hle := hcount id
      simp only [idsHeld, List.count_append] at hbefore ⊢
      omega
    recorded := by
      intro id hid
      obtain hold | hnew := List.mem_append.mp hid
      · obtain hdone | ⟨other, hother, hmem⟩ := hinv.recorded id hold
        · exact .inl hdone
        · obtain rfl | hstill := mem_set_of_mem task htask hother
          · simp [FlushTask.unrecorded] at hmem
          · exact .inr ⟨other, hstill, hmem⟩
      · exact .inr ⟨task, mem_set_self htask, hunrecorded id hnew⟩ }

theorem Invariant.afterSettle (hinv : state.Invariant) {index : ℕ}
    {task task' : FlushTask Id Addr Data Cause}
    {settled : DepositState Id Addr Wire Payload Data Cause}
    (htask : state.flushes[index]? = some task)
    (hsettle : state.settleTask pool task = some (settled, task')) :
    Invariant { settled with flushes := settled.flushes.set index task' } := by
  have hstep := settleTask_step hsettle
  rw [hstep.flushes]
  have hids : ∀ id,
      held (fun task => (task.unanswered.map (·.id)).count id)
        (state.flushes.set index task') =
      held (fun task => (task.unanswered.map (·.id)).count id)
        state.flushes := by
    intro id
    have hset := held_set (fun task : FlushTask Id Addr Data Cause =>
      (task.unanswered.map (·.id)).count id) task' htask
    simp only [hstep.unanswered.1, hstep.unanswered.2] at hset
    omega
  -- a destination is given back at most once, and only by its own flush
  have hdests : ∀ dest,
      destsHeld { settled with flushes := state.flushes.set index task' } dest ≤
        state.destsHeld dest ∧
      (0 < destsHeld
        { settled with flushes := state.flushes.set index task' } dest →
        dest ∈ settled.inFlightDestinations) := by
    intro dest
    have hset := held_set (fun task : FlushTask Id Addr Data Cause =>
      task.unreleased.count dest) task' htask
    have honce := hinv.destOnce dest
    have hguard := hinv.destInFlight dest
    simp only [destsHeld, hstep.buffer, hstep.handler] at honce hguard ⊢
    obtain ⟨hsame, hrest⟩ | ⟨released, herase, hrest⟩ := hstep.released
    · rw [hrest] at hset
      rw [hsame]
      exact ⟨by omega, fun hheld => hguard (by omega)⟩
    · rw [hrest, List.count_cons] at hset
      rw [herase]
      refine ⟨by omega, fun hheld => ?_⟩
      refine Finset.mem_erase.mpr ⟨?_, hguard (by omega)⟩
      rintro rfl
      simp only [BEq.rfl, if_true] at hset
      omega
  exact {
    destOnce := fun dest => le_trans (hdests dest).1 (hinv.destOnce dest)
    destInFlight := fun dest => (hdests dest).2
    destCleared := by
      intro id dest target data hcleared
      have hbefore := hinv.destCleared id dest target data
        (hstep.handler ▸ hcleared)
      have := (hdests dest).1
      omega
    idOnce := by
      intro id
      have hbefore := hinv.idOnce id
      simp only [idsHeld, hstep.buffer, hstep.handler, hstep.funded]
        at hbefore ⊢
      rw [hids]
      exact hbefore
    recorded := by
      intro id hid
      change id ∈ settled.funded at hid
      rw [hstep.funded] at hid
      obtain hdone | ⟨other, hother, hmem⟩ := hinv.recorded id hid
      · exact .inl (hstep.processed id hdone)
      · obtain rfl | hstill := mem_set_of_mem task' htask hother
        · obtain hdone | hleft := hstep.recorded id hmem
          · exact .inl hdone
          · exact .inr ⟨task', mem_set_self htask, hleft⟩
        · exact .inr ⟨other, hstill, hmem⟩ }

/-! ## Runs -/

theorem Invariant.initial :
    Invariant (DepositState.initial :
      DepositState Id Addr Wire Payload Data Cause) where
  destOnce _ := Nat.zero_le _
  destInFlight _ h := absurd h (Nat.lt_irrefl _)
  destCleared := by
    intro _ _ _ _ h
    cases h
  idOnce _ := Nat.zero_le _
  recorded _ h := absurd h List.not_mem_nil

theorem Invariant.next {action : DepositAction Id Wire Payload Cause}
    (hinv : state.Invariant) (hallowed : ClearsUndisputed cfg pool state action)
    (hnext : state.next cfg pool action = some after) : after.Invariant := by
  cases action with
  | receive event =>
      simp only [DepositState.next] at hnext
      split at hnext
      next hidle =>
        cases hnext
        exact hinv.afterReceive hidle event
      next => cases hnext
  | checkSpend now =>
      simp only [DepositState.next] at hnext
      split at hnext
      next event target hpriced =>
        cases hnext
        exact hinv.afterCheckSpend hpriced now
      next => cases hnext
  | checkDestination =>
      have hundisputed := hallowed rfl after
      have hstep := hnext
      simp only [DepositState.next] at hnext
      split at hnext
      next event target hwithin =>
        cases hnext
        exact hinv.afterCheckDestination hwithin
          fun id dest target data => hundisputed id dest target data hstep
      next => cases hnext
  | claim =>
      simp only [DepositState.next] at hnext
      split at hnext
      next id dest target data hcleared =>
        cases hnext
        exact hinv.afterClaim hcleared
      next => cases hnext
  | reserve now =>
      simp only [DepositState.next] at hnext
      split at hnext
      next id dest target data hclaimed =>
        cases hnext
        exact hinv.afterReserve _ _ hclaimed
      next => cases hnext
  | push =>
      simp only [DepositState.next] at hnext
      split at hnext
      next deposit hreserved =>
        cases hnext
        exact hinv.afterPush hreserved
      next => cases hnext
  | flush =>
      simp only [DepositState.next] at hnext
      split at hnext
      next deposit rest hidle hbuffer =>
        cases hnext
        rw [← hbuffer]
        exact hinv.afterFlush hidle
      next => cases hnext
  | answer index reply =>
      simp only [DepositState.next] at hnext
      split at hnext
      next batch htask =>
        split at hnext
        next task hanswered =>
          cases hnext
          exact hinv.afterAnswer htask hanswered
        next => cases hnext
      next => cases hnext
  | settle index =>
      simp only [DepositState.next] at hnext
      split at hnext
      next task htask =>
        split at hnext
        next settled task' hsettle =>
          cases hnext
          exact hinv.afterSettle htask hsettle
        next => cases hnext
      next => cases hnext

theorem invariant_of_reachable
    (hreach : (depositSystem cfg pool).ReachableWithin
      (ClearsUndisputed cfg pool) state) : state.Invariant := by
  refine hreach.invariant ?_ ?_
  · rintro start rfl
    exact Invariant.initial
  · intro before action after hinv hallowed hnext
    exact hinv.next hallowed hnext

end DepositState

/-- In a run whose events all clear the last gate undisputed, at most one
deposit of an allocation is reported as funded, at most one is on its way to
the pool's answer, and a funded allocation is not under way again. -/
theorem fundedOnce (cfg : PixStrategyConfig)
    (pool : DepositPool Id Addr Wire Payload Data Cause)
    {state : DepositState Id Addr Wire Payload Data Cause}
    (hreach : (depositSystem cfg pool).ReachableWithin
      (DepositState.ClearsUndisputed cfg pool) state) (id : Id) :
    state.funded.count id ≤ 1 ∧ state.openIds.count id ≤ 1 ∧
      (id ∈ state.funded → id ∉ state.openIds) := by
  have honce := (DepositState.invariant_of_reachable hreach).idOnce id
  rw [← DepositState.count_openIds] at honce
  refine ⟨by omega, by omega, fun hfunded hopen => ?_⟩
  have hone := List.count_pos_iff.mpr hfunded
  have hother := List.count_pos_iff.mpr hopen
  omega

/-- A price of one, and limits which the runs below stay under. -/
def unitPrice : PixStrategyConfig where
  maxSpendPerWindow := HoprBalance.saturating 10
  spendWindow := 10
  pricePerByte := HoprBalance.saturating 1
  maxSsaAllocation := HoprBalance.saturating 5

/-- A pool which reads every address and every payload. -/
def openPool : DepositPool ℕ ℕ ℕ Unit Unit Unit :=
  ⟨some, fun _ => .ok (), fun _ => false⟩

def depositTo (id dest : ℕ) : NewDepositAddress ℕ ℕ Unit :=
  ⟨id, 1, dest, ⟨id, ()⟩⟩

/-- The rest of the handler after the last gate. -/
def buffering : List (DepositAction ℕ ℕ Unit Unit) :=
  [.claim, .reserve 0, .push]

/-- The gates of one event. -/
def gates (id dest : ℕ) : List (DepositAction ℕ ℕ Unit Unit) :=
  [.receive (depositTo id dest), .checkSpend 0, .checkDestination]

/-- Allocation 7 is announced again while it is buffered, and once more after
its batch, which failed for allocation 8, has been settled. -/
def repeatedEvents : List (DepositAction ℕ ℕ Unit Unit) :=
  gates 7 1 ++ buffering ++ gates 7 1 ++ gates 8 2 ++ buffering ++
    [.flush, .answer 0 (.multiple (.ok [.ok 7,
      .error (.generalError .invalidInput)]))] ++
    List.replicate 8 (.settle 0) ++ [.receive (depositTo 7 3)]

theorem fundedOnce_repeatedEvents :
    ∃ state : DepositState ℕ ℕ ℕ Unit Unit Unit, state.funded = [7] ∧
      state.processedDeposits = {7} ∧
      (state.funded.count 7 ≤ 1 ∧ state.openIds.count 7 ≤ 1 ∧
        (7 ∈ state.funded → 7 ∉ state.openIds)) := by
  have hinit : (depositSystem unitPrice openPool).ReachableWithin
      (DepositState.ClearsUndisputed unitPrice openPool)
      DepositState.initial := .init rfl
  have hclears : (depositSystem unitPrice openPool).Throughout
      (fun before action _ =>
        DepositState.ClearsUndisputed unitPrice openPool before action)
      DepositState.initial repeatedEvents := by decide
  have hreach := hinit.throughout hclears rfl
  exact ⟨_, rfl, rfl, fundedOnce unitPrice openPool hreach 7⟩

/-- Two events for one allocation with different destinations are buffered
side by side, and a batch funds both. -/
theorem fundedOnce_not_always :
    ¬ ∀ (cfg : PixStrategyConfig)
      (pool : DepositPool ℕ ℕ ℕ Unit Unit Unit)
      (state : DepositState ℕ ℕ ℕ Unit Unit Unit),
      (depositSystem cfg pool).Reachable state →
        ∀ id, state.funded.count id ≤ 1 := by
  intro hclaim
  have hinit : (depositSystem unitPrice openPool).Reachable
      DepositState.initial := .init rfl
  have hboth := hinit.run
    (gates 7 1 ++ buffering ++ gates 7 2 ++ buffering ++
      [.flush, .answer 0 (.multiple (.ok [.ok 7, .ok 7]))]) rfl
  exact absurd (hclaim unitPrice openPool _ hboth 7) (by decide)

end HoprStrategy.Pix
