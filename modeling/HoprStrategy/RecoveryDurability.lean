import HoprStrategy.SweepGuard

/-!
# Recovered keys are kept until they are swept

Everything the strategy holds of a recovered key comes from an entry which was
committed to the store, and an entry leaves the store only for an id which the
pool has answered for with success.  Both survive a crash, since a crash only
forgets.
-/

namespace HoprStrategy.Pix

open Library

variable {Id Secret Key Cause : Type}

/-- The key of a sweep comes from a persisted secret. -/
def Keyed (keyFromSecret : Secret → Option Key)
    (persisted : List (Id × Secret)) (sweep : Id × Key) : Prop :=
  ∃ secret, keyFromSecret secret = some sweep.2 ∧
    (sweep.1, secret) ∈ persisted

namespace RecoveryPhase

def Grounded (persisted : List (Id × Secret)) :
    RecoveryPhase Id Secret → Prop
  | .idle => True
  | .persisted id secret => (id, secret) ∈ persisted
  | .cleared id secret => (id, secret) ∈ persisted
  | .claimed id secret => (id, secret) ∈ persisted

end RecoveryPhase

namespace SweepTask

/-- What a flush works on was persisted, and what it drops was reported. -/
def Grounded (keyFromSecret : Secret → Option Key)
    (persisted : List (Id × Secret)) (reported : List Id) :
    SweepTask Id Secret Key Cause → Prop
  | .starting batch => ∀ entry ∈ batch, entry ∈ persisted
  | .parsing remaining keys =>
      (∀ entry ∈ remaining, entry ∈ persisted) ∧
        ∀ sweep ∈ keys, Keyed keyFromSecret persisted sweep
  | .callingSingle id key => Keyed keyFromSecret persisted (id, key)
  | .calling keys => ∀ sweep ∈ keys, Keyed keyFromSecret persisted sweep
  | .singleSwept id => id ∈ reported
  | .releasing _ outcomes => ∀ id ∈ okIds outcomes, id ∈ reported
  | .removing outcomes => ∀ id ∈ okIds outcomes, id ∈ reported
  | .singleFailed _ | .failedReleasing _ | .done => True

end SweepTask

namespace ReplayPhase

def Grounded (keyFromSecret : Secret → Option Key)
    (persisted : List (Id × Secret)) (reported : List Id) :
    ReplayPhase Id Secret Key → Prop
  | .notStarted => True
  | .walking remaining => ∀ entry ∈ remaining, entry ∈ persisted
  | .cleared id secret remaining =>
      (id, secret) ∈ persisted ∧ ∀ entry ∈ remaining, entry ∈ persisted
  | .claimed id secret remaining =>
      (id, secret) ∈ persisted ∧ ∀ entry ∈ remaining, entry ∈ persisted
  | .calling id key remaining =>
      Keyed keyFromSecret persisted (id, key) ∧
        ∀ entry ∈ remaining, entry ∈ persisted
  | .swept id remaining =>
      id ∈ reported ∧ ∀ entry ∈ remaining, entry ∈ persisted
  | .removing id remaining =>
      id ∈ reported ∧ ∀ entry ∈ remaining, entry ∈ persisted
  | .failed _ remaining => ∀ entry ∈ remaining, entry ∈ persisted

end ReplayPhase

section

variable {keyFromSecret : Secret → Option Key}
  {persisted : List (Id × Secret)} {reported : List Id}

theorem Keyed.mono {sweep : Id × Key}
    (hkeyed : Keyed keyFromSecret persisted sweep)
    (more : List (Id × Secret)) :
    Keyed keyFromSecret (persisted ++ more) sweep := by
  rcases hkeyed with ⟨secret, hkey, hmem⟩
  exact ⟨secret, hkey, List.mem_append_left _ hmem⟩

theorem SweepTask.Grounded.mono {task : SweepTask Id Secret Key Cause}
    (hgrounded : task.Grounded keyFromSecret persisted reported)
    (more : List (Id × Secret)) (others : List Id) :
    task.Grounded keyFromSecret (persisted ++ more) (reported ++ others) := by
  cases task with
  | starting batch =>
      intro entry hentry
      exact List.mem_append_left _ (hgrounded entry hentry)
  | parsing remaining keys =>
      constructor
      · intro entry hentry
        exact List.mem_append_left _ (hgrounded.1 entry hentry)
      · intro sweep hsweep
        exact (hgrounded.2 sweep hsweep).mono more
  | callingSingle id key => exact Keyed.mono hgrounded more
  | calling keys =>
      intro sweep hsweep
      exact (hgrounded sweep hsweep).mono more
  | singleSwept id => exact List.mem_append_left _ hgrounded
  | releasing remaining outcomes =>
      intro id hid
      exact List.mem_append_left _ (hgrounded id hid)
  | removing outcomes =>
      intro id hid
      exact List.mem_append_left _ (hgrounded id hid)
  | singleFailed id => trivial
  | failedReleasing remaining => trivial
  | done => trivial

theorem ReplayPhase.Grounded.mono {replay : ReplayPhase Id Secret Key}
    (hgrounded : replay.Grounded keyFromSecret persisted reported)
    (more : List (Id × Secret)) (others : List Id) :
    replay.Grounded keyFromSecret (persisted ++ more) (reported ++ others) := by
  have hentries : ∀ remaining : List (Id × Secret),
      (∀ entry ∈ remaining, entry ∈ persisted) →
        ∀ entry ∈ remaining, entry ∈ persisted ++ more := by
    intro remaining hremaining entry hentry
    exact List.mem_append_left _ (hremaining entry hentry)
  cases replay with
  | notStarted => trivial
  | walking remaining => exact hentries remaining hgrounded
  | cleared id secret remaining =>
      exact ⟨List.mem_append_left _ hgrounded.1, hentries _ hgrounded.2⟩
  | claimed id secret remaining =>
      exact ⟨List.mem_append_left _ hgrounded.1, hentries _ hgrounded.2⟩
  | calling id key remaining =>
      exact ⟨hgrounded.1.mono more, hentries _ hgrounded.2⟩
  | swept id remaining =>
      exact ⟨List.mem_append_left _ hgrounded.1, hentries _ hgrounded.2⟩
  | removing id remaining =>
      exact ⟨List.mem_append_left _ hgrounded.1, hentries _ hgrounded.2⟩
  | failed id remaining => exact hentries remaining hgrounded

end

namespace SweepState

variable [DecidableEq Id] {keyFromSecret : Secret → Option Key}
  {secretOf : Id → Secret} {store : PixRecoveryStore Id Secret}
  {state after : SweepState Id Secret Key Cause}

/-- The condition on a step: each id is recovered with one secret. -/
def OneSecret (secretOf : Id → Secret)
    (_ : SweepState Id Secret Key Cause) :
    SweepAction Id Secret Cause → Prop
  | .recover id secret _ => secret = secretOf id
  | _ => True

/-- Whatever was persisted is in the store or was reported, and whatever the
strategy holds was persisted. -/
structure Kept (keyFromSecret : Secret → Option Key) (secretOf : Id → Secret)
    (store : PixRecoveryStore Id Secret)
    (state : SweepState Id Secret Key Cause) : Prop where
  configured : state.recoveryStore = some store
  secrets : ∀ entry ∈ state.everPersisted, entry.2 = secretOf entry.1
  stored : ∀ entry ∈ store.entries, entry ∈ state.everPersisted
  kept : ∀ entry ∈ state.everPersisted,
    entry ∈ store.entries ∨ entry.1 ∈ state.reportedOk
  handler : state.handler.Grounded state.everPersisted
  buffer : ∀ entry ∈ state.withdrawalBuffer, entry ∈ state.everPersisted
  flushes : ∀ task ∈ state.flushes,
    task.Grounded keyFromSecret state.everPersisted state.reportedOk
  replay :
    state.replay.Grounded keyFromSecret state.everPersisted state.reportedOk

/-- What a step may do to the store besides persisting a key: nothing, or drop
the entry of a reported id. -/
inductive StoreStep (state after : SweepState Id Secret Key Cause) : Prop
  | same (hstore : after.recoveryStore = state.recoveryStore)
  | dropped (id : Id) (hreported : id ∈ state.reportedOk)
      (hstore : after.recoveryStore = state.recoveryStore.map (·.remove id))

theorem mem_remove_or {entry : Id × Secret}
    (hentry : entry ∈ store.entries) (id : Id) :
    entry ∈ (store.remove id).entries ∨ entry.1 = id := by
  by_cases hsame : entry.1 = id
  · exact Or.inr hsame
  · left
    simpa [PixRecoveryStore.remove] using ⟨hentry, hsame⟩

theorem mem_insert_of_secret {id : Id} {secret : Secret}
    (hsecrets : ∀ entry ∈ store.entries, entry.2 = secretOf entry.1)
    (hsecret : secret = secretOf id) :
    (id, secret) ∈ (store.insert id secret).entries := by
  unfold PixRecoveryStore.insert
  split
  · rename_i hpresent
    rcases List.mem_map.mp hpresent with ⟨⟨other, old⟩, hentry, rfl⟩
    have hold := hsecrets _ hentry
    simp only at hold hsecret
    rw [hsecret, ← hold]
    exact hentry
  · simp

theorem mem_insert_of_mem {entry : Id × Secret}
    (hentry : entry ∈ store.entries) (id : Id) (secret : Secret) :
    entry ∈ (store.insert id secret).entries := by
  unfold PixRecoveryStore.insert
  split
  · exact hentry
  · exact List.mem_append_left _ hentry

theorem mem_of_mem_insert {entry : Id × Secret} {id : Id} {secret : Secret}
    (hentry : entry ∈ (store.insert id secret).entries) :
    entry ∈ store.entries ∨ entry = (id, secret) := by
  unfold PixRecoveryStore.insert at hentry
  split at hentry
  · exact Or.inl hentry
  · simpa using hentry

/-- A step which persists nothing keeps what it keeps of the volatile state
grounded. -/
theorem Kept.step (hkept : Kept keyFromSecret secretOf store state)
    (hstore : StoreStep state after)
    (hpersisted : after.everPersisted = state.everPersisted)
    (hreported : ∃ others, after.reportedOk = state.reportedOk ++ others)
    (hhandler : after.handler.Grounded state.everPersisted)
    (hbuffer : ∀ entry ∈ after.withdrawalBuffer, entry ∈ state.everPersisted)
    (hflushes : ∀ task ∈ after.flushes,
      task.Grounded keyFromSecret state.everPersisted after.reportedOk)
    (hreplay : after.replay.Grounded keyFromSecret state.everPersisted
      after.reportedOk) :
    ∃ store', Kept keyFromSecret secretOf store' after := by
  rcases hreported with ⟨others, hothers⟩
  cases hstore with
  | same hstore =>
      refine ⟨store, hstore.trans hkept.configured, ?_, ?_, ?_, ?_, ?_, ?_, ?_⟩
      · rw [hpersisted]
        exact hkept.secrets
      · rw [hpersisted]
        exact hkept.stored
      · intro entry hentry
        rw [hpersisted] at hentry
        rw [hothers]
        exact (hkept.kept entry hentry).imp_right (List.mem_append_left _)
      · rw [hpersisted]
        exact hhandler
      · rw [hpersisted]
        exact hbuffer
      · rw [hpersisted]
        exact hflushes
      · rw [hpersisted]
        exact hreplay
  | dropped id hid hstore =>
      refine ⟨store.remove id, ?_, ?_, ?_, ?_, ?_, ?_, ?_, ?_⟩
      · rw [hstore, hkept.configured]
        rfl
      · rw [hpersisted]
        exact hkept.secrets
      · intro entry hentry
        rw [hpersisted]
        exact hkept.stored entry (List.mem_filter.mp hentry).1
      · intro entry hentry
        rw [hpersisted] at hentry
        rw [hothers]
        rcases hkept.kept entry hentry with hin | hok
        · rcases mem_remove_or hin id with hstill | rfl
          · exact Or.inl hstill
          · exact Or.inr (List.mem_append_left _ hid)
        · exact Or.inr (List.mem_append_left _ hok)
      · rw [hpersisted]
        exact hhandler
      · rw [hpersisted]
        exact hbuffer
      · rw [hpersisted]
        exact hflushes
      · rw [hpersisted]
        exact hreplay

/-- What a flush step leaves is grounded, and it drops only what was
reported. -/
theorem workTask_grounded {stored : Except Cause Unit}
    {task task' : SweepTask Id Secret Key Cause}
    (hwork : state.workTask keyFromSecret stored task = some (after, task'))
    (hgrounded : task.Grounded keyFromSecret state.everPersisted
      state.reportedOk) :
    task'.Grounded keyFromSecret state.everPersisted state.reportedOk ∧
      StoreStep state after ∧ after.everPersisted = state.everPersisted ∧
        after.reportedOk = state.reportedOk := by
  cases task with
  | starting batch =>
      cases batch with
      | nil =>
          simp only [workTask, Option.some.injEq, Prod.mk.injEq] at hwork
          rcases hwork with ⟨rfl, rfl⟩
          exact ⟨trivial, .same rfl, rfl, rfl⟩
      | cons first rest =>
          cases rest with
          | cons second rest =>
              simp only [workTask, Option.some.injEq, Prod.mk.injEq] at hwork
              rcases hwork with ⟨rfl, rfl⟩
              refine ⟨⟨hgrounded, ?_⟩, .same rfl, rfl, rfl⟩
              intro _ hsweep
              cases hsweep
          | nil =>
              obtain ⟨id, secret⟩ := first
              cases hkey : keyFromSecret secret with
              | some key =>
                  simp only [workTask, hkey, Option.some.injEq,
                    Prod.mk.injEq] at hwork
                  rcases hwork with ⟨rfl, rfl⟩
                  exact ⟨⟨secret, hkey, hgrounded _ List.mem_cons_self⟩,
                    .same rfl, rfl, rfl⟩
              | none =>
                  simp only [workTask, hkey, Option.some.injEq,
                    Prod.mk.injEq] at hwork
                  rcases hwork with ⟨rfl, rfl⟩
                  exact ⟨trivial, .same rfl, rfl, rfl⟩
  | parsing remaining keys =>
      cases remaining with
      | nil =>
          cases keys with
          | nil =>
              simp only [workTask, Option.some.injEq, Prod.mk.injEq] at hwork
              rcases hwork with ⟨rfl, rfl⟩
              exact ⟨trivial, .same rfl, rfl, rfl⟩
          | cons sweep keys =>
              simp only [workTask, Option.some.injEq, Prod.mk.injEq] at hwork
              rcases hwork with ⟨rfl, rfl⟩
              exact ⟨hgrounded.2, .same rfl, rfl, rfl⟩
      | cons entry remaining =>
          obtain ⟨id, secret⟩ := entry
          have hrest : ∀ entry ∈ remaining, entry ∈ state.everPersisted :=
            fun entry hentry =>
              hgrounded.1 entry (List.mem_cons_of_mem _ hentry)
          cases hkey : keyFromSecret secret with
          | some key =>
              simp only [workTask, hkey, Option.some.injEq,
                Prod.mk.injEq] at hwork
              rcases hwork with ⟨rfl, rfl⟩
              refine ⟨⟨hrest, ?_⟩, .same rfl, rfl, rfl⟩
              intro sweep hsweep
              rcases List.mem_append.mp hsweep with hbefore | hnew
              · exact hgrounded.2 sweep hbefore
              · rw [List.mem_singleton.mp hnew]
                exact ⟨secret, hkey, hgrounded.1 _ List.mem_cons_self⟩
          | none =>
              simp only [workTask, hkey, Option.some.injEq,
                Prod.mk.injEq] at hwork
              rcases hwork with ⟨rfl, rfl⟩
              exact ⟨⟨hrest, hgrounded.2⟩, .same rfl, rfl, rfl⟩
  | callingSingle id key => simp [workTask] at hwork
  | calling keys => simp [workTask] at hwork
  | singleSwept id =>
      simp only [workTask, Option.some.injEq, Prod.mk.injEq] at hwork
      rcases hwork with ⟨rfl, rfl⟩
      refine ⟨?_, .same rfl, rfl, rfl⟩
      intro other hother
      rw [List.mem_singleton.mp hother]
      exact hgrounded
  | singleFailed id =>
      simp only [workTask, Option.some.injEq, Prod.mk.injEq] at hwork
      rcases hwork with ⟨rfl, rfl⟩
      exact ⟨trivial, .same rfl, rfl, rfl⟩
  | releasing remaining outcomes =>
      cases remaining with
      | nil =>
          simp only [workTask, Option.some.injEq, Prod.mk.injEq] at hwork
          rcases hwork with ⟨rfl, rfl⟩
          exact ⟨hgrounded, .same rfl, rfl, rfl⟩
      | cons sweep remaining =>
          simp only [workTask, Option.some.injEq, Prod.mk.injEq] at hwork
          rcases hwork with ⟨rfl, rfl⟩
          exact ⟨hgrounded, .same rfl, rfl, rfl⟩
  | removing outcomes =>
      cases outcomes with
      | nil =>
          simp only [workTask, Option.some.injEq, Prod.mk.injEq] at hwork
          rcases hwork with ⟨rfl, rfl⟩
          exact ⟨trivial, .same rfl, rfl, rfl⟩
      | cons outcome outcomes =>
          cases outcome with
          | ok id =>
              simp only [workTask, Option.some.injEq, Prod.mk.injEq] at hwork
              rcases hwork with ⟨rfl, rfl⟩
              have hrest : ∀ other ∈ okIds outcomes, other ∈ state.reportedOk :=
                fun other hother =>
                  hgrounded other (List.mem_cons_of_mem _ hother)
              cases stored with
              | ok value =>
                  exact ⟨hrest, .dropped id (hgrounded id List.mem_cons_self)
                    rfl, rfl, rfl⟩
              | error cause => exact ⟨hrest, .same rfl, rfl, rfl⟩
          | error error =>
              simp only [workTask, Option.some.injEq, Prod.mk.injEq] at hwork
              rcases hwork with ⟨rfl, rfl⟩
              exact ⟨hgrounded, .same rfl, rfl, rfl⟩
  | failedReleasing remaining =>
      cases remaining with
      | nil =>
          simp only [workTask, Option.some.injEq, Prod.mk.injEq] at hwork
          rcases hwork with ⟨rfl, rfl⟩
          exact ⟨trivial, .same rfl, rfl, rfl⟩
      | cons sweep remaining =>
          simp only [workTask, Option.some.injEq, Prod.mk.injEq] at hwork
          rcases hwork with ⟨rfl, rfl⟩
          exact ⟨trivial, .same rfl, rfl, rfl⟩
  | done => simp [workTask] at hwork

theorem replayStep_grounded {stored : Except Cause Unit}
    (hstep : state.replayStep keyFromSecret stored = some after)
    (hgrounded : state.replay.Grounded keyFromSecret state.everPersisted
      state.reportedOk) :
    after.replay.Grounded keyFromSecret state.everPersisted
        state.reportedOk ∧
      StoreStep state after ∧ after.everPersisted = state.everPersisted ∧
        after.reportedOk = state.reportedOk ∧
        after.handler = state.handler ∧
        after.withdrawalBuffer = state.withdrawalBuffer ∧
        after.flushes = state.flushes := by
  unfold replayStep at hstep
  cases hreplay : state.replay with
  | notStarted => simp [hreplay] at hstep
  | walking remaining =>
      cases remaining with
      | nil => simp [hreplay] at hstep
      | cons entry remaining =>
          obtain ⟨id, secret⟩ := entry
          rw [hreplay] at hgrounded
          have hrest : ∀ entry ∈ remaining, entry ∈ state.everPersisted :=
            fun entry hentry => hgrounded entry (List.mem_cons_of_mem _ hentry)
          simp only [hreplay] at hstep
          split at hstep
          · simp only [Option.some.injEq] at hstep
            subst hstep
            exact ⟨hrest, .same rfl, rfl, rfl, rfl, rfl, rfl⟩
          · simp only [Option.some.injEq] at hstep
            subst hstep
            exact ⟨⟨hgrounded _ List.mem_cons_self, hrest⟩, .same rfl, rfl,
              rfl, rfl, rfl, rfl⟩
  | cleared id secret remaining =>
      rw [hreplay] at hgrounded
      simp only [hreplay, Option.some.injEq] at hstep
      subst hstep
      exact ⟨hgrounded, .same rfl, rfl, rfl, rfl, rfl, rfl⟩
  | claimed id secret remaining =>
      rw [hreplay] at hgrounded
      cases hkey : keyFromSecret secret with
      | some key =>
          simp only [hreplay, hkey, Option.some.injEq] at hstep
          subst hstep
          exact ⟨⟨⟨secret, hkey, hgrounded.1⟩, hgrounded.2⟩, .same rfl, rfl,
            rfl, rfl, rfl, rfl⟩
      | none =>
          simp only [hreplay, hkey, Option.some.injEq] at hstep
          subst hstep
          exact ⟨hgrounded.2, .same rfl, rfl, rfl, rfl, rfl, rfl⟩
  | calling id key remaining => simp [hreplay] at hstep
  | swept id remaining =>
      rw [hreplay] at hgrounded
      simp only [hreplay, Option.some.injEq] at hstep
      subst hstep
      exact ⟨hgrounded, .same rfl, rfl, rfl, rfl, rfl, rfl⟩
  | removing id remaining =>
      rw [hreplay] at hgrounded
      simp only [hreplay, Option.some.injEq] at hstep
      subst hstep
      cases stored with
      | ok value =>
          exact ⟨hgrounded.2, .dropped id hgrounded.1 rfl, rfl, rfl, rfl, rfl,
            rfl⟩
      | error cause =>
          exact ⟨hgrounded.2, .same rfl, rfl, rfl, rfl, rfl, rfl⟩
  | failed id remaining =>
      rw [hreplay] at hgrounded
      simp only [hreplay, Option.some.injEq] at hstep
      subst hstep
      exact ⟨hgrounded, .same rfl, rfl, rfl, rfl, rfl, rfl⟩

omit [DecidableEq Id] in
theorem answered_grounded {task task' : SweepTask Id Secret Key Cause}
    {reply : SweepReply Id Cause}
    (hanswered : answered task reply = some task')
    {persisted : List (Id × Secret)} {reported : List Id} :
    task'.Grounded keyFromSecret persisted (reported ++ okBy task reply) := by
  unfold answered at hanswered
  split at hanswered <;>
    simp only [Option.some.injEq, reduceCtorEq] at hanswered <;>
    subst hanswered
  · exact List.mem_append_right _ List.mem_cons_self
  · trivial
  · intro id hid
    exact List.mem_append_right _ hid
  · trivial

/-! ## The steps of the system -/

theorem Kept.handled (hkept : Kept keyFromSecret secretOf store state)
    (handler : RecoveryPhase Id Secret)
    (hhandler : handler.Grounded state.everPersisted)
    {guard : Finset Id} {result : Except (StrategyError Cause) Unit} :
    ∃ store', Kept keyFromSecret secretOf store' { state with
      inFlightSweeps := guard
      handler := handler
      result := result } :=
  hkept.step (.same rfl) rfl ⟨[], (List.append_nil _).symm⟩ hhandler
    hkept.buffer hkept.flushes hkept.replay

/-- A committed key is in the store, and what was there still is. -/
theorem Kept.persist (hkept : Kept keyFromSecret secretOf store state)
    {id : Id} {secret : Secret} (hsecret : secret = secretOf id)
    (stored : Except Cause Unit) :
    ∃ store', Kept keyFromSecret secretOf store'
      (state.persist id secret stored) := by
  have hstored : ∀ entry ∈ store.entries, entry.2 = secretOf entry.1 :=
    fun entry hentry => hkept.secrets entry (hkept.stored entry hentry)
  cases stored with
  | error cause =>
      simp only [SweepState.persist, hkept.configured]
      exact ⟨store, ⟨rfl, hkept.secrets, hkept.stored, hkept.kept,
        hkept.handler, hkept.buffer, hkept.flushes, hkept.replay⟩⟩
  | ok value =>
      simp only [SweepState.persist, hkept.configured]
      refine ⟨store.insert id secret, rfl, ?_, ?_, ?_, ?_, ?_, ?_, ?_⟩
      · intro entry hentry
        rcases List.mem_append.mp hentry with hbefore | hnew
        · exact hkept.secrets entry hbefore
        · rw [List.mem_singleton.mp hnew]
          exact hsecret
      · intro entry hentry
        rcases mem_of_mem_insert hentry with hbefore | rfl
        · exact List.mem_append_left _ (hkept.stored entry hbefore)
        · exact List.mem_append_right _ List.mem_cons_self
      · intro entry hentry
        rcases List.mem_append.mp hentry with hbefore | hnew
        · exact (hkept.kept entry hbefore).imp_left
            fun hin => mem_insert_of_mem hin id secret
        · rw [List.mem_singleton.mp hnew]
          exact Or.inl (mem_insert_of_secret hstored hsecret)
      · exact List.mem_append_right _ List.mem_cons_self
      · intro entry hentry
        exact List.mem_append_left _ (hkept.buffer entry hentry)
      · intro task htask
        have hgrounded :=
          (hkept.flushes task htask).mono [(id, secret)] []
        rwa [List.append_nil] at hgrounded
      · have hgrounded := hkept.replay.mono [(id, secret)] []
        rwa [List.append_nil] at hgrounded

theorem Kept.answer (hkept : Kept keyFromSecret secretOf store state)
    {index : ℕ} {task task' : SweepTask Id Secret Key Cause}
    {reply : SweepReply Id Cause}
    (hanswered : answered task reply = some task') :
    ∃ store', Kept keyFromSecret secretOf store' { state with
      flushes := state.flushes.set index task'
      reportedOk := state.reportedOk ++ okBy task reply
      sweptSinceCapture :=
        state.sweptSinceCapture ∪ (sweptBy task reply).toFinset } := by
  refine hkept.step (.same rfl) rfl ⟨_, rfl⟩ hkept.handler hkept.buffer ?_ ?_
  · intro other hother
    rcases List.mem_or_eq_of_mem_set hother with hbefore | rfl
    · have hgrounded :=
        (hkept.flushes other hbefore).mono [] (okBy task reply)
      rwa [List.append_nil] at hgrounded
    · exact answered_grounded hanswered
  · have hgrounded := hkept.replay.mono [] (okBy task reply)
    rwa [List.append_nil] at hgrounded

theorem Kept.work (hkept : Kept keyFromSecret secretOf store state)
    {index : ℕ} {stored : Except Cause Unit}
    {task task' : SweepTask Id Secret Key Cause}
    {settled : SweepState Id Secret Key Cause}
    (htask : state.flushes[index]? = some task)
    (hwork : state.workTask keyFromSecret stored task =
      some (settled, task')) :
    ∃ store', Kept keyFromSecret secretOf store'
      { settled with flushes := settled.flushes.set index task' } := by
  have hstep := workTask_of_some hwork
  rcases workTask_grounded hwork
    (hkept.flushes task (List.mem_of_getElem? htask)) with
    ⟨hgrounded, hstore, hpersisted, hreported⟩
  refine hkept.step ?_ hpersisted
    ⟨[], hreported.trans (List.append_nil _).symm⟩ ?_ ?_ ?_ ?_
  · cases hstore with
    | same hsame => exact .same hsame
    | dropped id hid hdropped => exact .dropped id hid hdropped
  · simp only [hstep.handler]
    exact hkept.handler
  · simp only [hstep.buffer]
    exact hkept.buffer
  · intro other hother
    simp only [hstep.flushes] at hother
    simp only [hreported]
    rcases List.mem_or_eq_of_mem_set hother with hbefore | rfl
    · exact hkept.flushes other hbefore
    · exact hgrounded
  · simp only [hstep.replay, hreported]
    exact hkept.replay

theorem Kept.replayStep (hkept : Kept keyFromSecret secretOf store state)
    {stored : Except Cause Unit}
    (hstep : state.replayStep keyFromSecret stored = some after) :
    ∃ store', Kept keyFromSecret secretOf store' after := by
  rcases replayStep_grounded hstep hkept.replay with
    ⟨hreplay, hstore, hpersisted, hreported, hhandler, hbuffer, hflushes⟩
  refine hkept.step hstore hpersisted
    ⟨[], hreported.trans (List.append_nil _).symm⟩ ?_ ?_ ?_ ?_
  · rw [hhandler]
    exact hkept.handler
  · rw [hbuffer]
    exact hkept.buffer
  · rw [hflushes, hreported]
    exact hkept.flushes
  · rw [hreported]
    exact hreplay

theorem Kept.replayAnswer (hkept : Kept keyFromSecret secretOf store state)
    {id : Id} {key : Key} {remaining : List (Id × Secret)}
    (hcalling : state.replay = .calling id key remaining) :
    (∃ store', Kept keyFromSecret secretOf store' { state with
      replay := .swept id remaining
      reportedOk := state.reportedOk ++ [id]
      sweptSinceCapture := insert id state.sweptSinceCapture }) ∧
    (∃ store', Kept keyFromSecret secretOf store'
      { state with replay := .failed id remaining }) := by
  have hgrounded := hkept.replay
  rw [hcalling] at hgrounded
  constructor
  · refine hkept.step (.same rfl) rfl ⟨_, rfl⟩ hkept.handler hkept.buffer ?_
      ⟨List.mem_append_right _ List.mem_cons_self, hgrounded.2⟩
    intro task htask
    have hmono := (hkept.flushes task htask).mono [] [id]
    rwa [List.append_nil] at hmono
  · exact hkept.step (.same rfl) rfl ⟨[], (List.append_nil _).symm⟩
      hkept.handler hkept.buffer hkept.flushes hgrounded.2

variable [DecidableEq Secret]

theorem Kept.next {action : SweepAction Id Secret Cause}
    (hkept : Kept keyFromSecret secretOf store state)
    (hallowed : OneSecret secretOf state action)
    (hnext : state.next keyFromSecret action = some after) :
    ∃ store', Kept keyFromSecret secretOf store' after := by
  have hsame : ∃ others, state.reportedOk = state.reportedOk ++ others :=
    ⟨[], (List.append_nil _).symm⟩
  cases action with
  | recover id secret stored =>
      simp only [SweepState.next] at hnext
      split at hnext
      · simp only [Option.some.injEq] at hnext
        subst hnext
        exact hkept.persist hallowed stored
      · cases hnext
  | checkSweep =>
      cases hhandler : state.handler with
      | persisted id secret =>
          have hgrounded := hkept.handler
          rw [hhandler] at hgrounded
          simp only [SweepState.next, hhandler] at hnext
          split at hnext
          · simp only [Option.some.injEq] at hnext
            subst hnext
            exact hkept.handled .idle trivial
          · simp only [Option.some.injEq] at hnext
            subst hnext
            exact hkept.handled (.cleared id secret) hgrounded
      | _ => simp [SweepState.next, hhandler] at hnext
  | claim =>
      cases hhandler : state.handler with
      | cleared id secret =>
          have hgrounded := hkept.handler
          rw [hhandler] at hgrounded
          simp only [SweepState.next, hhandler, Option.some.injEq] at hnext
          subst hnext
          exact hkept.handled (.claimed id secret) hgrounded
      | _ => simp [SweepState.next, hhandler] at hnext
  | push =>
      cases hhandler : state.handler with
      | claimed id secret =>
          have hgrounded := hkept.handler
          rw [hhandler] at hgrounded
          simp only [SweepState.next, hhandler, Option.some.injEq] at hnext
          subst hnext
          refine hkept.step (.same rfl) rfl hsame trivial ?_ hkept.flushes
            hkept.replay
          intro entry hentry
          rcases List.mem_append.mp hentry with hbefore | hnew
          · exact hkept.buffer entry hbefore
          · rw [List.mem_singleton.mp hnew]
            exact hgrounded
      | _ => simp [SweepState.next, hhandler] at hnext
  | flush =>
      simp only [SweepState.next] at hnext
      split at hnext
      · simp only [Option.some.injEq] at hnext
        subst hnext
        refine hkept.step (.same rfl) rfl hsame hkept.handler
          (fun _ hentry => by cases hentry) ?_ hkept.replay
        intro task htask
        rcases List.mem_append.mp htask with hbefore | hnew
        · exact hkept.flushes task hbefore
        · rw [List.mem_singleton.mp hnew]
          exact hkept.buffer
      · cases hnext
  | answer index reply =>
      simp only [SweepState.next] at hnext
      split at hnext
      · split at hnext
        · rename_i task' hanswered
          simp only [Option.some.injEq] at hnext
          subst hnext
          exact hkept.answer hanswered
        · cases hnext
      · cases hnext
  | work index stored =>
      simp only [SweepState.next] at hnext
      split at hnext
      · rename_i task htask
        split at hnext
        · rename_i settled task' hwork
          simp only [Option.some.injEq] at hnext
          subst hnext
          exact hkept.work htask hwork
        · cases hnext
      · cases hnext
  | capture entries =>
      cases hreplay : state.replay with
      | notStarted =>
          simp only [SweepState.next, hreplay, hkept.configured] at hnext
          split at hnext
          · rename_i hcapture
            simp only [Option.some.injEq] at hnext
            subst hnext
            exact hkept.step (.same hkept.configured.symm) rfl hsame
              hkept.handler hkept.buffer hkept.flushes
              fun entry hentry => hkept.stored entry (hcapture.1 entry hentry)
          · cases hnext
      | _ => simp [SweepState.next, hreplay] at hnext
  | replayWork stored => exact hkept.replayStep hnext
  | replayAnswer result =>
      cases hreplay : state.replay with
      | calling id key remaining =>
          have hanswer := hkept.replayAnswer hreplay
          cases result with
          | ok value =>
              simp only [SweepState.next, hreplay, Option.some.injEq] at hnext
              subst hnext
              exact hanswer.1
          | error error =>
              simp only [SweepState.next, hreplay, Option.some.injEq] at hnext
              subst hnext
              exact hanswer.2
      | _ => simp [SweepState.next, hreplay] at hnext
  | crash =>
      simp only [SweepState.next, Option.some.injEq] at hnext
      subst hnext
      exact hkept.step (.same rfl) rfl hsame trivial
        (fun _ hentry => by cases hentry) (fun _ htask => by cases htask)
        trivial

omit [DecidableEq Id] [DecidableEq Secret] in
theorem Kept.initial :
    Kept keyFromSecret secretOf ⟨[]⟩
      (SweepState.initial (some ⟨[]⟩) : SweepState Id Secret Key Cause) where
  configured := rfl
  secrets _ hentry := by cases hentry
  stored _ hentry := by cases hentry
  kept _ hentry := by cases hentry
  handler := trivial
  buffer _ hentry := by cases hentry
  flushes _ htask := by cases htask
  replay := trivial

theorem kept_of_reachable
    (hreach : (sweepSystem keyFromSecret (some ⟨[]⟩)).ReachableWithin
      (OneSecret secretOf) state) :
    ∃ store, Kept keyFromSecret secretOf store state := by
  apply hreach.invariant
  · rintro start rfl
    exact ⟨⟨[]⟩, Kept.initial⟩
  · rintro before action after ⟨store, hkept⟩ hallowed hnext
    exact hkept.next hallowed hnext

omit [DecidableEq Id] [DecidableEq Secret] in
/-- What the pool was asked for comes from a persisted secret. -/
theorem Kept.sweeps
    (hkept : Kept keyFromSecret secretOf store state) :
    ∀ sweep ∈ state.sweeps, Keyed keyFromSecret state.everPersisted sweep := by
  intro sweep hsweep
  rcases List.mem_append.mp hsweep with hflush | hreplay
  · rcases List.mem_flatMap.mp hflush with ⟨task, htask, hcalls⟩
    have hgrounded := hkept.flushes task htask
    cases task with
    | callingSingle id key =>
        rw [List.mem_singleton.mp hcalls]
        exact hgrounded
    | calling keys => exact hgrounded sweep hcalls
    | _ => cases hcalls
  · have hgrounded := hkept.replay
    cases hphase : state.replay with
    | calling id key remaining =>
        rw [hphase] at hreplay hgrounded
        rw [List.mem_singleton.mp hreplay]
        exact hgrounded.1
    | _ =>
        rw [hphase] at hreplay
        cases hreplay

/-- An entry which a step takes out of the store had been reported. -/
theorem Kept.removed {action : SweepAction Id Secret Cause}
    (hkept : Kept keyFromSecret secretOf store state)
    (hnext : state.next keyFromSecret action = some after)
    {store' : PixRecoveryStore Id Secret}
    (hstore' : after.recoveryStore = some store') {entry : Id × Secret}
    (hentry : entry ∈ store.entries) :
    entry ∈ store'.entries ∨ entry.1 ∈ state.reportedOk := by
  have hstep : StoreStep state after → entry ∈ store'.entries ∨
      entry.1 ∈ state.reportedOk := by
    rintro (hsame | ⟨id, hreported, hdropped⟩)
    · rw [hsame, hkept.configured, Option.some.injEq] at hstore'
      exact Or.inl (hstore' ▸ hentry)
    · rw [hdropped, hkept.configured, Option.map_some,
        Option.some.injEq] at hstore'
      rcases mem_remove_or hentry id with hstill | rfl
      · exact Or.inl (hstore' ▸ hstill)
      · exact Or.inr hreported
  cases action with
  | recover id secret stored =>
      simp only [SweepState.next] at hnext
      split at hnext
      · simp only [Option.some.injEq] at hnext
        subst hnext
        cases stored with
        | ok value =>
            simp only [SweepState.persist, hkept.configured,
              Option.some.injEq] at hstore'
            exact Or.inl (hstore' ▸ mem_insert_of_mem hentry id secret)
        | error cause =>
            simp only [SweepState.persist, hkept.configured,
              Option.some.injEq] at hstore'
            exact Or.inl (hstore' ▸ hentry)
      · cases hnext
  | checkSweep =>
      simp only [SweepState.next] at hnext
      split at hnext
      · split at hnext
        · simp only [Option.some.injEq] at hnext
          subst hnext
          exact hstep (.same rfl)
        · simp only [Option.some.injEq] at hnext
          subst hnext
          exact hstep (.same rfl)
      · cases hnext
  | claim | push | flush =>
      simp only [SweepState.next] at hnext
      split at hnext
      · simp only [Option.some.injEq] at hnext
        subst hnext
        exact hstep (.same rfl)
      · cases hnext
  | answer index reply =>
      simp only [SweepState.next] at hnext
      split at hnext
      · split at hnext
        · simp only [Option.some.injEq] at hnext
          subst hnext
          exact hstep (.same rfl)
        · cases hnext
      · cases hnext
  | work index stored =>
      simp only [SweepState.next] at hnext
      split at hnext
      · rename_i task htask
        split at hnext
        · rename_i settled task' hwork
          simp only [Option.some.injEq] at hnext
          subst hnext
          rcases workTask_grounded hwork
            (hkept.flushes task (List.mem_of_getElem? htask)) with
            ⟨_, hstore, _, _⟩
          cases hstore with
          | same hsame => exact hstep (.same hsame)
          | dropped id hid hdropped => exact hstep (.dropped id hid hdropped)
        · cases hnext
      · cases hnext
  | capture entries =>
      simp only [SweepState.next] at hnext
      split at hnext
      · split at hnext
        · simp only [Option.some.injEq] at hnext
          subst hnext
          exact hstep (.same rfl)
        · cases hnext
      · cases hnext
  | replayWork stored =>
      exact hstep (replayStep_grounded hnext hkept.replay).2.1
  | replayAnswer result =>
      simp only [SweepState.next] at hnext
      split at hnext
      · simp only [Option.some.injEq] at hnext
        subst hnext
        exact hstep (.same rfl)
      · simp only [Option.some.injEq] at hnext
        subst hnext
        exact hstep (.same rfl)
      · cases hnext
  | crash =>
      simp only [SweepState.next, Option.some.injEq] at hnext
      subst hnext
      exact hstep (.same rfl)

end SweepState

/-- With a store and one secret for each id, in every run and after every
crash: a committed key is in the store unless the pool has reported its id as
swept; the pool is asked to sweep only with keys which were committed before;
and a step takes an entry out of the store only after its id was reported. -/
theorem recoveredKeysKept [DecidableEq Id] [DecidableEq Secret]
    (keyFromSecret : Secret → Option Key) (secretOf : Id → Secret)
    {state : SweepState Id Secret Key Cause}
    (hreach : (sweepSystem keyFromSecret (some ⟨[]⟩)).ReachableWithin
      (SweepState.OneSecret secretOf) state) :
    ∃ store, state.recoveryStore = some store ∧
      (∀ entry ∈ state.everPersisted,
        entry ∈ store.entries ∨ entry.1 ∈ state.reportedOk) ∧
      (∀ sweep ∈ state.sweeps, ∃ secret,
        keyFromSecret secret = some sweep.2 ∧
        (sweep.1, secret) ∈ state.everPersisted ∧
        ((sweep.1, secret) ∈ store.entries ∨
          sweep.1 ∈ state.reportedOk)) ∧
      (∀ action after store', state.next keyFromSecret action = some after →
        after.recoveryStore = some store' →
        ∀ entry ∈ store.entries,
          entry ∈ store'.entries ∨ entry.1 ∈ state.reportedOk) := by
  rcases SweepState.kept_of_reachable hreach with ⟨store, hkept⟩
  refine ⟨store, hkept.configured, hkept.kept, ?_, ?_⟩
  · intro sweep hsweep
    rcases hkept.sweeps sweep hsweep with ⟨secret, hkey, hmem⟩
    exact ⟨secret, hkey, hmem, hkept.kept _ hmem⟩
  · intro action after store' hnext hstore' entry hentry
    exact hkept.removed hnext hstore' hentry

/-- A key which is swept by the replay after a crash. -/
theorem recoveredKeysKept_replayed :
    ∃ state : SweepState ℕ ℕ ℕ Unit, state.sweeps = [(7, 0)] ∧
      ∃ store, state.recoveryStore = some store ∧
        (7, 0) ∈ store.entries := by
  let allowed : SweepState ℕ ℕ ℕ Unit → SweepAction ℕ ℕ Unit → Prop :=
    SweepState.OneSecret fun _ => 0
  have hinit : (sweepSystem (some : ℕ → Option ℕ) (some ⟨[]⟩)).ReachableWithin
      allowed (SweepState.initial (some ⟨[]⟩)) := .init rfl
  let replaying : List (SweepAction ℕ ℕ Unit) :=
    [.recover 7 0 (.ok ()), .crash, .capture [(7, 0)], .replayWork (.ok ()),
      .replayWork (.ok ()), .replayWork (.ok ())]
  have hcalling := hinit.run replaying
    (fun _ action haction => by
      simp only [replaying, List.mem_cons, List.not_mem_nil, or_false]
        at haction
      rcases haction with rfl | rfl | rfl | rfl | rfl | rfl <;>
        first | rfl | trivial) rfl
  rcases recoveredKeysKept some (fun _ => 0) hcalling with
    ⟨store, hstore, hkept, _, _⟩
  refine ⟨_, rfl, store, hstore, ?_⟩
  exact (hkept (7, 0) List.mem_cons_self).resolve_right (by decide)

end HoprStrategy.Pix
