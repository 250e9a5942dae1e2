import HoprStrategy.CurvySdkGuard

/-!
# What a guarded call does

The inversion of the guard: every guarded call is a read, a question to
something else, a change in memory, or a save.
-/

namespace HoprStrategy.Curvy

open Library

variable {Fr : Type}

variable [DecidableEq Fr] {config : SdkConfig Fr} {distinct : Prop}

/-- The step of a guarded call and its reply. -/
inductive GuardedStep (config : SdkConfig Fr) (distinct : Prop)
    (world : SdkWorld Fr) : (call : SdkCall Fr) → call.Reply →
      SdkWorld Fr → Prop
  | read :
      GuardedStep config distinct world .readState world.memory world
  | external {call : SdkCall Fr} (reply : call.Reply)
      (hexternal : call.external = true)
      (hguard : Guard config distinct world call)
      (hpermits : world.permits call reply) :
      GuardedStep config distinct world call reply (world.record call reply)
  | found (reader : RecordReader) {id : PixAddressId}
      {record : StoredAllocation}
      (hreader : reader = .completion .bookAmbiguous →
        world.phase = .mutated ∧ id ∈ world.memory.ambiguousAllocationIds)
      (hfind : world.records.find id = some record) :
      GuardedStep config distinct world (.allocation reader id)
        (.ok (some record))
        (world.record (.allocation reader id) (.ok (some record)))
  | missed (reader : RecordReader) (id : PixAddressId)
      (reply : Except String (Option StoredAllocation))
      (hphase : world.phase = .settled)
      (hreader : reader ≠ .completion .bookAmbiguous) :
      GuardedStep config distinct world (.allocation reader id) reply
        (world.record (.allocation reader id) reply)
  | missedMutated (id : PixAddressId)
      {reply : Except String (Option StoredAllocation)}
      (hid : id ∈ world.memory.ambiguousAllocationIds)
      (hreply : ∀ record, reply ≠ .ok (some record))
      (hphase : world.phase = .mutated) :
      GuardedStep config distinct world
        (.allocation (.completion .bookAmbiguous) id) reply
        { world with
          phase := .lost
          history :=
            ⟨.allocation (.completion .bookAmbiguous) id, reply⟩ ::
              world.history }
  | mutated {next : SdkState} (hphase : world.phase = .settled)
      (hstep : MemoryStep config world.history world.memory next) :
      GuardedStep config distinct world (.writeState next) ()
        { world with
          memory := next
          phase := .mutated }
  | clearedIds (hphase : world.phase = .mutated) :
      GuardedStep config distinct world
        (.writeState { world.memory with ambiguousAllocationIds := [] }) ()
        { world with
          memory := { world.memory with ambiguousAllocationIds := [] } }
  | assigned (hphase : world.phase = .saved) :
      GuardedStep config distinct world (.writeState world.disk) ()
        { world with
          memory := world.disk
          phase := .settled }
  | saved {update : Update} {next : SdkState}
      {allocations : List StoredAllocation} {remove : List PixAddressId}
      (hphase : world.phase = .settled) (hupdate : update.mutatesFirst = false)
      (hstep : DurableStep config distinct world update next allocations
        remove) :
      GuardedStep config distinct world
        (.saveUpdate update next allocations remove) (.ok ())
        { memory := world.memory
          disk := next
          records := world.records.update allocations remove
          phase := .saved
          history := ⟨.saveUpdate update next allocations remove, .ok ()⟩ ::
            world.history }
  | saveFailed {update : Update} {next : SdkState}
      {allocations : List StoredAllocation} {remove : List PixAddressId}
      (error : String) (hphase : world.phase = .settled)
      (hupdate : update.mutatesFirst = false) :
      GuardedStep config distinct world
        (.saveUpdate update next allocations remove) (.error error)
        (world.record (.saveUpdate update next allocations remove)
          (.error error))
  | persisted {update : Update} {ids : List PixAddressId}
      {allocations : List StoredAllocation}
      (hphase : world.phase = .mutated) (hupdate : update.mutatesFirst = true)
      (hcompleted : CompletedRecords world ids allocations)
      (hread : ∀ id ∈ ids, CompletionRead world.history id) :
      GuardedStep config distinct world
        (.saveUpdate update world.memory allocations []) (.ok ())
        { memory := world.memory
          disk := world.memory
          records := world.records.update allocations []
          phase := .settled
          history := ⟨.saveUpdate update world.memory allocations [],
            .ok ()⟩ :: world.history }
  | stranded {update : Update} {allocations : List StoredAllocation}
      (error : String) (hphase : world.phase = .mutated)
      (hupdate : update.mutatesFirst = true) :
      GuardedStep config distinct world
        (.saveUpdate update world.memory allocations []) (.error error)
        { world with
          phase := .lost
          history := ⟨.saveUpdate update world.memory allocations [],
            .error error⟩ :: world.history }

section

variable {world : SdkWorld Fr}

theorem guardedStep_writeState {next : SdkState}
    (hguard : Guard config distinct world (.writeState next)) :
    GuardedStep config distinct world (.writeState next) ()
      (world.assigned next) := by
  rcases hguard with ⟨hphase, rfl⟩ | ⟨hphase, hstep⟩ | ⟨hphase, rfl⟩
  · have h : GuardedStep config distinct world _ _ _ := .assigned hphase
    simpa [SdkWorld.assigned, hphase] using h
  · have h : GuardedStep config distinct world _ _ _ := .mutated hphase hstep
    simpa [SdkWorld.assigned, hphase] using h
  · have h : GuardedStep config distinct world _ _ _ := .clearedIds hphase
    simpa [SdkWorld.assigned, hphase] using h

theorem guardedStep_saveUpdate {update : Update} {next : SdkState}
    {allocations : List StoredAllocation} {remove : List PixAddressId}
    (hguard : Guard config distinct world
      (.saveUpdate update next allocations remove))
    (reply : Except String Unit) :
    GuardedStep config distinct world
      (.saveUpdate update next allocations remove) reply
      (world.after (.saveUpdate update next allocations remove) reply) := by
  rcases hguard with ⟨hphase, hupdate, rfl, rfl, ids, hcompleted, hread⟩ |
    ⟨hphase, hupdate, hstep⟩
  · cases reply with
    | ok value =>
        have h : GuardedStep config distinct world _ _ _ :=
          .persisted hphase hupdate hcompleted hread
        simpa [SdkWorld.after, SdkWorld.saved, SdkWorld.record, hphase] using h
    | error error =>
        have h : GuardedStep config distinct world (.saveUpdate update
            world.memory allocations []) _ _ :=
          .stranded error hphase hupdate
        simpa [SdkWorld.after, SdkWorld.stranded, SdkWorld.record, hphase]
          using h
  · cases reply with
    | ok value =>
        have h := GuardedStep.saved hphase hupdate hstep
        simpa [SdkWorld.after, SdkWorld.saved, SdkWorld.record, hphase] using h
    | error error =>
        have h : GuardedStep config distinct world (.saveUpdate update next
            allocations remove) _ _ :=
          .saveFailed error hphase hupdate
        rw [← SdkWorld.stranded_of_settled hphase] at h
        simpa [SdkWorld.after, SdkWorld.stranded_of_settled hphase] using h

theorem guardedStep_allocation {reader : RecordReader} {id : PixAddressId}
    (hguard : Guard config distinct world (.allocation reader id))
    (reply : Except String (Option StoredAllocation))
    (hpermits : world.permits (.allocation reader id) reply) :
    GuardedStep config distinct world (.allocation reader id) reply
      (world.after (.allocation reader id) reply) := by
  rcases reply with error | _ | record
  · rcases hguard with ⟨hphase, hreader⟩ | ⟨hphase, rfl, hid⟩
    · have h : GuardedStep config distinct world _ _ _ :=
        .missed reader id (.error error) hphase hreader
      rw [← SdkWorld.stranded_of_settled hphase] at h
      simpa [SdkWorld.after, SdkWorld.stranded_of_settled hphase] using h
    · have h : GuardedStep config distinct world
          (.allocation (.completion .bookAmbiguous) id) (.error error) _ :=
        .missedMutated id hid (by simp) hphase
      simpa [SdkWorld.after, SdkWorld.stranded, SdkWorld.record, hphase]
        using h
  · rcases hguard with ⟨hphase, hreader⟩ | ⟨hphase, rfl, hid⟩
    · have h : GuardedStep config distinct world _ _ _ :=
        .missed reader id (.ok none) hphase hreader
      rw [← SdkWorld.stranded_of_settled hphase] at h
      simpa [SdkWorld.after, SdkWorld.stranded_of_settled hphase] using h
    · have h : GuardedStep config distinct world
          (.allocation (.completion .bookAmbiguous) id) (.ok none) _ :=
        .missedMutated id hid (by simp) hphase
      simpa [SdkWorld.after, SdkWorld.stranded, SdkWorld.record, hphase]
        using h
  · refine .found reader (fun hreader => ?_) ?_
    · rcases hguard with ⟨_, hother⟩ | ⟨hphase, _, hid⟩
      · exact absurd hreader hother
      · exact ⟨hphase, hid⟩
    · rcases hpermits with h | ⟨error, h⟩
      · exact (Except.ok.inj h).symm
      · cases h

theorem guardedStep_of_guard {call : SdkCall Fr} {reply : call.Reply}
    {after : SdkWorld Fr} (hguard : Guard config distinct world call)
    (henv : sdkEnvironment world call reply after) :
    GuardedStep config distinct world call reply after := by
  rcases henv with ⟨hpermits, rfl⟩
  cases hcall : call.external with
  | true =>
      rw [after_external hcall]
      exact .external reply hcall hguard hpermits
  | false =>
      cases call with
      | readState =>
          change (reply : SdkState) = world.memory at hpermits
          subst hpermits
          exact .read
      | writeState next => exact guardedStep_writeState hguard
      | saveUpdate update next allocations remove =>
          exact guardedStep_saveUpdate hguard reply
      | resetStore state => cases hguard
      | allocation reader id =>
          exact guardedStep_allocation hguard reply hpermits
      | _ => cases hcall

end

end HoprStrategy.Curvy
